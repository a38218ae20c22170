import QueryBuilder.Schema.Grammar
import QueryBuilder.Proofs.Schema.Lexing
import QueryBuilder.Proofs.Schema.Sentence

set_option autoImplicit false

namespace QueryBuilder

open Sentence (joined)

def Spells (ts : List Token) (ls rest : List Lexeme) : Prop :=
  ∃ front, ls = front ++ rest ∧ front.map (·.token) = ts

namespace Spells

variable {ts us : List Token} {ls mid rest : List Lexeme}

theorem nil_iff : Spells [] ls rest ↔ ls = rest := by
  simp [Spells]

theorem cons_iff {t : Token} :
    Spells (t :: ts) ls rest ↔ ∃ n mid, ls = ⟨t, n⟩ :: mid ∧ Spells ts mid rest := by
  constructor
  · rintro ⟨front, rfl, h⟩
    obtain ⟨⟨t', n⟩, front, rfl, ht, hts⟩ := List.map_eq_cons_iff.mp h
    cases ht
    exact ⟨n, front ++ rest, rfl, front, rfl, hts⟩
  · rintro ⟨n, mid, rfl, front, rfl, h⟩
    exact ⟨⟨t, n⟩ :: front, rfl, by simp [h]⟩

theorem append_iff :
    Spells (ts ++ us) ls rest ↔ ∃ mid, Spells ts ls mid ∧ Spells us mid rest := by
  constructor
  · rintro ⟨front, rfl, h⟩
    obtain ⟨xs, ys, rfl, hx, hy⟩ := List.map_eq_append_iff.mp h
    exact ⟨ys ++ rest, ⟨xs, List.append_assoc _ _ _, hx⟩, ys, rfl, hy⟩
  · rintro ⟨mid, ⟨xs, rfl, hx⟩, ys, rfl, hy⟩
    exact ⟨xs ++ ys, (List.append_assoc _ _ _).symm, by simp [hx, hy]⟩

theorem append (h : Spells ts ls mid) (h' : Spells us mid rest) : Spells (ts ++ us) ls rest :=
  append_iff.mpr ⟨mid, h, h'⟩

theorem uncons {t : Token} (h : Spells (t :: ts) ls rest) :
    ∃ mid, Spells [t] ls mid ∧ Spells ts mid rest := by
  rw [← List.singleton_append] at h
  exact append_iff.mp h

theorem cons {t : Token} {n : Nat} (h : Spells ts ls rest) :
    Spells (t :: ts) (⟨t, n⟩ :: ls) rest :=
  cons_iff.mpr ⟨n, ls, rfl, h⟩

theorem map_token (h : Spells ts ls rest) :
    ls.map (·.token) = ts ++ rest.map (·.token) := by
  obtain ⟨front, rfl, h⟩ := h
  rw [List.map_append, h]

theorem of_map_token (h : ls.map (·.token) = ts ++ us) :
    ∃ rest, Spells ts ls rest ∧ rest.map (·.token) = us := by
  obtain ⟨front, rest, rfl, hf, hr⟩ := List.map_eq_append_iff.mp h
  exact ⟨rest, ⟨front, rfl, hf⟩, hr⟩

end Spells

namespace Reader

variable {α β : Type} {ls rest : List Lexeme}

theorem peek_cons_of_spells {t : Token} {ts : List Token} (h : Spells (t :: ts) ls rest) :
    peek ls = t := by
  obtain ⟨n, mid, rfl, -⟩ := Spells.cons_iff.mp h
  rfl

theorem peek_of_spells {ts : List Token} (h : Spells ts ls rest) :
    peek ls = (ts ++ [peek rest]).headD .eof := by
  cases ts with
  | nil => rw [Spells.nil_iff.mp h]; rfl
  | cons t ts => exact peek_cons_of_spells h

theorem bind_done {p : Reader α} {f : α → Reader β} {b : β} :
    (p >>= f) ls = .done b rest ↔ ∃ a mid, p ls = .done a mid ∧ f a mid = .done b rest := by
  change bind p f ls = _ ↔ _
  unfold bind
  cases p ls <;> simp [and_assoc]

theorem pure_done {a b : α} : (pure a : Reader α) ls = .done b rest ↔ a = b ∧ ls = rest := by
  change Reading.done a ls = _ ↔ _
  simp

theorem name_done {expected : Expected} {s : String} :
    name expected ls = .done s rest ↔ Spells [.ident s] ls rest := by
  simp only [Spells.cons_iff, Spells.nil_iff, exists_eq_right]
  unfold name
  split
  · next s' n rest' =>
    constructor
    · rintro h
      cases h
      exact ⟨n, rfl⟩
    · rintro ⟨n', h⟩
      cases h
      rfl
  · next other =>
    constructor
    · intro h
      cases h
    · rintro ⟨n, h⟩
      exact absurd h (other s n rest)

theorem symbol_done {t : Token} {expected : Expected} {u : Unit} :
    symbol t expected ls = .done u rest ↔ Spells [t] ls rest := by
  simp only [Spells.cons_iff, Spells.nil_iff, exists_eq_right]
  cases ls with
  | nil => simp [symbol, fail]
  | cons l ls =>
    obtain ⟨t', n⟩ := l
    by_cases h : t' = t
    · simp [symbol, h]
    · simp [symbol, h, fail]

theorem before_done {ts : List Token} {expected : Expected} {u : Unit} :
    before ts expected ls = .done u rest ↔ ls = rest ∧ peek rest ∈ ts := by
  unfold before
  split
  · next h =>
    constructor
    · intro done
      cases done
      exact ⟨rfl, h⟩
    · rintro ⟨rfl, -⟩
      rfl
  · next h =>
    constructor
    · intro done
      cases done
    · rintro ⟨rfl, here⟩
      exact absurd here h

theorem pointsLeft_done {left : Bool} :
    pointsLeft ls = .done left rest ↔ Spells [if left then .lt else .gt] ls rest := by
  simp only [Spells.cons_iff, Spells.nil_iff, exists_eq_right]
  unfold pointsLeft
  split
  · next n rest' => cases left <;> simp
  · next n rest' => cases left <;> simp
  · next gt lt =>
    constructor
    · intro done
      cases done
    · rintro ⟨n, rfl⟩
      cases left
      · exact absurd rfl (gt n rest)
      · exact absurd rfl (lt n rest)

theorem spells_dropBefore (stops : List Token) (ls : List Lexeme) :
    ∃ ts, Spells ts ls (dropBefore stops ls) ∧ (∀ t ∈ ts, t ∉ stops) ∧
      textBefore stops ls = joined ts := by
  refine ⟨(ls.takeWhile (!isOneOf stops ·)).map (·.token), ⟨_, ?_, rfl⟩, ?_, ?_⟩
  · exact List.takeWhile_append_dropWhile.symm
  · intro t ht
    obtain ⟨l, hl, rfl⟩ := List.mem_map.mp ht
    simpa [isOneOf] using List.all_eq_true.mp List.all_takeWhile l hl
  · simp [textBefore, joined, Function.comp_def]

theorem dropBefore_of_spells {stops ts : List Token} (run : Spells ts ls rest)
    (inside : ∀ t ∈ ts, t ∉ stops) (stop : peek rest ∈ stops) (more : rest ≠ []) :
    dropBefore stops ls = rest ∧ textBefore stops ls = joined ts := by
  obtain ⟨front, rfl, rfl⟩ := run
  have inner : ∀ l ∈ front, !isOneOf stops l := by
    intro l hl
    simpa [isOneOf] using inside _ (List.mem_map_of_mem hl)
  have out : ∀ l ∈ rest.head?, (!isOneOf stops l) = false := by
    obtain ⟨l, rest, rfl⟩ := List.exists_cons_of_ne_nil more
    simpa [isOneOf, peek] using stop
  obtain ⟨taken, left⟩ := span_of_stop inner out
  constructor
  · exact left
  · rw [textBefore, taken, joined, List.map_map]
    rfl

end Reader

end QueryBuilder
