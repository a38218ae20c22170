import QueryBuilder.Proofs.Schema.Acceptance

set_option autoImplicit false

namespace QueryBuilder.Reader

open Sentence (RelationLine)

variable {α β : Type} {ls ks rest : List Lexeme}

-- What stands behind the line is the same before and after.
def StaysOnLine (p : Reader α) : Prop :=
  ∀ ls, dropBefore lineEnds (p ls).rest = dropBefore lineEnds ls

theorem dropBefore_dropBefore {stops more : List Token} (fewer : ∀ t ∈ stops, t ∈ more)
    (ls : List Lexeme) : dropBefore stops (dropBefore more ls) = dropBefore stops ls := by
  induction ls with
  | nil => rfl
  | cons l ls ih =>
    by_cases stop : l.token ∈ more
    · simp [dropBefore, isOneOf, stop]
    · rw [dropBefore_cons stop, dropBefore_cons fun h => stop (fewer _ h), ih]

theorem staysOnLine_pure (a : α) : StaysOnLine (pure a : Reader α) := fun _ => rfl

theorem staysOnLine_bind {p : Reader α} {f : α → Reader β} (hp : StaysOnLine p)
    (hf : ∀ a, StaysOnLine (f a)) : StaysOnLine (p >>= f) := by
  intro ls
  have first := hp ls
  show dropBefore lineEnds (bind p f ls).rest = _
  unfold bind
  cases h : p ls with
  | done a rest =>
    rw [h] at first
    exact (hf a rest).trans first
  | stuck e rest =>
    rw [h] at first
    exact first

theorem staysOnLine_name (expected : Expected) : StaysOnLine (name expected) := by
  intro ls
  unfold name
  split
  · exact (dropBefore_cons (by simp [lineEnds]) _).symm
  · rfl

theorem staysOnLine_symbol {t : Token} (inner : t ∉ lineEnds) (expected : Expected) :
    StaysOnLine (symbol t expected) := by
  intro ls
  unfold symbol
  split
  · next l rest =>
    split
    · next same => exact (dropBefore_cons (same ▸ inner) rest).symm
    · rfl
  · rfl

theorem staysOnLine_before (ts : List Token) (expected : Expected) :
    StaysOnLine (before ts expected) := by
  intro ls
  unfold before
  split <;> rfl

theorem staysOnLine_pointsLeft : StaysOnLine pointsLeft := by
  intro ls
  unfold pointsLeft
  split
  · exact (dropBefore_cons (by simp [lineEnds]) _).symm
  · exact (dropBefore_cons (by simp [lineEnds]) _).symm
  · rfl

theorem staysOnLine_relationshipFrom (leftEntity : String) :
    StaysOnLine (relationshipFrom leftEntity) :=
  staysOnLine_bind (staysOnLine_symbol (by simp [lineEnds]) _) fun _ =>
    staysOnLine_bind (staysOnLine_name _) fun _ =>
      staysOnLine_bind staysOnLine_pointsLeft fun _ =>
        staysOnLine_bind (staysOnLine_name _) fun _ =>
          staysOnLine_bind (staysOnLine_symbol (by simp [lineEnds]) _) fun _ =>
            staysOnLine_bind (staysOnLine_name _) fun _ =>
              staysOnLine_bind (staysOnLine_before _ _) fun _ => staysOnLine_pure _

theorem staysOnLine_metadataItems (items : List (String × String)) :
    StaysOnLine (metadataItems items) := by
  intro ls
  have value (rest : List Lexeme) :
      dropBefore lineEnds (dropBefore valueEnds rest) = dropBefore lineEnds rest :=
    dropBefore_dropBefore (by simp [lineEnds, valueEnds]) rest
  have key (s : String) (n k : Nat) (rest : List Lexeme) :
      dropBefore lineEnds (⟨.ident s, n⟩ :: ⟨.colon, k⟩ :: rest) = dropBefore lineEnds rest := by
    rw [dropBefore_cons (by simp [lineEnds]), dropBefore_cons (by simp [lineEnds])]
  fun_induction metadataItems items ls with
  | case1 => exact (dropBefore_cons (by simp [lineEnds]) _).symm
  | case2 items s n k inner item c after dropped ih =>
    rw [ih, key, ← value inner, dropped, dropBefore_cons (by simp [lineEnds])]
  | case3 items s n k inner item c after dropped =>
    rw [key, ← value inner, dropped, dropBefore_cons (by simp [lineEnds])]
    rfl
  | case4 items s n k inner item =>
    rw [key, ← value inner]
    rfl
  | case5 => exact (dropBefore_cons (by simp [lineEnds]) _).symm
  | case6 => rfl

theorem staysOnLine_metadata : StaysOnLine metadata := by
  intro ls
  unfold metadata
  split
  · rw [staysOnLine_metadataItems, dropBefore_cons (by simp [lineEnds])]
  · rfl

theorem bind_stuck {p : Reader α} {f : α → Reader β} {e : ParseError} :
    (p >>= f) ls = .stuck e rest ↔
      p ls = .stuck e rest ∨ ∃ a mid, p ls = .done a mid ∧ f a mid = .stuck e rest := by
  change bind p f ls = _ ↔ _
  unfold bind
  cases p ls <;> simp [and_assoc]

theorem rest_of_stuck_openBrace {e : ParseError} (h : openBrace ls = .stuck e rest) :
    rest = ls := by
  unfold openBrace at h
  split at h
  · cases h
  · cases h
    rfl

-- The brace may stand on a later line, so this holds of failures only.
theorem dropBefore_of_stuck_entityHead {e : ParseError} (h : entityHead ls = .stuck e rest) :
    dropBefore lineEnds rest = dropBefore lineEnds ls := by
  have first := staysOnLine_metadata ls
  rcases bind_stuck.mp h with h | ⟨items, mid, done, h⟩
  · rwa [h] at first
  · rw [done] at first
    rcases bind_stuck.mp h with h | ⟨_, _, _, h⟩
    · rwa [rest_of_stuck_openBrace h]
    · cases h

theorem dropBefore_of_stuck_relationshipFrom {leftEntity : String} {e : ParseError}
    (h : relationshipFrom leftEntity ls = .stuck e rest) :
    dropBefore lineEnds rest = dropBefore lineEnds ls := by
  have stays := staysOnLine_relationshipFrom leftEntity ls
  rwa [h] at stays

variable {line : List Lexeme}

theorem dropBefore_line (inside : ∀ l ∈ line, l.token ∉ lineEnds) (stop : peek rest ∈ lineEnds) :
    dropBefore lineEnds (line ++ rest) = rest := by
  have inner : ∀ l ∈ line, !isOneOf lineEnds l := by simpa [isOneOf] using inside
  refine (span_of_stop inner ?_).2
  cases rest with
  | nil => simp
  | cons l rest => simpa [isOneOf, peek] using stop

theorem spells_line {ts : List Token} {after : List Lexeme}
    (inside : ∀ l ∈ line, l.token ∉ lineEnds) (stop : peek rest ∈ lineEnds)
    (run : Spells ts (line ++ rest) after) (inner : ∀ t ∈ ts, t ∉ lineEnds)
    (stop' : peek after ∈ lineEnds) : ts = line.map (·.token) ∧ after = rest := by
  obtain ⟨front, split, rfl⟩ := run
  have same : after = rest := by
    rw [← dropBefore_line inside stop, split, dropBefore_line ?_ stop']
    exact fun l hl => inner _ (List.mem_map_of_mem hl)
  subst same
  rw [List.append_cancel_right split]
  exact ⟨rfl, rfl⟩

theorem tailTokens_inside (r : RelationLine) : ∀ t ∈ r.tailTokens, t ∉ lineEnds := by
  intro t ht
  simp only [RelationLine.tailTokens, List.mem_cons, List.not_mem_nil, or_false] at ht
  rcases ht with rfl | rfl | rfl | rfl | rfl | rfl <;> simp [lineEnds]
  split <;> simp

theorem relationshipFrom_line {leftEntity : String} {r : Relationship} {after : List Lexeme}
    (inside : ∀ l ∈ line, l.token ∉ lineEnds) (stop : peek rest ∈ lineEnds) :
    relationshipFrom leftEntity (line ++ rest) = .done r after ↔
      after = rest ∧ ∃ l : RelationLine, l.relationship = r ∧
        l.tokens = .ident leftEntity :: line.map (·.token) := by
  rw [relationshipFrom_done]
  constructor
  · rintro ⟨l, rfl, rfl, run, stop'⟩
    obtain ⟨tokens, rfl⟩ := spells_line inside stop run (tailTokens_inside l) stop'
    exact ⟨rfl, l, rfl, by rw [RelationLine.tokens, tokens]⟩
  · rintro ⟨rfl, l, rfl, tokens⟩
    obtain ⟨left, tail⟩ := List.cons.inj tokens
    exact ⟨l, by simpa using left, rfl, ⟨line, rfl, tail.symm⟩, stop⟩

theorem peek_of_openBrace {u : Unit} (h : openBrace ls = .done u rest) :
    peek (ls.dropWhile (isOneOf [.newline])) = .lbrace := by
  unfold openBrace at h
  split at h
  · next dropped =>
    rw [dropped]
    rfl
  · cases h

-- A brace that opens the body stands on the line, or first of all that stands behind it.
theorem entityHead_line {items : List (String × String)} {after : List Lexeme}
    (inside : ∀ l ∈ line, l.token ∉ lineEnds) (unopened : ∀ l ∈ line, l.token ≠ .lbrace)
    (stop : peek rest ∈ lineEnds) (apart : peek (rest.dropWhile (isOneOf [.newline])) ≠ .lbrace) :
    entityHead (line ++ rest) ≠ .done items after := by
  intro done
  obtain ⟨m, mid, read, opened⟩ := bind_done.mp done
  obtain ⟨_, _, brace, -⟩ := bind_done.mp opened
  have first := peek_of_openBrace brace
  have stays := staysOnLine_metadata (line ++ rest)
  rw [dropBefore_line inside stop, read] at stays
  obtain ⟨-, -, -, front, split, -⟩ := metadata_sound read
  cases mid with
  | nil => cases first
  | cons l mid =>
    by_cases newline : l.token = .newline
    · have here : rest = l :: mid := by
        rw [← stays]
        simp [Reading.rest, dropBefore, isOneOf, lineEnds, newline]
      exact apart (here ▸ first)
    · have opens : l.token = .lbrace := by
        simpa [isOneOf, newline, peek] using first
      have onLine : line = front ++ l :: mid.takeWhile (!isOneOf lineEnds ·) := by
        refine List.append_cancel_right (split.trans ?_)
        rw [← stays, Reading.rest, dropBefore_cons (by simp [opens, lineEnds]), List.append_assoc,
          List.cons_append, dropBefore, List.takeWhile_append_dropWhile]
      exact unopened l (by simp [onLine]) opens

-- Exactly the line is read, as the relation with these tokens or as nothing.
structure ReadsLine (ts : List Token) (rest : List Lexeme) (d : Declaration × List Lexeme) :
    Prop where
  rest : d.2 = rest
  entity : d.1.entity? = none
  relationship (r : Relationship) : d.1.relationship? = some r ↔
    ∃ l : RelationLine, l.relationship = r ∧ l.tokens = ts

theorem relationship_line (leftEntity : String) (inside : ∀ l ∈ line, l.token ∉ lineEnds)
    (stop : peek rest ∈ lineEnds) :
    ReadsLine (.ident leftEntity :: line.map (·.token)) rest
      (relationship leftEntity (line ++ rest)) := by
  have iff (r : Relationship) (after : List Lexeme) :
      relationshipFrom leftEntity (line ++ rest) = .done r after ↔ _ :=
    relationshipFrom_line inside stop
  unfold relationship declared
  cases h : relationshipFrom leftEntity (line ++ rest) with
  | done r after =>
    obtain ⟨behind, here⟩ := (iff r after).mp h
    refine ⟨behind, rfl, fun r' => ⟨?_, fun written => ?_⟩⟩
    · intro same
      cases same
      exact here
    · cases h.symm.trans ((iff r' rest).mpr ⟨rfl, written⟩)
      rfl
  | stuck e after =>
    have behind := (dropBefore_of_stuck_relationshipFrom h).trans (dropBefore_line inside stop)
    refine ⟨behind, rfl, fun r => ⟨nofun, fun written => ?_⟩⟩
    cases h.symm.trans ((iff r rest).mpr ⟨rfl, written⟩)

theorem entity_line (n : Nat) (name : String) (inside : ∀ l ∈ line, l.token ∉ lineEnds)
    (unopened : ∀ l ∈ line, l.token ≠ .lbrace) (stop : peek rest ∈ lineEnds)
    (apart : peek (rest.dropWhile (isOneOf [.newline])) ≠ .lbrace)
    (dotless : peek (line ++ rest) ≠ .dot) :
    ReadsLine (.ident name :: line.map (·.token)) rest (entity n name (line ++ rest)) := by
  unfold entity declared
  cases h : entityHead (line ++ rest) with
  | done items after => exact absurd h (entityHead_line inside unopened stop apart)
  | stuck e after =>
    have behind := (dropBefore_of_stuck_entityHead h).trans (dropBefore_line inside stop)
    refine ⟨behind, rfl, fun r => ⟨nofun, ?_⟩⟩
    rintro ⟨l, -, tokens⟩
    -- In a relation the dot comes next.
    have second := (List.cons.inj tokens).2
    cases line with
    | nil => cases second
    | cons x line => exact absurd (List.cons.inj second).1.symm dotless

theorem declaration_line (more : line ≠ []) (inside : ∀ l ∈ line, l.token ∉ lineEnds)
    (unopened : ∀ l ∈ line, l.token ≠ .lbrace) (stop : peek rest ∈ lineEnds)
    (apart : peek (rest.dropWhile (isOneOf [.newline])) ≠ .lbrace) :
    ReadsLine (line.map (·.token)) rest (declaration (line ++ rest)) := by
  have left := dropBefore_line inside stop
  obtain ⟨⟨t, n⟩, line, rfl⟩ := List.exists_cons_of_ne_nil more
  have inside' : ∀ l ∈ line, l.token ∉ lineEnds := fun l hl => inside l (List.mem_cons_of_mem _ hl)
  have unopened' : ∀ l ∈ line, l.token ≠ .lbrace :=
    fun l hl => unopened l (List.mem_cons_of_mem _ hl)
  cases t with
  | ident s =>
    by_cases dot : peek (line ++ rest) = .dot
    · simp only [List.cons_append, declaration, if_pos dot]
      exact relationship_line s inside' stop
    · simp only [List.cons_append, declaration, if_neg dot]
      exact entity_line n s inside' unopened' stop apart dot
  | _ =>
    refine ⟨left, rfl, fun r => ⟨?_, ?_⟩⟩
    · intro read
      cases read
    · rintro ⟨l, -, tokens⟩
      cases (List.cons.inj tokens).1

end QueryBuilder.Reader
