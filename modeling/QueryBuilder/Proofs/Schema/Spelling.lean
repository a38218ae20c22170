import QueryBuilder.Proofs.Schema.Lexing

set_option autoImplicit false

namespace QueryBuilder

open Lexer (escaped isName isWordPart isWordStart lexemes punctuation? skipBlanks token)
open Text (isBlank isDigit)

namespace Token

def spelling : Token → String
  | .str s => "\"" ++ String.ofList (escaped '"' s.toList) ++ "\""
  | .newline => "\n"
  | t => t.text

-- A character stands alone only where it begins nothing else.
def isSpellable : Token → Bool
  | .ident s => isName s
  | .num s => s != "" && s.toList.all isDigit
  | .other c =>
    !isBlank c && (punctuation? c).isNone && c != '"' && c != '\'' && !isDigit c && !isWordStart c
  | .eof => false
  | _ => true

end Token

def spelled (ts : List Token) : String := String.intercalate " " (ts.map Token.spelling)

namespace Lexer

variable {n : Nat} {c : Char} {rest : List Char}

theorem lexemes_number {s : String} (some : s ≠ "") (digits : ∀ c ∈ s.toList, isDigit c = true)
    (stop : ∀ x ∈ rest.head?, isDigit x = false) :
    lexemes n (s.toList ++ rest) = ⟨.num s, n⟩ :: lexemes n rest := by
  obtain ⟨c, cs, h⟩ := List.exists_cons_of_ne_nil (mt String.toList_eq_nil_iff.mp some)
  rw [h] at digits
  obtain ⟨first, inside⟩ := List.forall_mem_cons.mp digits
  obtain ⟨taken, left⟩ := span_of_stop inside stop
  have text : String.ofList (c :: cs) = s := by rw [← h, String.ofList_toList]
  have quote : ¬(c = '"' ∨ c = '\'') := by
    simp only [not_or]
    exact ⟨ne_of_class first (by decide), ne_of_class first (by decide)⟩
  rw [h, List.cons_append, lexemes_cons (.inr (Text.isBlank_of_isDigit first))
    (ne_of_class first (by decide)), if_neg (ne_of_class first (by decide))]
  simp [token, punctuation_none (by decide) first, quote, first, taken, left, text]

-- A slash in front of another one would begin a comment.
theorem skipBlanks_visible (visible : isBlank c = false) (stop : ∀ x ∈ rest.head?, x ≠ '/') :
    skipBlanks (c :: rest) = c :: rest := by
  by_cases slash : c = '/'
  · subst slash
    unfold skipBlanks
    split
    · next h => cases h; exact absurd rfl (stop '/' rfl)
    · next h => cases h; rw [visible, Bool.and_false, if_neg Bool.false_ne_true]
    · next h => cases h
  · exact skipBlanks_of_not_isBlank (.inr visible) slash

theorem lexemes_other (spellable : (Token.other c).isSpellable = true)
    (stop : ∀ x ∈ rest.head?, x ≠ '/') :
    lexemes n (c :: rest) = ⟨.other c, n⟩ :: lexemes n rest := by
  unfold Token.isSpellable at spellable
  simp only [Bool.and_eq_true, Bool.not_eq_true', Option.isNone_iff_eq_none,
    bne_iff_ne] at spellable
  obtain ⟨⟨⟨⟨⟨visible, mark⟩, double⟩, single⟩, digit⟩, word⟩ := spellable
  have newline : c ≠ '\n' := fun h => absurd (h ▸ mark) (by decide)
  rw [lexemes_of_skipBlanks (skipBlanks_visible visible stop), if_neg newline]
  simp [token, mark, double, single, digit, word]

theorem lexemes_spelling {t : Token} (spellable : t.isSpellable = true)
    (stop : ∀ x ∈ rest.head?, x = ' ') :
    lexemes n (t.spelling.toList ++ rest) =
      ⟨t, n⟩ :: lexemes (if t = .newline then n + 1 else n) rest := by
  have outside {p : Char → Bool} (blank : p ' ' = false) : ∀ x ∈ rest.head?, p x = false :=
    fun x hx => stop x hx ▸ blank
  cases t with
  | ident s => exact lexemes_word spellable (outside (by decide))
  | num s =>
    obtain ⟨some, digits⟩ := Bool.and_eq_true_iff.mp spellable
    exact lexemes_number (bne_iff_ne.mp some) (List.all_eq_true.mp digits) (outside (by decide))
  | str s =>
    have shape : (Token.str s).spelling.toList ++ rest =
        '"' :: (escaped '"' s.toList ++ '"' :: rest) := by
      simp [Token.spelling]
    rw [shape, lexemes_string (.inl rfl)]
    rfl
  | other c =>
    have alone : (Token.other c).spelling.toList = [c] := by simp [Token.spelling, Token.text]
    rw [alone]
    exact lexemes_other spellable fun x hx slash => by simp [stop x hx] at slash
  | eof => cases spellable
  | _ => exact lexemes_punctuation rfl

end Lexer

theorem toList_spelled_cons (t : Token) (ts : List Token) :
    ∃ rest, (spelled (t :: ts)).toList = t.spelling.toList ++ rest ∧
      (∀ x ∈ rest.head?, x = ' ') ∧ ∀ n, lexemes n rest = lexemes n (spelled ts).toList := by
  cases ts with
  | nil => exact ⟨[], by simp [spelled], by simp, fun n => by simp [spelled]⟩
  | cons u ts =>
    refine ⟨' ' :: (spelled (u :: ts)).toList, ?_, by simp, fun n => ?_⟩
    · simp [spelled, String.intercalate_cons_cons]
    · exact Lexer.lexemes_blank (by decide) (by decide)

theorem lexemes_spelled {ts : List Token} (spellable : ∀ t ∈ ts, t.isSpellable = true) (n : Nat) :
    lexemes n (spelled ts).toList =
      (ts ++ [Token.eof]).mapIdx fun i t => ⟨t, n + (ts.take i).count Token.newline⟩ := by
  induction ts generalizing n with
  | nil => exact Lexer.lexemes_nil
  | cons t ts ih =>
    obtain ⟨here, others⟩ := List.forall_mem_cons.mp spellable
    obtain ⟨rest, split, stop, same⟩ := toList_spelled_cons t ts
    rw [split, Lexer.lexemes_spelling here stop, same, ih others, List.cons_append,
      List.mapIdx_cons]
    congr 2
    funext i u
    simp only [List.take_succ_cons, List.count_cons, beq_iff_eq]
    split <;> grind

theorem tokenize_spelled (ts : List Token) (spellable : ∀ t ∈ ts, t.isSpellable = true) :
    tokenize (spelled ts) =
      (ts ++ [Token.eof]).mapIdx fun i t => ⟨t, 1 + (ts.take i).count Token.newline⟩ :=
  lexemes_spelled spellable 1

def clutter : List Token :=
  [.other '/', .other '/', .num "007", .ident "a1$", .newline, .str "\\ \"\n// ", .dot, .newline,
    .other '²']

theorem tokenize_clutter :
    (∀ t ∈ clutter, t.isSpellable = true) ∧
      tokenize (spelled clutter) =
        [⟨.other '/', 1⟩, ⟨.other '/', 1⟩, ⟨.num "007", 1⟩, ⟨.ident "a1$", 1⟩, ⟨.newline, 1⟩,
          ⟨.str "\\ \"\n// ", 2⟩, ⟨.dot, 2⟩, ⟨.newline, 2⟩, ⟨.other '²', 3⟩, ⟨.eof, 3⟩] := by
  have spellable : ∀ t ∈ clutter, t.isSpellable = true := by decide +kernel
  exact ⟨spellable, tokenize_spelled clutter spellable⟩

end QueryBuilder
