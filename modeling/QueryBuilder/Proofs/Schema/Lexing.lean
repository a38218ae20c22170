import QueryBuilder.Schema.Lexer

set_option autoImplicit false

namespace QueryBuilder

theorem span_of_stop {α : Type} {p : α → Bool} {front rest : List α} (inside : ∀ x ∈ front, p x)
    (stop : ∀ x ∈ rest.head?, p x = false) :
    (front ++ rest).takeWhile p = front ∧ (front ++ rest).dropWhile p = rest := by
  rw [List.takeWhile_append_of_pos inside, List.dropWhile_append_of_pos inside]
  cases rest with
  | nil => simp
  | cons x rest => simp [stop x rfl]

namespace Text

theorem inRanges_apart {xs ys : List (Nat × Nat)} {c : Char}
    (apart : xs.all (fun x => ys.all fun y => Nat.blt x.2 y.1 || Nat.blt y.2 x.1) = true)
    (h : inRanges xs c = true) : inRanges ys c = false := by
  simp only [inRanges, List.any_eq_true, Bool.and_eq_true, decide_eq_true_eq] at h
  obtain ⟨x, hx, low, high⟩ := h
  simp only [inRanges, List.any_eq_false, Bool.and_eq_true, decide_eq_true_eq, not_and]
  intro y hy hle
  have here := List.all_eq_true.mp (List.all_eq_true.mp apart x hx) y hy
  simp only [Bool.or_eq_true, Nat.blt_eq] at here
  omega

theorem isBlank_of_isAlphabetic {c : Char} (h : isAlphabetic c = true) : isBlank c = false := by
  by_cases ascii : c.toNat < 128
  · rw [isAlphabetic, if_pos ascii] at h
    have letter : inRanges [(65, 90), (97, 122)] c = true := by
      simp only [isAsciiLetter, Bool.or_eq_true, Bool.and_eq_true, decide_eq_true_eq] at h
      simp only [inRanges, List.any_cons, List.any_nil, Bool.or_false, Bool.or_eq_true,
        Bool.and_eq_true, decide_eq_true_eq]
      exact h.symm
    exact inRanges_apart (by decide) letter
  · rw [isAlphabetic, if_neg ascii] at h
    exact inRanges_apart (by decide +kernel) h

theorem isBlank_of_isDigit {c : Char} (digit : isDigit c = true) : isBlank c = false := by
  simp only [isDigit, Bool.and_eq_true, decide_eq_true_eq, Char.le_def,
    UInt32.le_iff_toNat_le] at digit
  have digits : inRanges [(48, 57)] c = true := by
    simpa [inRanges] using And.intro digit.1 digit.2
  exact inRanges_apart (by decide) digits

end Text

namespace Lexer

open Text

def punctuation : List Char := ['\n', '{', '}', '(', ')', '[', ']', ',', ':', '.', '>', '<']

theorem mem_punctuation {c : Char} {t : Token} (h : punctuation? c = some t) :
    c ∈ punctuation := by
  unfold punctuation? at h
  split at h <;> first | decide | cases h

theorem punctuation_none {p : Char → Bool} {c : Char} (none : punctuation.all (!p ·) = true)
    (h : p c = true) : punctuation? c = .none := by
  cases hp : punctuation? c with
  | none => rfl
  | some t => simpa [h] using List.all_eq_true.mp none c (mem_punctuation hp)

theorem isDigit_of_isWordStart {c : Char} (h : isWordStart c = true) : isDigit c = false := by
  rw [← Bool.not_eq_true]
  intro digit
  simp only [isDigit, Bool.and_eq_true, decide_eq_true_eq] at digit
  have low : 48 ≤ c.toNat := digit.1
  have high : c.toNat ≤ 57 := digit.2
  simp only [isWordStart, Bool.or_eq_true, beq_iff_eq] at h
  rcases h with h | rfl
  · rw [isAlphabetic, if_pos (by omega)] at h
    simp only [isAsciiLetter, Bool.or_eq_true, Bool.and_eq_true, decide_eq_true_eq] at h
    have letter : 97 ≤ c.toNat ∧ c.toNat ≤ 122 ∨ 65 ≤ c.toNat ∧ c.toNat ≤ 90 := h
    omega
  · exact absurd high (by decide)

theorem isBlank_of_isWordStart {c : Char} (h : isWordStart c = true) : isBlank c = false := by
  simp only [isWordStart, Bool.or_eq_true, beq_iff_eq] at h
  rcases h with h | rfl
  · exact isBlank_of_isAlphabetic h
  · decide

theorem ne_of_class {p : Char → Bool} {c d : Char} (h : p c = true) (hd : p d = false) :
    c ≠ d := by
  intro same
  rw [same, hd] at h
  cases h

variable {n : Nat} {c : Char} {cs rest : List Char}

theorem skipBlanks_of_isBlank (blank : isBlank c = true) (inner : c ≠ '\n') :
    skipBlanks (c :: cs) = skipBlanks cs := by
  have slash : c ≠ '/' := by
    intro same
    rw [same] at blank
    revert blank
    decide
  conv => lhs; unfold skipBlanks
  split
  · next h => cases h; exact absurd rfl slash
  · next h => cases h; rw [if_pos (by simp [blank, inner])]
  · next h => cases h

theorem skipBlanks_of_not_isBlank (h : c = '\n' ∨ isBlank c = false) (slash : c ≠ '/') :
    skipBlanks (c :: cs) = c :: cs := by
  conv => lhs; unfold skipBlanks
  split
  · next h => cases h; exact absurd rfl slash
  · next h' =>
    cases h'
    rw [if_neg]
    rcases h with h | h <;> simp [h]
  · next h => cases h

theorem lexemes_of_bare (h : skipBlanks cs = []) : lexemes n cs = [⟨.eof, n⟩] := by
  rw [lexemes]
  split
  · rfl
  · next h' => rw [h] at h'; cases h'

theorem lexemes_of_skipBlanks (h : skipBlanks cs = c :: rest) :
    lexemes n cs =
      ⟨(token c rest).1, n⟩ :: lexemes (if c = '\n' then n + 1 else n) (token c rest).2 := by
  conv => lhs; rw [lexemes]
  split
  · next h' => rw [h] at h'; cases h'
  · next h' => rw [h] at h'; cases h'; rfl

theorem lexemes_nil : lexemes n [] = [⟨.eof, n⟩] := lexemes_of_bare rfl

theorem lexemes_blank (blank : isBlank c = true) (inner : c ≠ '\n') :
    lexemes n (c :: cs) = lexemes n cs := by
  conv => lhs; rw [lexemes]
  conv => rhs; rw [lexemes]
  rw [skipBlanks_of_isBlank blank inner]

theorem lexemes_cons (h : c = '\n' ∨ isBlank c = false) (slash : c ≠ '/') :
    lexemes n (c :: cs) =
      ⟨(token c cs).1, n⟩ :: lexemes (if c = '\n' then n + 1 else n) (token c cs).2 :=
  lexemes_of_skipBlanks (skipBlanks_of_not_isBlank h slash)

theorem lexemes_punctuation {t : Token} (h : punctuation? c = some t) :
    lexemes n (c :: cs) = ⟨t, n⟩ :: lexemes (if c = '\n' then n + 1 else n) cs := by
  have solid : punctuation.all (fun x => (x == '\n' || !isBlank x) && x != '/') = true := by decide
  have here := List.all_eq_true.mp solid c (mem_punctuation h)
  simp only [Bool.and_eq_true, Bool.or_eq_true, beq_iff_eq, Bool.not_eq_true', bne_iff_ne] at here
  obtain ⟨visible, slash⟩ := here
  rw [lexemes_cons visible slash]
  simp [token, h]

def isName (s : String) : Bool :=
  match s.toList with
  | [] => false
  | c :: rest => isWordStart c && rest.all isWordPart

theorem toList_of_isName {s : String} (name : isName s = true) :
    ∃ c word, s.toList = c :: word ∧ isWordStart c = true ∧ ∀ x ∈ word, isWordPart x = true := by
  unfold isName at name
  split at name
  · cases name
  · next c word h =>
    obtain ⟨start, inside⟩ := Bool.and_eq_true_iff.mp name
    exact ⟨c, word, h, start, List.all_eq_true.mp inside⟩

theorem isWordPart_of_isWordStart (h : isWordStart c = true) : isWordPart c = true := by
  simp only [isWordStart, Bool.or_eq_true] at h
  simp only [isWordPart, Bool.or_eq_true]
  refine .inl (h.imp_left ?_)
  unfold isAlphabetic isAlphanumeric
  split <;> simp +contextual

theorem isWordPart_of_isName {s : String} (name : isName s = true) :
    ∀ x ∈ s.toList, isWordPart x = true := by
  obtain ⟨c, word, h, start, inside⟩ := toList_of_isName name
  rw [h]
  intro x hx
  rcases List.mem_cons.mp hx with rfl | hx
  · exact isWordPart_of_isWordStart start
  · exact inside x hx

-- A word ends where no further character belongs to it.
theorem lexemes_word {s : String} (name : isName s = true)
    (stop : ∀ x ∈ rest.head?, isWordPart x = false) :
    lexemes n (s.toList ++ rest) = ⟨.ident s, n⟩ :: lexemes n rest := by
  obtain ⟨c, word, h, start, inside⟩ := toList_of_isName name
  obtain ⟨taken, left⟩ := span_of_stop inside stop
  have text : String.ofList (c :: word) = s := by rw [← h, String.ofList_toList]
  have quote : ¬(c = '"' ∨ c = '\'') := by
    simp only [not_or]
    exact ⟨ne_of_class start (by decide), ne_of_class start (by decide)⟩
  rw [h, List.cons_append, lexemes_cons (.inr (isBlank_of_isWordStart start))
    (ne_of_class start (by decide)), if_neg (ne_of_class start (by decide))]
  simp [token, punctuation_none (by decide) start, quote, isDigit_of_isWordStart start, start,
    taken, left, text]

def escaped (quote : Char) : List Char → List Char
  | [] => []
  | c :: cs =>
    if c = '\n' then '\\' :: 'n' :: escaped quote cs
    else if c = '\\' ∨ c = quote then '\\' :: c :: escaped quote cs
    else c :: escaped quote cs

theorem quoted_escaped {quote : Char} (sign : quote = '"' ∨ quote = '\'') (value : List Char) :
    quoted quote (escaped quote value ++ quote :: rest) = (value, rest) := by
  have slash : quote ≠ '\\' := by rcases sign with rfl | rfl <;> decide
  have newline : quote ≠ '\n' := by rcases sign with rfl | rfl <;> decide
  have plain : unescape quote = quote := by rcases sign with rfl | rfl <;> rfl
  induction value with
  | nil => simp [escaped, quoted, slash, newline]
  | cons c cs ih =>
    by_cases line : c = '\n'
    · subst line
      simp [escaped, quoted, ih, unescape]
    by_cases back : c = '\\'
    · subst back
      simp [escaped, quoted, ih, unescape]
    by_cases same : c = quote
    · subst same
      simp [escaped, quoted, ih, line, plain]
    · simp [escaped, quoted, ih, line, back, same]

theorem lexemes_string {quote : Char} (sign : quote = '"' ∨ quote = '\'') (s : String) :
    lexemes n (quote :: (escaped quote s.toList ++ quote :: rest)) =
      ⟨.str s, n⟩ :: lexemes n rest := by
  have solid : isBlank quote = false ∧ quote ≠ '/' ∧ quote ≠ '\n' ∧ punctuation? quote = none := by
    rcases sign with rfl | rfl <;> decide
  obtain ⟨blank, slash, newline, none⟩ := solid
  rw [lexemes_cons (.inr blank) slash, if_neg newline]
  simp [token, none, sign, quoted_escaped sign]

theorem token_ne_eof (c : Char) (cs : List Char) : (token c cs).1 ≠ .eof := by
  unfold token
  split
  · next t h =>
    unfold punctuation? at h
    split at h <;> cases h <;> simp
  · split
    · simp
    · split
      · simp
      · split <;> simp

end Lexer

-- The end token stands at the end and nowhere else.
def Terminated : List Token → Prop
  | [] => False
  | t :: ts => if t = .eof then ts = [] else Terminated ts

theorem terminated_of_append {us ts : List Token} {t : Token}
    (h : Terminated (us ++ t :: ts)) (inner : t ≠ .eof) : Terminated ts := by
  induction us with
  | nil => simpa [Terminated, inner] using h
  | cons u us ih =>
    by_cases last : u = .eof
    · simp [Terminated, last] at h
    · exact ih (by simpa [Terminated, last] using h)

theorem terminated_lexemes (n : Nat) (cs : List Char) :
    Terminated ((Lexer.lexemes n cs).map (·.token)) := by
  fun_induction Lexer.lexemes n cs with
  | case1 n cs h => simp [Terminated]
  | case2 n cs c rest h ih => simpa [Terminated, Lexer.token_ne_eof] using ih

end QueryBuilder
