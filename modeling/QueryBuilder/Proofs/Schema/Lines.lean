import QueryBuilder.Proofs.Schema.Lexing

set_option autoImplicit false

namespace QueryBuilder.Lexer

open Text

variable {n m : Nat} {c d : Char} {cs ds : List Char}

theorem span_append_of_stop {α : Type} {p : α → Bool} {y : α} (stop : p y = false)
    (xs ys : List α) :
    (xs ++ y :: ys).takeWhile p = xs.takeWhile p ∧
      (xs ++ y :: ys).dropWhile p = xs.dropWhile p ++ y :: ys := by
  induction xs with
  | nil => simp [stop]
  | cons x xs ih => by_cases inside : p x <;> simp [inside, ih]

theorem getLast?_of_suffix {α : Type} {xs ys : List α} {y : α} (suffix : xs <:+ ys)
    (last : xs.getLast? = some y) : ys.getLast? = some y := by
  obtain ⟨front, rfl⟩ := suffix
  rw [List.getLast?_append, last, Option.some_or]

theorem skipBlanks_append_newline (cs ds : List Char) :
    skipBlanks (cs ++ '\n' :: ds) = skipBlanks cs ++ '\n' :: ds := by
  fun_induction skipBlanks cs with
  | case1 rest =>
    have inside := (span_append_of_stop (p := (· ≠ '\n')) (y := '\n') (by simp) rest ds).2
    rw [List.cons_append, List.cons_append, skipBlanks, inside]
  | case2 c rest _ blank ih =>
    obtain ⟨inner, blank⟩ := Bool.and_eq_true_iff.mp blank
    rw [List.cons_append, skipBlanks_of_isBlank blank (of_decide_eq_true inner), ih]
  | case3 c rest alone visible =>
    rw [List.cons_append]
    unfold skipBlanks
    split
    · next rest' h =>
      -- Two slashes begin a comment, but a new line is no slash.
      cases rest with
      | nil => cases h
      | cons x rest => cases h; exact absurd rfl (alone rest rfl)
    · next h => cases h; rw [if_neg visible]
    · next h => cases h
  | case4 => exact skipBlanks_of_not_isBlank (.inl rfl) (by decide)

theorem ne_of_unescaped {x : Char} (alone : c = x → cs = [] → False)
    (pair : ∀ d rest, c = x → cs = d :: rest → False) : c ≠ x := by
  intro same
  cases cs with
  | nil => exact alone same rfl
  | cons d rest => exact pair d rest same rfl

theorem quoted_append_newline {quote : Char}
    (closed : (quoted quote cs).2 = [] → cs.getLast? ≠ some '\\') :
    quoted quote (cs ++ '\n' :: ds) =
      ((quoted quote cs).1, (quoted quote cs).2 ++ '\n' :: ds) := by
  fun_induction quoted quote cs with
  | case1 => simp [quoted]
  | case2 => exact absurd rfl (closed rfl)
  | case3 c rest read ih =>
    have closed' : (quoted quote rest).2 = [] → rest.getLast? ≠ some '\\' := by
      intro done last
      exact closed done (getLast?_of_suffix (List.suffix_append ['\\', c] rest) last)
    rw [List.cons_append, List.cons_append, quoted, ih closed']
  | case4 rest => simp [quoted]
  | case5 rest alone pair line =>
    have plain : quote ≠ '\\' := ne_of_unescaped alone pair
    simp [quoted, plain, line]
  | case6 c rest alone pair line other read ih =>
    have plain : c ≠ '\\' := ne_of_unescaped alone pair
    have closed' : (quoted quote rest).2 = [] → rest.getLast? ≠ some '\\' := by
      intro done last
      exact closed done (getLast?_of_suffix (List.suffix_cons c rest) last)
    simp [quoted, plain, line, other, ih closed', read]

theorem token_append_newline
    (closed : (token c cs).2 = [] → (∃ v, (token c cs).1 = .str v) → cs.getLast? ≠ some '\\') :
    token c (cs ++ '\n' :: ds) = ((token c cs).1, (token c cs).2 ++ '\n' :: ds) := by
  have digits := span_append_of_stop (p := isDigit) (y := '\n') (by decide) cs ds
  have word := span_append_of_stop (p := isWordPart) (y := '\n') (by decide) cs ds
  cases mark : punctuation? c with
  | some t => simp [token, mark]
  | none =>
    by_cases quote : c = '"' ∨ c = '\''
    · have read : token c cs = (.str (String.ofList (quoted c cs).1), (quoted c cs).2) := by
        simp [token, mark, quote]
      rw [read] at closed ⊢
      simp [token, mark, quote, quoted_append_newline fun done => closed done ⟨_, rfl⟩]
    · simp only [token, mark, if_neg quote, digits, word]
      split
      · rfl
      · split <;> rfl

theorem exists_lexemes (n : Nat) (cs : List Char) :
    ∃ front m, lexemes n cs = front ++ [⟨.eof, m⟩] ∧ ∀ l ∈ front, l.token ≠ .eof := by
  fun_induction lexemes n cs with
  | case1 n cs h => exact ⟨[], n, rfl, by simp⟩
  | case2 n cs c rest h ih =>
    obtain ⟨front, m, same, inner⟩ := ih
    refine ⟨⟨(token c rest).1, n⟩ :: front, m, congrArg (List.cons _) same, ?_⟩
    exact List.forall_mem_cons.mpr ⟨token_ne_eof c rest, inner⟩

-- The text does not end inside a string, behind a backslash.
def Closed (cs : List Char) (ls : List Lexeme) : Prop :=
  cs.getLast? = some '\\' → ∀ l ∈ ls.getLast?, ∀ v, l.token ≠ .str v

theorem Closed.tail {l : Lexeme} {ls : List Lexeme} (closed : Closed cs (l :: ls))
    (suffix : ds <:+ cs) : Closed ds ls := by
  intro last x hx
  exact closed (getLast?_of_suffix suffix last) x (getLast?_of_suffix (List.suffix_cons l ls) hx)

theorem Closed.token_append_newline {rest : List Char} {front : List Lexeme} {k : Nat}
    (closed : Closed cs (⟨(token c rest).1, k⟩ :: front)) (suffix : rest <:+ cs)
    (others : lexemes n (token c rest).2 = front ++ [⟨.eof, m⟩]) :
    token c (rest ++ '\n' :: ds) = ((token c rest).1, (token c rest).2 ++ '\n' :: ds) := by
  refine Lexer.token_append_newline ?_
  intro nothing ⟨v, text⟩ last
  -- A token that takes all the rest is the last one.
  rw [nothing, lexemes_nil] at others
  cases front with
  | nil => exact closed (getLast?_of_suffix suffix last) _ rfl v text
  | cons l front => simp at others

theorem lexemes_append_newline {front : List Lexeme} (lexed : lexemes n cs = front ++ [⟨.eof, m⟩])
    (closed : Closed cs front) (ds : List Char) :
    lexemes n (cs ++ '\n' :: ds) = front ++ ⟨.newline, m⟩ :: lexemes (m + 1) ds := by
  induction front generalizing n cs with
  | nil =>
    cases bare : skipBlanks cs with
    | nil =>
      rw [lexemes_of_bare bare] at lexed
      cases lexed
      have behind := skipBlanks_append_newline cs ds
      rw [bare] at behind
      exact lexemes_of_skipBlanks behind
    | cons c rest =>
      rw [lexemes_of_skipBlanks bare] at lexed
      exact absurd (congrArg Lexeme.token (List.cons.inj lexed).1) (token_ne_eof c rest)
  | cons l front ih =>
    cases bare : skipBlanks cs with
    | nil =>
      rw [lexemes_of_bare bare] at lexed
      simp at lexed
    | cons c rest =>
      rw [lexemes_of_skipBlanks bare] at lexed
      obtain ⟨rfl, others⟩ := List.cons.inj lexed
      have tail : rest <:+ cs := (List.suffix_cons c rest).trans (bare ▸ skipBlanks_suffix cs)
      have behind := skipBlanks_append_newline cs ds
      rw [bare, List.cons_append] at behind
      rw [lexemes_of_skipBlanks behind, closed.token_append_newline tail others]
      exact congrArg (List.cons _) (ih others (closed.tail ((token_suffix c rest).trans tail)))

theorem eq_of_punctuation {t : Token} (hc : punctuation? c = some t)
    (hd : punctuation? d = some t) : c = d := by
  have inj : punctuation.all (fun c => punctuation.all fun d =>
      punctuation? c != punctuation? d || c == d) = true := by decide
  have here := List.all_eq_true.mp (List.all_eq_true.mp inj c (mem_punctuation hc)) d
    (mem_punctuation hd)
  simpa [hc, hd] using here

theorem eq_of_token {rest : List Char} (mark : punctuation? c = some (token d rest).1) : d = c := by
  unfold token at mark
  split at mark
  · next t h => exact eq_of_punctuation h mark
  · -- No other token is a mark of punctuation.
    unfold punctuation? at mark
    split at mark <;> grind

theorem mem_of_mem_lexemes {l : Lexeme} (mark : punctuation? c = some l.token)
    (h : l ∈ lexemes n cs) : c ∈ cs := by
  fun_induction lexemes n cs with
  | case1 n cs nothing =>
    cases List.mem_singleton.mp h
    unfold punctuation? at mark
    split at mark <;> cases mark
  | case2 n cs d rest here ih =>
    have inside : ∀ x ∈ d :: rest, x ∈ cs := fun x hx => (skipBlanks_suffix cs).subset (here ▸ hx)
    rcases List.mem_cons.mp h with rfl | h
    · exact eq_of_token mark ▸ inside d List.mem_cons_self
    · exact inside c (List.mem_cons_of_mem _ ((token_suffix d rest).subset (ih h)))

theorem token_ne_of_not_mem {t : Token} (mark : punctuation? c = some t) (outside : c ∉ cs) :
    ∀ l ∈ lexemes n cs, l.token ≠ t :=
  fun _ hl same => outside (mem_of_mem_lexemes (same ▸ mark) hl)

end QueryBuilder.Lexer
