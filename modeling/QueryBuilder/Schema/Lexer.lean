import QueryBuilder.Schema.Token

set_option autoImplicit false

namespace QueryBuilder.Lexer

open Text

def isWordStart (c : Char) : Bool := isAlphabetic c || c == '_'

def isWordPart (c : Char) : Bool := isAlphanumeric c || c == '_' || c == '$'

def skipBlanks : List Char → List Char
  | '/' :: '/' :: rest => rest.dropWhile (· ≠ '\n')
  | c :: rest => if c ≠ '\n' && isBlank c then skipBlanks rest else c :: rest
  | [] => []

def unescape : Char → Char
  | 'n' => '\n'
  | 't' => '\t'
  | c => c

def quoted (quote : Char) : List Char → List Char × List Char
  | [] => ([], [])
  | '\\' :: [] => ([], [])
  | '\\' :: c :: rest =>
    -- A backslash takes the next character with it, also a quote or the end of a line.
    let r := quoted quote rest
    (unescape c :: r.1, r.2)
  | c :: rest =>
    if c = '\n' then ([], c :: rest)
    else if c = quote then ([], rest)
    else
      let r := quoted quote rest
      (c :: r.1, r.2)

def punctuation? : Char → Option Token
  | '\n' => some .newline
  | '{' => some .lbrace
  | '}' => some .rbrace
  | '(' => some .lparen
  | ')' => some .rparen
  | '[' => some .lbracket
  | ']' => some .rbracket
  | ',' => some .comma
  | ':' => some .colon
  | '.' => some .dot
  | '>' => some .gt
  | '<' => some .lt
  | _ => none

def token (c : Char) (rest : List Char) : Token × List Char :=
  match punctuation? c with
  | some t => (t, rest)
  | none =>
    if c = '"' ∨ c = '\'' then
      let r := quoted c rest
      (.str (String.ofList r.1), r.2)
    else if isDigit c then
      (.num (String.ofList (c :: rest.takeWhile isDigit)), rest.dropWhile isDigit)
    else if isWordStart c then
      (.ident (String.ofList (c :: rest.takeWhile isWordPart)), rest.dropWhile isWordPart)
    else (.other c, rest)

theorem length_dropWhile_le {α : Type} (p : α → Bool) (xs : List α) :
    (xs.dropWhile p).length ≤ xs.length :=
  (List.dropWhile_suffix p).length_le

theorem skipBlanks_suffix (cs : List Char) : skipBlanks cs <:+ cs := by
  fun_induction skipBlanks cs with
  | case1 rest =>
    exact (List.dropWhile_suffix _).trans ((List.suffix_cons _ _).trans (List.suffix_cons _ _))
  | case2 c rest _ _ ih => exact ih.trans (List.suffix_cons _ _)
  | case3 => exact List.suffix_refl _
  | case4 => exact List.suffix_refl _

theorem quoted_suffix (quote : Char) (cs : List Char) : (quoted quote cs).2 <:+ cs := by
  fun_induction quoted quote cs with
  | case1 => exact List.suffix_refl _
  | case2 => exact List.nil_suffix
  | case3 c rest _ ih => exact ih.trans ((List.suffix_cons _ _).trans (List.suffix_cons _ _))
  | case4 => exact List.suffix_refl _
  | case5 => exact List.suffix_cons _ _
  | case6 c rest _ _ _ _ _ ih => exact ih.trans (List.suffix_cons _ _)

theorem token_suffix (c : Char) (rest : List Char) : (token c rest).2 <:+ rest := by
  unfold token
  split
  · exact List.suffix_refl _
  · split
    · exact quoted_suffix c rest
    · split
      · exact List.dropWhile_suffix _
      · split
        · exact List.dropWhile_suffix _
        · exact List.suffix_refl _

theorem length_skipBlanks_le (cs : List Char) : (skipBlanks cs).length ≤ cs.length :=
  (skipBlanks_suffix cs).length_le

theorem length_token_le (c : Char) (rest : List Char) :
    (token c rest).2.length ≤ rest.length :=
  (token_suffix c rest).length_le

def lexemes (line : Nat) (cs : List Char) : List Lexeme :=
  match h : skipBlanks cs with
  | [] => [⟨.eof, line⟩]
  | c :: rest =>
    ⟨(token c rest).1, line⟩ :: lexemes (if c = '\n' then line + 1 else line) (token c rest).2
termination_by cs.length
decreasing_by
  have h₁ := length_skipBlanks_le cs
  have h₂ := length_token_le c rest
  rw [h] at h₁
  simp only [List.length_cons] at h₁
  omega

end QueryBuilder.Lexer

namespace QueryBuilder

def tokenize (source : String) : List Lexeme := Lexer.lexemes 1 source.toList

end QueryBuilder
