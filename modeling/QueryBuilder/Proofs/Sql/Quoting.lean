import QueryBuilder.Proofs.Schema.Lexing
import QueryBuilder.Sql.Expression

set_option autoImplicit false

namespace QueryBuilder.Sql

def isWordStart (c : Char) : Bool := Text.isAsciiLetter c || c == '_'

def isWordPart (c : Char) : Bool := Text.isAsciiLetter c || Text.isDigit c || c == '_'

-- The text up to the quote that closes it, in which two quotes stand for one, and what follows.
def quoted? (quote : Char) : List Char → Option (List Char × List Char)
  | [] => none
  | c :: rest =>
    if c = quote then
      match rest with
      | [] => some ([], [])
      | d :: rest =>
        if d = quote then (quoted? quote rest).map fun r => (quote :: r.1, r.2)
        else some ([], d :: rest)
    else (quoted? quote rest).map fun r => (c :: r.1, r.2)

def between? (quote : Char) : List Char → Option (String × List Char)
  | [] => none
  | c :: rest =>
    if c = quote then (quoted? quote rest).map fun r => (String.ofList r.1, r.2) else none

def word? : List Char → Option (String × List Char)
  | [] => none
  | c :: rest =>
    if isWordStart c then
      some (String.ofList (c :: rest.takeWhile isWordPart), rest.dropWhile isWordPart)
    else none

def Dialect.name? (d : Dialect) (cs : List Char) : Option (String × List Char) :=
  between? d.quoteChar cs <|> word? cs

def Dialect.column? (d : Dialect) (cs : List Char) : Option (FieldKey × List Char) :=
  match d.name? cs with
  | some (entity, '.' :: rest) => (d.name? rest).map fun r => (⟨entity, r.1⟩, r.2)
  | _ => none

def text? (cs : List Char) : Option (String × List Char) := between? '\'' cs

def IsWord (s : String) : Prop :=
  ∃ c word, s.toList = c :: word ∧ isWordStart c = true ∧ ∀ x ∈ word, isWordPart x = true

-- Whether a name, as it is written, ends in front of a text.
def Dialect.Ends (d : Dialect) (name : String) (rest : List Char) : Prop :=
  if d.quoteIdent name = name then ∀ c ∈ rest.head?, isWordPart c = false
  else rest.head? ≠ some d.quoteChar

section

variable {quote c : Char} {s : String} {rest : List Char}

theorem quoted_of_ne (other : c ≠ quote) :
    quoted? quote (c :: rest) = (quoted? quote rest).map fun r => (c :: r.1, r.2) := by
  cases rest <;> simp [quoted?, other]

theorem quoted_close :
    quoted? quote (quote :: rest) = some ([], rest) ↔ rest.head? ≠ some quote := by
  cases rest with
  | nil => simp [quoted?]
  | cons c rest => by_cases same : c = quote <;> simp [quoted?, same]

-- The induction is on the name: a pair of quotes is read as the one character that it stands for.
theorem quoted_doubled (cs : List Char) :
    quoted? quote (doubled quote cs ++ quote :: rest) = some (cs, rest) ↔
      rest.head? ≠ some quote := by
  induction cs with
  | nil => exact quoted_close
  | cons c cs ih =>
    by_cases same : c = quote
    · simp [doubled, quoted?, same, ih]
    · simp [doubled, quoted_of_ne same, same, ih]

theorem toList_enquote (quote : Char) (s : String) :
    (enquote quote s).toList = quote :: (doubled quote s.toList ++ [quote]) := by
  simp [enquote]

theorem between_enquote :
    between? quote ((enquote quote s).toList ++ rest) = some (s, rest) ↔
      rest.head? ≠ some quote := by
  have text : (enquote quote s).toList ++ rest =
      quote :: (doubled quote s.toList ++ quote :: rest) := by simp [toList_enquote]
  rw [text, ← quoted_doubled s.toList]
  simp [between?, ← String.toList_inj, Prod.ext_iff]

theorem length_le_doubled (quote : Char) (cs : List Char) :
    cs.length ≤ (doubled quote cs).length := by
  induction cs with
  | nil => exact Nat.le_refl _
  | cons c cs ih => by_cases same : c = quote <;> simp [doubled, same] <;> omega

theorem enquote_ne (quote : Char) (s : String) : enquote quote s ≠ s := by
  intro same
  have length := congrArg (List.length ∘ String.toList) same
  have bound := length_le_doubled quote s.toList
  simp only [Function.comp_apply, toList_enquote, List.length_cons, List.length_append] at length
  omega

end

section

variable {name : String} {c : Char} {word rest : List Char}

theorem isWord_of_isPlain (plain : isPlain name = true) : IsWord name := by
  unfold isPlain at plain
  cases text : name.toList with
  | nil => simp [text] at plain
  | cons c word =>
    simp only [text] at plain
    obtain ⟨start, inside⟩ := Bool.and_eq_true_iff.mp plain
    exact ⟨c, word, text, start, List.all_eq_true.mp inside⟩

theorem word_append (inside : ∀ x ∈ word, isWordPart x = true) (start : isWordStart c = true) :
    word? (c :: word ++ rest) = some (String.ofList (c :: word), rest) ↔
      ∀ x ∈ rest.head?, isWordPart x = false := by
  rw [List.cons_append, word?, if_pos start, List.takeWhile_append_of_pos inside,
    List.dropWhile_append_of_pos inside]
  cases rest with
  | nil => simp
  | cons x rest => cases part : isWordPart x <;> simp [part]

theorem between_of_ne {quote : Char} (other : c ≠ quote) : between? quote (c :: rest) = none := by
  rw [between?, if_neg other]

theorem quoteChar_ne (d : Dialect) (start : isWordStart c = true) : c ≠ d.quoteChar := by
  rintro rfl
  revert start
  cases d <;> decide

theorem word_quoteChar (d : Dialect) : word? (d.quoteChar :: rest) = none := by
  rw [word?, if_neg]
  cases d <;> decide

end

namespace Dialect

variable {d : Dialect} {name : String} {rest : List Char}

theorem quoteIdent_cases (d : Dialect) (name : String) :
    d.quoteIdent name = name ∧ IsWord name ∧ Text.lower name ∉ reserved ∨
      d.quoteIdent name = enquote d.quoteChar name := by
  unfold quoteIdent
  split
  · next bare =>
    obtain ⟨plain, free⟩ := Bool.and_eq_true_iff.mp bare
    exact .inl ⟨rfl, isWord_of_isPlain plain, by simpa [isReserved] using free⟩
  · exact .inr rfl

theorem name_quoteIdent :
    d.name? ((d.quoteIdent name).toList ++ rest) = some (name, rest) ↔ d.Ends name rest := by
  unfold Ends name?
  rcases quoteIdent_cases d name with ⟨bare, ⟨c, word, text, start, inside⟩, -⟩ | quotes
  · have whole : String.ofList (c :: word) = name := by rw [← text, String.ofList_toList]
    rw [if_pos bare, bare, text, List.cons_append, between_of_ne (quoteChar_ne d start),
      ← word_append inside start, whole]
    rfl
  · have shown : d.quoteIdent name ≠ name := quotes ▸ enquote_ne d.quoteChar name
    have none : word? ((enquote d.quoteChar name).toList ++ rest) = none := by
      rw [toList_enquote, List.cons_append, word_quoteChar]
    rw [if_neg shown, quotes, none, ← between_enquote (s := name)]
    simp

-- A dot neither closes a quote nor belongs to a word.
theorem ends_dot (d : Dialect) (name : String) (rest : List Char) : d.Ends name ('.' :: rest) := by
  unfold Ends
  split
  · intro c same
    cases same
    decide
  · cases d <;> simp [quoteChar]

theorem ends_nil (d : Dialect) (name : String) : d.Ends name [] := by
  unfold Ends
  split <;> simp

theorem column_columnText {k : FieldKey} :
    d.column? ((columnText d k).toList ++ rest) = some (k, rest) ↔ d.Ends k.field rest := by
  have text : (columnText d k).toList ++ rest =
      (d.quoteIdent k.entity).toList ++ '.' :: ((d.quoteIdent k.field).toList ++ rest) := by
    simp [columnText]
  have entity := name_quoteIdent.mpr
    (ends_dot d k.entity ((d.quoteIdent k.field).toList ++ rest))
  have field : d.name? ((d.quoteIdent k.field).toList ++ rest) = some (k.field, rest) ↔
      d.Ends k.field rest := name_quoteIdent
  rw [text, column?, entity, ← field]
  obtain ⟨entity, field⟩ := k
  simp [Prod.ext_iff]

theorem columnText_injective (d : Dialect) : Function.Injective (columnText d) := by
  intro k k' same
  have read (k : FieldKey) : d.column? (columnText d k).toList = some (k, []) := by
    simpa using column_columnText.mpr (ends_nil d k.field)
  have both := read k
  rw [same, read k'] at both
  cases both
  rfl

end Dialect

structure Dialect.QuotesFaithfully (d : Dialect) : Prop where
  -- A name is read back exactly where it ends.
  name : ∀ name rest,
    d.name? ((d.quoteIdent name).toList ++ rest) = some (name, rest) ↔ d.Ends name rest
  bare : ∀ name, (d.quoteIdent name).toList.head? ≠ some d.quoteChar →
    d.quoteIdent name = name ∧ IsWord name ∧ Text.lower name ∉ reserved
  column : ∀ k rest,
    d.column? ((columnText d k).toList ++ rest) = some (k, rest) ↔ d.Ends k.field rest
  distinct : Function.Injective (columnText d)
  text : ∀ s rest,
    text? ((stringLiteral s).toList ++ rest) = some (s, rest) ↔ rest.head? ≠ some '\''

theorem quoting_faithful (d : Dialect) : d.QuotesFaithfully where
  name _ _ := Dialect.name_quoteIdent
  bare name unquoted := by
    rcases d.quoteIdent_cases name with word | quotes
    · exact word
    · rw [quotes, toList_enquote] at unquoted
      exact absurd rfl unquoted
  column _ _ := Dialect.column_columnText
  distinct := d.columnText_injective
  text _ _ := between_enquote

-- A word that another letter follows is another word, so no reader at all could tell where it ends.
theorem unended_word_unreadable :
    Dialect.name? .generic ((Dialect.quoteIdent .generic "a").toList ++ ['b']) =
        some ("ab", []) ∧
      ¬∃ read : List Char → Option (String × List Char), ∀ name rest,
        rest.head? ≠ some (Dialect.quoteChar .generic) →
          read ((Dialect.quoteIdent .generic name).toList ++ rest) = some (name, rest) := by
  refine ⟨by decide +kernel, ?_⟩
  rintro ⟨read, faithful⟩
  have short := faithful "a" ['b'] (by decide)
  have long := faithful "ab" [] (by decide)
  have same : (Dialect.quoteIdent .generic "a").toList ++ ['b'] =
      (Dialect.quoteIdent .generic "ab").toList ++ [] := by decide +kernel
  rw [same, long] at short
  exact absurd short (by decide)

end QueryBuilder.Sql
