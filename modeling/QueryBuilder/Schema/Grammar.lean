import QueryBuilder.Schema.Basic
import QueryBuilder.Schema.Reading

set_option autoImplicit false

namespace QueryBuilder

namespace Reader

def lineEnds : List Token := [.newline, .eof]

def fieldEnds : List Token := [.newline, .comma, .rbrace, .eof]

def valueEnds : List Token := [.comma, .rbracket, .newline, .eof]

def argumentEnds : List Token := [.rparen, .newline, .eof]

def pointsLeft : Reader Bool
  | ⟨.gt, _⟩ :: rest => .done false rest
  | ⟨.lt, _⟩ :: rest => .done true rest
  | ts => fail .arrow ts

def relationshipFrom (leftEntity : String) : Reader Relationship := do
  symbol .dot .dot
  let leftField ← name .fieldName
  let left ← pointsLeft
  let rightEntity ← name .entityName
  symbol .dot .dot
  let rightField ← name .fieldName
  before lineEnds .lineEnd
  return if left then ⟨rightEntity, rightField, leftEntity, leftField⟩
    else ⟨leftEntity, leftField, rightEntity, rightField⟩

-- The rest of a metadata list whose opening bracket and first `items` have been read.
def metadataItems (items : List (String × String)) : Reader (List (String × String))
  | ⟨.rbracket, _⟩ :: rest => .done items rest
  | ⟨.ident key, _⟩ :: ⟨.colon, _⟩ :: rest =>
    let item := (key, textBefore valueEnds rest)
    match _h : dropBefore valueEnds rest with
    | ⟨.comma, _⟩ :: after => metadataItems (items ++ [item]) after
    | ⟨.rbracket, _⟩ :: after => .done (items ++ [item]) after
    | after => fail .closeBracket after
  | ⟨.ident _, _⟩ :: rest => fail .colon rest
  | ts => fail .metadataKey ts
termination_by ts => ts.length
decreasing_by
  have := length_dropBefore_le valueEnds rest
  rw [_h] at this
  simp only [List.length_cons] at *
  omega

def metadata : Reader (List (String × String))
  | ⟨.lbracket, _⟩ :: rest => metadataItems [] rest
  | ts => .done [] ts

-- The brace that opens an entity may stand on a later line.
def openBrace : Reader Unit := fun ts =>
  match ts.dropWhile (isOneOf [.newline]) with
  | ⟨.lbrace, _⟩ :: rest => .done () rest
  | _ => fail .openBrace ts

def entityHead : Reader (List (String × String)) := do
  let items ← metadata
  openBrace
  return items

def typeArguments : Reader String
  | ⟨.lparen, _⟩ :: rest =>
    match dropBefore argumentEnds rest with
    | ⟨.rparen, _⟩ :: after => .done ("(" ++ textBefore argumentEnds rest ++ ")") after
    | after => fail .closeParen after
  | ts => .done "" ts

def arraySuffix : Reader String
  | ⟨.lbracket, _⟩ :: ⟨.rbracket, _⟩ :: rest => .done "[]" rest
  | ts => .done "" ts

def fieldType : Reader String := do
  let word ← name .fieldType
  let arguments ← typeArguments
  let suffix ← arraySuffix
  return word ++ arguments ++ suffix

def isWord (l : Lexeme) : Bool :=
  match l.token with
  | .ident _ => true
  | _ => false

def isKeyMark (l : Lexeme) : Bool :=
  match l.token with
  | .ident s => Text.sameLetters s "pk"
  | _ => false

-- The words behind a type. Only `pk` means anything.
def modifiers : Reader Bool := fun ts =>
  .done ((ts.takeWhile isWord).any isKeyMark) (ts.dropWhile isWord)

def fieldNamed (name : String) : Reader Field := do
  let rawType ← fieldType
  let isPrimaryKey ← modifiers
  before fieldEnds .fieldEnd
  return ⟨name, .ofTypeName rawType, rawType, isPrimaryKey⟩

def field : Reader Field := do
  let name ← name .fieldName
  fieldNamed name

theorem shortens_pointsLeft : Shortens pointsLeft := by
  intro ts
  unfold pointsLeft
  split
  · exact Nat.le_succ _
  · exact Nat.le_succ _
  · exact Nat.le_refl _

theorem shortens_relationshipFrom (leftEntity : String) :
    Shortens (relationshipFrom leftEntity) :=
  shortens_bind (shortens_symbol _ _) fun _ =>
    shortens_bind (shortens_name _) fun _ =>
      shortens_bind shortens_pointsLeft fun _ =>
        shortens_bind (shortens_name _) fun _ =>
          shortens_bind (shortens_symbol _ _) fun _ =>
            shortens_bind (shortens_name _) fun _ =>
              shortens_bind (shortens_before _ _) fun _ => shortens_pure _

theorem shortens_metadataItems (items : List (String × String)) :
    Shortens (metadataItems items) := by
  intro ts
  fun_induction metadataItems items ts with
  | case1 => exact Nat.le_succ _
  | case2 items key _ _ rest item _ after h ih =>
    have := length_dropBefore_le valueEnds rest
    rw [h] at this
    simp only [List.length_cons] at *
    omega
  | case3 items key _ _ rest item _ after h =>
    have := length_dropBefore_le valueEnds rest
    rw [h] at this
    simp only [Reading.rest, List.length_cons] at *
    omega
  | case4 items key _ _ rest item =>
    have := length_dropBefore_le valueEnds rest
    simp only [fail, Reading.rest, List.length_cons] at *
    omega
  | case5 => exact Nat.le_succ _
  | case6 => exact Nat.le_refl _

theorem shortens_metadata : Shortens metadata := by
  intro ts
  unfold metadata
  split
  · exact Nat.le_succ_of_le (shortens_metadataItems [] _)
  · exact Nat.le_refl _

theorem shortens_openBrace : Shortens openBrace := by
  intro ts
  unfold openBrace
  split
  · next rest h =>
    have := Lexer.length_dropWhile_le (isOneOf [.newline]) ts
    rw [h] at this
    simp only [Reading.rest, List.length_cons] at *
    omega
  · exact Nat.le_refl _

theorem shortens_entityHead : Shortens entityHead :=
  shortens_bind shortens_metadata fun _ =>
    shortens_bind shortens_openBrace fun _ => shortens_pure _

theorem shortens_typeArguments : Shortens typeArguments := by
  intro ts
  unfold typeArguments
  split
  · next rest =>
    have h := length_dropBefore_le argumentEnds rest
    split
    · next after hr =>
      rw [hr] at h
      simp only [Reading.rest, List.length_cons] at *
      omega
    · exact Nat.le_succ_of_le h
  · exact Nat.le_refl _

theorem shortens_arraySuffix : Shortens arraySuffix := by
  intro ts
  unfold arraySuffix
  split
  · exact Nat.le_succ_of_le (Nat.le_succ _)
  · exact Nat.le_refl _

theorem shortens_fieldType : Shortens fieldType :=
  shortens_bind (shortens_name _) fun _ =>
    shortens_bind shortens_typeArguments fun _ =>
      shortens_bind shortens_arraySuffix fun _ => shortens_pure _

theorem shortens_modifiers : Shortens modifiers :=
  fun _ => Lexer.length_dropWhile_le _ _

theorem shortens_fieldNamed (name : String) : Shortens (fieldNamed name) :=
  shortens_bind shortens_fieldType fun _ =>
    shortens_bind shortens_modifiers fun _ =>
      shortens_bind (shortens_before _ _) fun _ => shortens_pure _

theorem field_ident (s : String) (n : Nat) (rest : List Lexeme) :
    field (⟨.ident s, n⟩ :: rest) = fieldNamed s rest := rfl

theorem name_of_not_word {l : Lexeme} (h : isWord l = false) (expected : Expected)
    (rest : List Lexeme) : name expected (l :: rest) = fail expected (l :: rest) := by
  obtain ⟨t, n⟩ := l
  cases t <;> first | rfl | simp [isWord] at h

-- A field takes its first token, either as its name or, when it is skipped, as a part of it.
theorem length_field {l : Lexeme} (h : l.token ∉ fieldEnds) (rest : List Lexeme) :
    (∀ f after, field (l :: rest) = .done f after → after.length ≤ rest.length) ∧
      ∀ e after, field (l :: rest) = .stuck e after →
        (dropBefore fieldEnds after).length ≤ rest.length := by
  cases hw : isWord l with
  | true =>
    obtain ⟨t, n⟩ := l
    cases t <;> simp [isWord] at hw
    next s =>
    have hs := shortens_fieldNamed s rest
    constructor
    · intro f after hf
      rw [field_ident] at hf
      simpa [hf, Reading.rest] using hs
    · intro e after hf
      rw [field_ident] at hf
      rw [hf] at hs
      exact Nat.le_trans (length_dropBefore_le _ _) hs
  | false =>
    have hf : field (l :: rest) = fail .fieldName (l :: rest) := by
      show bind (name .fieldName) _ (l :: rest) = _
      rw [bind, name_of_not_word hw]
      rfl
    constructor
    · intro f after hd
      rw [hf] at hd
      cases hd
    · intro e after hd
      rw [hf] at hd
      cases hd
      rw [dropBefore_cons h]
      exact length_dropBefore_le _ _

-- Such a line can only be the next declaration: the writer has not closed the entity yet.
def startsDeclaration : List Lexeme → Bool
  | ⟨.ident _, _⟩ :: l :: _ => isOneOf [.lbrace, .lbracket, .dot] l
  | _ => false

structure Body where
  fields : List Field
  errors : List ParseError
  rest : List Lexeme

def Body.report (b : Body) (e : ParseError) : Body := { b with errors := e :: b.errors }

-- Of two fields of one name the first is kept.
def body (entity : String) (fields : List Field) : List Lexeme → Body
  | [] => ⟨fields, [.unterminatedEntity 1 entity], []⟩
  | l :: rest =>
    if l.token = .newline ∨ l.token = .comma then body entity fields rest
    else if l.token = .rbrace then ⟨fields, [], rest⟩
    else if _h : l.token = .eof ∨ startsDeclaration (l :: rest) then
      ⟨fields, [.unterminatedEntity l.line entity], l :: rest⟩
    else
      match _hf : field (l :: rest) with
      | .done f after =>
        if fields.any (·.name = f.name) then
          (body entity fields after).report (.duplicateField l.line entity f.name)
        else body entity (fields ++ [f]) after
      | .stuck e after => (body entity fields (dropBefore fieldEnds after)).report e
termination_by ts => ts.length
decreasing_by
  all_goals simp only [List.length_cons]
  · omega
  all_goals
    have hl : l.token ∉ fieldEnds := by simp_all [fieldEnds]
    have hp := length_field hl rest
  · exact Nat.lt_succ_of_le (hp.1 _ _ _hf)
  · exact Nat.lt_succ_of_le (hp.1 _ _ _hf)
  · exact Nat.lt_succ_of_le (hp.2 _ _ _hf)

theorem length_body_le (entity : String) (fields : List Field) (ts : List Lexeme) :
    (body entity fields ts).rest.length ≤ ts.length := by
  fun_induction body entity fields ts with
  | case1 => exact Nat.le_refl _
  | case2 fields l rest _ ih => exact Nat.le_succ_of_le ih
  | case3 => exact Nat.le_succ _
  | case4 => exact Nat.le_refl _
  | case5 fields l rest h₁ h₂ h₃ f after hf _ ih =>
    have hl : l.token ∉ fieldEnds := by simp_all [fieldEnds]
    exact Nat.le_trans ih (Nat.le_succ_of_le ((length_field hl rest).1 _ _ hf))
  | case6 fields l rest h₁ h₂ h₃ f after hf _ ih =>
    have hl : l.token ∉ fieldEnds := by simp_all [fieldEnds]
    exact Nat.le_trans ih (Nat.le_succ_of_le ((length_field hl rest).1 _ _ hf))
  | case7 fields l rest h₁ h₂ h₃ e after hf ih =>
    have hl : l.token ∉ fieldEnds := by simp_all [fieldEnds]
    exact Nat.le_trans ih (Nat.le_succ_of_le ((length_field hl rest).2 _ _ hf))

end Reader

end QueryBuilder
