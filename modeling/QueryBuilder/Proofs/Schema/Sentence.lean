import QueryBuilder.Schema.Basic
import QueryBuilder.Schema.Token

set_option autoImplicit false

namespace QueryBuilder.Sentence

-- source   := (NEWLINE | entity | relation)* EOF
-- relation := NAME '.' NAME ('>' | '<') NAME '.' NAME
-- entity   := NAME [metadata] NEWLINE* '{' (NEWLINE | ',' | field)* '}'
-- metadata := '[' (KEY ':' value [','])* ']'
-- field    := NAME type NAME*
-- type     := NAME ['(' argument* ')'] ['[' ']']

def joined (ts : List Token) : String := String.join (ts.map Token.text)

-- What stands directly behind an item; `none` at the end of the list.
def Followed {α : Type} (ok : α → Option α → Prop) : List α → Prop
  | [] => True
  | x :: rest => ok x rest.head? ∧ Followed ok rest

structure TypeName where
  word : String
  arguments : Option (List Token)
  isArray : Bool

namespace TypeName

def argumentTokens : Option (List Token) → List Token
  | none => []
  | some ws => .lparen :: (ws ++ [.rparen])

def argumentText : Option (List Token) → String
  | none => ""
  | some ws => "(" ++ joined ws ++ ")"

def ArgumentsFit (arguments : Option (List Token)) : Prop :=
  ∀ ws ∈ arguments, ∀ w ∈ ws, w ∉ [Token.rparen, .newline, .eof]

def suffixTokens (isArray : Bool) : List Token :=
  if isArray then [.lbracket, .rbracket] else []

def suffixText (isArray : Bool) : String := if isArray then "[]" else ""

def tokens (t : TypeName) : List Token :=
  .ident t.word :: (argumentTokens t.arguments ++ suffixTokens t.isArray)

def text (t : TypeName) : String :=
  t.word ++ argumentText t.arguments ++ suffixText t.isArray

end TypeName

structure FieldLine where
  name : String
  type : TypeName
  modifiers : List String

namespace FieldLine

def tokens (f : FieldLine) : List Token :=
  .ident f.name :: (f.type.tokens ++ f.modifiers.map .ident)

def field (f : FieldLine) : Field :=
  ⟨f.name, .ofTypeName f.type.text, f.type.text, f.modifiers.any (Text.sameLetters · "pk")⟩

end FieldLine

inductive BodyItem where
  | newline
  | comma
  | field (f : FieldLine)

namespace BodyItem

def tokens : BodyItem → List Token
  | .newline => [.newline]
  | .comma => [.comma]
  | .field f => f.tokens

def field? : BodyItem → Option Field
  | .field f => some f.field
  | _ => none

def Fits : BodyItem → Prop
  | .field f => TypeName.ArgumentsFit f.type.arguments
  | _ => True

-- Behind a field stands a new line, a comma, or the brace that closes the body.
def Separated : BodyItem → Option BodyItem → Prop
  | .field _, next => next = none ∨ next = some .newline ∨ next = some .comma
  | _, _ => True

end BodyItem

structure MetadataItem where
  key : String
  value : List Token
  comma : Bool

namespace MetadataItem

def tokens (m : MetadataItem) : List Token :=
  .ident m.key :: .colon :: (m.value ++ if m.comma then [.comma] else [])

def pair (m : MetadataItem) : String × String := (m.key, joined m.value)

def Fits (m : MetadataItem) : Prop :=
  ∀ v ∈ m.value, v ∉ [Token.comma, .rbracket, .newline, .eof]

def Separated (m : MetadataItem) (next : Option MetadataItem) : Prop :=
  m.comma = true ∨ next = none

end MetadataItem

structure EntityBlock where
  name : String
  metadata : Option (List MetadataItem)
  -- New lines in front of the brace.
  gap : Nat
  body : List BodyItem

namespace EntityBlock

def metadataTokens : Option (List MetadataItem) → List Token
  | none => []
  | some items => .lbracket :: (items.flatMap (·.tokens) ++ [.rbracket])

def pairs (metadata : Option (List MetadataItem)) : List (String × String) :=
  (metadata.getD []).map (·.pair)

def MetadataFits (metadata : Option (List MetadataItem)) : Prop :=
  ∀ items ∈ metadata, Followed MetadataItem.Separated items ∧ ∀ m ∈ items, m.Fits

def headTokens (e : EntityBlock) : List Token :=
  metadataTokens e.metadata ++ (List.replicate e.gap .newline ++ [.lbrace])

def bodyTokens (body : List BodyItem) : List Token :=
  body.flatMap (·.tokens) ++ [.rbrace]

def BodyFits (body : List BodyItem) : Prop :=
  Followed BodyItem.Separated body ∧ ∀ i ∈ body, i.Fits

def tokens (e : EntityBlock) : List Token :=
  .ident e.name :: (e.headTokens ++ bodyTokens e.body)

def fields (body : List BodyItem) : List Field := body.filterMap (·.field?)

def entity (e : EntityBlock) : Entity := ⟨e.name, fields e.body, pairs e.metadata⟩

end EntityBlock

structure RelationLine where
  leftEntity : String
  leftField : String
  pointsLeft : Bool
  rightEntity : String
  rightField : String

namespace RelationLine

def tailTokens (r : RelationLine) : List Token :=
  [.dot, .ident r.leftField, if r.pointsLeft then .lt else .gt, .ident r.rightEntity, .dot,
    .ident r.rightField]

def tokens (r : RelationLine) : List Token := .ident r.leftEntity :: r.tailTokens

def relationship (r : RelationLine) : Relationship :=
  if r.pointsLeft then ⟨r.rightEntity, r.rightField, r.leftEntity, r.leftField⟩
  else ⟨r.leftEntity, r.leftField, r.rightEntity, r.rightField⟩

end RelationLine

inductive SourceItem where
  | newline
  | entity (e : EntityBlock)
  | relation (r : RelationLine)

namespace SourceItem

def tokens : SourceItem → List Token
  | .newline => [.newline]
  | .entity e => e.tokens
  | .relation r => r.tokens

def entity? : SourceItem → Option Entity
  | .entity e => some e.entity
  | _ => none

def relationship? : SourceItem → Option Relationship
  | .relation r => some r.relationship
  | _ => none

def Fits : SourceItem → Prop
  | .entity e => EntityBlock.MetadataFits e.metadata ∧ EntityBlock.BodyFits e.body
  | _ => True

-- A relation ends its line.
def Separated : SourceItem → Option SourceItem → Prop
  | .relation _, next => next = none ∨ next = some .newline
  | _, _ => True

end SourceItem

structure Source where
  items : List SourceItem
  fits : ∀ i ∈ items, i.Fits
  separated : Followed SourceItem.Separated items

namespace Source

def tokens (src : Source) : List Token := src.items.flatMap (·.tokens) ++ [.eof]

def entities (src : Source) : List Entity := src.items.filterMap (·.entity?)

def relationships (src : Source) : List Relationship := src.items.filterMap (·.relationship?)

structure NoRepeats (src : Source) : Prop where
  entities : (src.entities.map (·.name)).Nodup
  fields : ∀ e ∈ src.entities, (e.fields.map (·.name)).Nodup

def schema (src : Source) : Schema := ⟨src.entities, src.relationships.eraseDups⟩

end Source

end QueryBuilder.Sentence
