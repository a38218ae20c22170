import QueryBuilder.Json.Printer
import QueryBuilder.Pipeline.Build

set_option autoImplicit false

namespace QueryBuilder.Pipeline

open Json (Value)

namespace Shell

def isNameStart (c : Char) : Bool := Text.isAsciiLetter c || c == '_' || c == '$'

def isBare (s : String) : Bool :=
  match s.toList with
  | [] => false
  | c :: rest => isNameStart c && rest.all fun c => isNameStart c || Text.isDigit c

def keyText (key : String) : String := if isBare key then key else Json.quote key

def braces (pretty : Bool) (level : Nat) (items : List String) : String :=
  if items.isEmpty then "\x7b\x7d"
  else if pretty then Json.encloseLines level "\x7b" "\x7d" items
  else "\x7b " ++ ", ".intercalate items ++ " \x7d"

def brackets (pretty : Bool) (level : Nat) (items : List String) : String :=
  if pretty then Json.encloseLines level "[" "]" items else "[" ++ ", ".intercalate items ++ "]"

mutual

def text (pretty : Bool) (level : Nat) : Value → String
  | .object [("$date", .string date)] => "ISODate(" ++ Json.quote date ++ ")"
  | .object members => braces pretty level (memberTexts pretty (level + 1) members)
  | .array items => brackets pretty level (itemTexts pretty (level + 1) items)
  | .null => "null"
  | .bool b => if b then "true" else "false"
  | .number n => n.text
  | .string s => Json.quote s

def itemTexts (pretty : Bool) (level : Nat) : List Value → List String
  | [] => []
  | v :: rest => text pretty level v :: itemTexts pretty level rest

def memberTexts (pretty : Bool) (level : Nat) : List (String × Value) → List String
  | [] => []
  | (k, v) :: rest =>
    (keyText k ++ ": " ++ text pretty level v) :: memberTexts pretty level rest

end

def collectionText (collection : String) : String :=
  if isBare collection && !Text.hasInitial '$' collection then "db." ++ collection
  else "db.getCollection(" ++ Json.quote collection ++ ")"

end Shell

inductive OutputForm where
  | shell
  | json
  deriving DecidableEq, Repr

instance : Keyword OutputForm where
  all := [.shell, .json]
  name
    | .shell => "shell"
    | .json => "json"

structure Options where
  output : OutputForm
  pretty : Bool

def Options.default : Options := ⟨.shell, false⟩

def placeholder : OutputForm → String
  | .shell => "// Select fields to build a pipeline"
  | .json => "[]"

def document (p : Pipeline) : Value := .array (renderStages p.stages)

def text (p : Pipeline) (o : Options) : String :=
  match o.output with
  | .json => if o.pretty then p.document.pretty else p.document.compact
  | .shell =>
    Shell.collectionText p.collection ++ ".aggregate(" ++ Shell.text o.pretty 0 p.document ++ ")"

def compile (s : Schema) (options : Options) (q : Query) : String :=
  match pipeline? s q with
  | some p => p.text options
  | none => placeholder options.output

end QueryBuilder.Pipeline
