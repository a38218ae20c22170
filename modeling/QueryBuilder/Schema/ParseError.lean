import QueryBuilder.Schema.Token

set_option autoImplicit false

namespace QueryBuilder

inductive Expected where
  | declaration
  | entityName
  | dot
  | fieldName
  | arrow
  | lineEnd
  | openBrace
  | metadataKey
  | colon
  | closeBracket
  | fieldType
  | closeParen
  | fieldEnd
  deriving DecidableEq, Repr

namespace Expected

def text : Expected → String
  | .declaration => "entity or relationship declaration"
  | .entityName => "entity name"
  | .dot => "."
  | .fieldName => "field name"
  | .arrow => "`>` or `<`"
  | .lineEnd => "end of line"
  | .openBrace => "`\x7b`"
  | .metadataKey => "metadata key"
  | .colon => "`:`"
  | .closeBracket => "`]`"
  | .fieldType => "field type"
  | .closeParen => "`)`"
  | .fieldEnd => "end of field"

end Expected

inductive ParseError where
  | unexpected (line : Nat) (found : Token) (expected : Expected)
  | unterminatedEntity (line : Nat) (entity : String)
  | duplicateEntity (line : Nat) (entity : String)
  | duplicateField (line : Nat) (entity field : String)
  deriving DecidableEq, Repr

namespace ParseError

def line : ParseError → Nat
  | .unexpected line _ _ => line
  | .unterminatedEntity line _ => line
  | .duplicateEntity line _ => line
  | .duplicateField line _ _ => line

def message (e : ParseError) : String :=
  "line " ++ toString e.line ++ ": " ++
    match e with
    | .unexpected _ found expected =>
      "unexpected token " ++ found.shown ++ ", expected " ++ expected.text
    | .unterminatedEntity _ entity => "entity `" ++ entity ++ "` is missing its closing brace"
    | .duplicateEntity _ entity => "duplicate entity `" ++ entity ++ "`"
    | .duplicateField _ entity field => "duplicate field `" ++ entity ++ "." ++ field ++ "`"

end ParseError

end QueryBuilder
