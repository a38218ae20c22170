import QueryBuilder.Keyword

set_option autoImplicit false

namespace QueryBuilder

inductive SemanticType where
  | string
  | number
  | date
  | boolean
  | array
  | object
  deriving DecidableEq, Repr, Inhabited

instance : Keyword SemanticType where
  all := [.string, .number, .date, .boolean, .array, .object]
  name
    | .string => "string"
    | .number => "number"
    | .date => "date"
    | .boolean => "boolean"
    | .array => "array"
    | .object => "object"

namespace SemanticType

def numberNames : List String :=
  ["int", "integer", "bigint", "smallint", "tinyint", "serial", "bigserial", "long", "float",
    "double", "real", "decimal", "numeric", "number", "objectid"]

def dateNames : List String := ["date", "datetime", "timestamp", "timestamptz", "time"]

def booleanNames : List String := ["bool", "boolean"]

def arrayNames : List String := ["array", "list"]

def objectNames : List String := ["object", "json", "jsonb", "map", "document"]

-- An unknown word means text.
def ofBaseName (word : String) : SemanticType :=
  if word ∈ numberNames then .number
  else if word ∈ dateNames then .date
  else if word ∈ booleanNames then .boolean
  else if word ∈ arrayNames then .array
  else if word ∈ objectNames then .object
  else .string

-- `[]` at the end makes an array, whatever stands before it.
def ofTypeName (raw : String) : SemanticType :=
  -- Only ASCII letters have to be brought to lower case: no word comes from another letter.
  let word := (Text.lower (Text.trim raw)).toList
  if ['[', ']'].isSuffixOf word then .array
  else ofBaseName (Text.trim (String.ofList (word.takeWhile (· ≠ '('))))

end SemanticType

end QueryBuilder
