import QueryBuilder.Json.Document
import QueryBuilder.Literal.NumberText
import QueryBuilder.Literal.MomentText
import QueryBuilder.Schema.SemanticType

set_option autoImplicit false

namespace QueryBuilder

inductive Literal where
  | null
  | bool (b : Bool)
  | int (n : Int64)
  | float (x : Binary64)
  | date (raw : String) (moment : Moment)
  | text (s : String)
  | json (v : Json.Value)

inductive CoercionError where
  | notANumber (text : String)
  | notADate (text : String)
  | notABoolean (text : String)
  deriving DecidableEq, Repr

namespace CoercionError

def message : CoercionError → String
  | .notANumber text => "`" ++ text ++ "` is not a number"
  | .notADate text => "`" ++ text ++ "` is not a valid date"
  | .notABoolean text => "`" ++ text ++ "` is not a boolean"

end CoercionError

namespace Literal

def number? (text : String) : Option Literal :=
  (NumberText.read? text.toList).bind fun n =>
    match n.int? with
    | some i => some (.int i)
    | none => n.float?.map .float

def date? (text : String) : Option Literal :=
  (MomentText.read? text.toList).map (.date text)

def yesWords : List String := ["true", "t", "yes", "y", "1"]

def noWords : List String := ["false", "f", "no", "n", "0"]

def bool? (text : String) : Option Literal :=
  let word := Text.lower text
  if word ∈ yesWords then some (.bool true)
  else if word ∈ noWords then some (.bool false)
  else none

def coerce (type : SemanticType) (raw : String) : Except CoercionError Literal :=
  let text := Text.trim raw
  match type with
  | .number => (number? text).elim (.error (.notANumber text)) .ok
  | .date => (date? text).elim (.error (.notADate text)) .ok
  | .boolean => (bool? text).elim (.error (.notABoolean text)) .ok
  | .array | .object => .ok ((Json.Value.read? text).elim (.text text) .json)
  | .string => .ok (.text text)

def coerceOrText (type : SemanticType) (raw : String) : Literal :=
  match coerce type raw with
  | .ok l => l
  | .error _ => .text (Text.trim raw)

def infer (raw : String) : Literal :=
  let text := Text.trim raw
  match number? text with
  | some l => l
  | none =>
    let word := Text.lower text
    if word = "true" then .bool true
    else if word = "false" then .bool false
    else if word = "null" then .null
    else .text text

def ofRaw (type : Option SemanticType) (raw : String) : Literal :=
  match type with
  | some t => coerceOrText t raw
  | none => infer raw

end Literal

end QueryBuilder
