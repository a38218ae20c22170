import QueryBuilder.Query.Operator
import QueryBuilder.Literal.Coercion

set_option autoImplicit false

namespace QueryBuilder

structure Predicate where
  operator : Operator
  rawValue : String
  rawSecond : Option String
  deriving DecidableEq, Repr

namespace Predicate

def value (p : Predicate) : String := Text.trim p.rawValue

def second? (p : Predicate) : Option String :=
  (p.rawSecond.map Text.trim).filter (· ≠ "")

def items (p : Predicate) : List String := Text.listItems p.rawValue

def isComplete (p : Predicate) : Bool :=
  if p.operator.takesList then !p.items.isEmpty
  else if p.operator.needsValue && p.value == "" then false
  else !p.operator.needsSecondValue || p.second?.isSome

end Predicate

inductive ValueError where
  | unsuitable (error : CoercionError)
  | missingValue (operator : Operator)
  | missingSecondValue (operator : Operator)
  deriving DecidableEq, Repr

namespace ValueError

def message : ValueError → String
  | .unsuitable e => e.message
  | .missingValue op => op.name ++ " needs a value"
  | .missingSecondValue op => op.name ++ " needs a second value"

end ValueError

namespace Predicate

def checkValue (type : SemanticType) (raw : String) : Except ValueError Unit :=
  match Literal.coerce type raw with
  | .ok _ => .ok ()
  | .error e => .error (.unsuitable e)

def checkAll (type : SemanticType) : List String → Except ValueError Unit
  | [] => .ok ()
  | raw :: rest => do
    checkValue type raw
    checkAll type rest

def validate (type : SemanticType) (p : Predicate) : Except ValueError Unit :=
  if p.operator.takesList then
    if p.items.isEmpty then .error (.missingValue p.operator) else checkAll type p.items
  else if !p.operator.needsValue then .ok ()
  else if p.value = "" then .error (.missingValue p.operator)
  else if p.operator.isPattern then .ok ()
  else do
    checkValue type p.value
    if p.operator.needsSecondValue then
      match p.second? with
      | none => .error (.missingSecondValue p.operator)
      | some second => checkValue type second

end Predicate

end QueryBuilder
