import QueryBuilder.Query.Predicate

set_option autoImplicit false

namespace QueryBuilder

structure FieldKey where
  entity : String
  field : String
  deriving DecidableEq, Repr

def FieldKey.text (k : FieldKey) : String := k.entity ++ "." ++ k.field

inductive Accumulator where
  | count
  | countDistinct
  | sum
  | avg
  | min
  | max
  | stdDevPop
  | stdDevSamp
  | push
  | addToSet
  | first
  | last
  deriving DecidableEq, Repr

namespace Accumulator

instance : Keyword Accumulator where
  all := [.count, .countDistinct, .sum, .avg, .min, .max, .stdDevPop, .stdDevSamp, .push, .addToSet,
    .first, .last]
  name
    | .count => "COUNT"
    | .countDistinct => "COUNT_DISTINCT"
    | .sum => "SUM"
    | .avg => "AVG"
    | .min => "MIN"
    | .max => "MAX"
    | .stdDevPop => "STD_DEV_POP"
    | .stdDevSamp => "STD_DEV_SAMP"
    | .push => "PUSH"
    | .addToSet => "ADD_TO_SET"
    | .first => "FIRST"
    | .last => "LAST"

def isNumeric : Accumulator → Bool
  | .count | .countDistinct | .sum | .avg | .stdDevPop | .stdDevSamp => true
  | _ => false

def stem : Accumulator → String
  | .count => "count"
  | .countDistinct => "count_distinct"
  | .sum => "sum"
  | .avg => "avg"
  | .min => "min"
  | .max => "max"
  | .stdDevPop => "stddev_pop"
  | .stdDevSamp => "stddev_samp"
  | .push => "push"
  | .addToSet => "add_to_set"
  | .first => "first"
  | .last => "last"

def resultType (a : Accumulator) (fieldType : Option SemanticType) : SemanticType :=
  if a.isNumeric then .number else fieldType.getD .string

end Accumulator

inductive WindowFunction where
  | rowNumber
  | rank
  | denseRank
  | lag
  | lead
  | firstValue
  | lastValue
  | sum
  | avg
  | count
  | min
  | max
  deriving DecidableEq, Repr

namespace WindowFunction

def name : WindowFunction → String
  | .rowNumber => "ROW_NUMBER"
  | .rank => "RANK"
  | .denseRank => "DENSE_RANK"
  | .lag => "LAG"
  | .lead => "LEAD"
  | .firstValue => "FIRST_VALUE"
  | .lastValue => "LAST_VALUE"
  | .sum => "SUM"
  | .avg => "AVG"
  | .count => "COUNT"
  | .min => "MIN"
  | .max => "MAX"

instance : Keyword WindowFunction where
  all := [.rowNumber, .rank, .denseRank, .lag, .lead, .firstValue, .lastValue, .sum, .avg, .count,
    .min, .max]
  name := name

def takesArgument : WindowFunction → Bool
  | .rowNumber | .rank | .denseRank => false
  | _ => true

def takesOffset : WindowFunction → Bool
  | .lag | .lead => true
  | _ => false

def stem (f : WindowFunction) : String := Text.lower f.name

end WindowFunction

inductive SortDirection where
  | asc
  | desc
  deriving DecidableEq, Repr

namespace SortDirection

def name : SortDirection → String
  | .asc => "ASC"
  | .desc => "DESC"

instance : Keyword SortDirection where
  all := [.asc, .desc]
  name := name

end SortDirection

structure OrderKey where
  key : FieldKey
  direction : SortDirection
  deriving DecidableEq, Repr

structure Window where
  function : WindowFunction
  partitionBy : List FieldKey
  orderBy : List OrderKey
  offset : Option Int64
  deriving DecidableEq

inductive Aggregation where
  | none
  | accumulator (a : Accumulator)
  | window (w : Window)
  deriving DecidableEq

-- `order` is the place of the column among the sorted ones.
structure Sorting where
  direction : SortDirection
  order : UInt64
  deriving DecidableEq

structure Column where
  key : FieldKey
  -- A column that is not shown can still filter and sort.
  selected : Bool
  aggregation : Aggregation
  sort : Option Sorting
  filter : Option Predicate
  having : Option Predicate
  rawAlias : Option String
  rawExpression : Option String
  deriving DecidableEq

namespace Column

def ofKey (key : FieldKey) : Column :=
  { key := key
    selected := true
    aggregation := .none
    sort := none
    filter := none
    having := none
    rawAlias := none
    rawExpression := none }

def accumulator? (c : Column) : Option Accumulator :=
  match c.aggregation with
  | .accumulator a => some a
  | _ => none

def window? (c : Column) : Option Window :=
  match c.aggregation with
  | .window w => some w
  | _ => none

def effectiveHaving? (c : Column) : Option Predicate :=
  c.accumulator?.bind fun _ => c.having

def saysSomething (s : String) : Bool := !Text.isBlankText s

def alias? (c : Column) : Option String := c.rawAlias.filter saysSomething

def expression? (c : Column) : Option String := c.rawExpression.filter saysSomething

def isGroupCandidate (c : Column) : Bool :=
  c.selected && c.aggregation == .none && c.expression?.isNone

end Column

end QueryBuilder
