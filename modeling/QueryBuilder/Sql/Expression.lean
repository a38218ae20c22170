import QueryBuilder.Json.Printer
import QueryBuilder.Query.Basic
import QueryBuilder.Sql.Dialect

set_option autoImplicit false

namespace QueryBuilder.Sql

inductive Operand where
  | field (key : FieldKey)
  | raw (text : String)

inductive Term where
  | operand (o : Operand)
  | aggregate (a : Accumulator) (o : Operand)
  | window (w : Window) (o : Operand)

inductive Condition where
  | compare (t : Term) (op : Operator) (value : Literal)
  | like (t : Term) (op : Operator) (pattern : String)
  | among (t : Term) (op : Operator) (values : List Literal)
  | range (t : Term) (op : Operator) (low high : Literal)
  | test (t : Term) (op : Operator)
  | subquery (text : String)
  | raw (text : String)

def Operand.ofColumn (c : Column) : Operand :=
  match c.expression? with
  | some text => .raw (Text.trim text)
  | none => .field c.key

def Term.ofColumn (c : Column) : Term :=
  match c.aggregation with
  | .none => .operand (.ofColumn c)
  | .accumulator a => .aggregate a (.ofColumn c)
  | .window w => .window w (.ofColumn c)

-- `type` is the class of the term, if it is known.
def Condition.ofPredicate? (t : Term) (p : Predicate) (type : Option SemanticType) :
    Option Condition :=
  if p.isComplete then
    some <|
      match p.operator with
      | .eq | .notEq | .gt | .lt | .gte | .lte => .compare t p.operator (.ofRaw type p.value)
      | .like | .notLike => .like t p.operator p.value
      | .isIn | .notIn => .among t p.operator (p.items.map (.ofRaw type))
      | .between | .notBetween =>
        .range t p.operator (.ofRaw type p.value) (.ofRaw type (p.second?.getD ""))
      | .isNull | .isNotNull => .test t p.operator
      | .exists => if p.value = "" then .test t .isNotNull else .subquery p.value
  else none

def commas (items : List String) : String := ", ".intercalate items

def columnText (d : Dialect) (k : FieldKey) : String :=
  d.quoteIdent k.entity ++ "." ++ d.quoteIdent k.field

def literalText : Literal → String
  | .null => "NULL"
  | .bool true => "TRUE"
  | .bool false => "FALSE"
  | .int n => Digits.intText n.toInt
  | .float x => x.plainText
  | .date raw _ => stringLiteral raw
  | .text s => stringLiteral s
  | .json v => stringLiteral v.compact

def Operand.text (d : Dialect) : Operand → String
  | .field k => columnText d k
  | .raw text => text

def call (function argument : String) : String := function ++ "(" ++ argument ++ ")"

def aggregateText (d : Dialect) (a : Accumulator) (operand : String) : String :=
  match a with
  | .count => call "COUNT" operand
  | .countDistinct => call "COUNT" ("DISTINCT " ++ operand)
  | .sum => call "SUM" operand
  | .avg => call "AVG" operand
  | .min => call "MIN" operand
  | .max => call "MAX" operand
  | .stdDevPop => call "STDDEV_POP" operand
  | .stdDevSamp => call "STDDEV_SAMP" operand
  | .push => call d.arrayAggregate operand
  | .addToSet =>
    -- An array aggregate of distinct values does not exist there, so the duplicates stay.
    call d.arrayAggregate (if d = .mysql then operand else "DISTINCT " ++ operand)
  -- The first and the last value have no counterpart.
  | .first | .last => call "ANY_VALUE" operand

def orderKeyText (d : Dialect) (o : OrderKey) : String :=
  columnText d o.key ++ " " ++ o.direction.name

def windowArgument (w : Window) (operand : String) : String :=
  if !w.function.takesArgument then ""
  else
    match w.offset with
    | some n =>
      if w.function.takesOffset then operand ++ ", " ++ Digits.intText n.toInt else operand
    | none => operand

def partitionText (d : Dialect) (keys : List FieldKey) : List String :=
  if keys.isEmpty then [] else ["PARTITION BY " ++ commas (keys.map (columnText d))]

def orderText (d : Dialect) (keys : List OrderKey) : List String :=
  if keys.isEmpty then [] else ["ORDER BY " ++ commas (keys.map (orderKeyText d))]

def windowText (d : Dialect) (w : Window) (operand : String) : String :=
  call w.function.name (windowArgument w operand) ++ " OVER (" ++
    " ".intercalate (partitionText d w.partitionBy ++ orderText d w.orderBy) ++ ")"

def Term.text (d : Dialect) : Term → String
  | .operand o => o.text d
  | .aggregate a o => aggregateText d a (o.text d)
  | .window w o => windowText d w (o.text d)

def Condition.text (d : Dialect) : Condition → String
  | .compare t op value => t.text d ++ " " ++ op.name ++ " " ++ literalText value
  | .like t op pattern => t.text d ++ " " ++ op.name ++ " " ++ stringLiteral pattern
  | .among t op values =>
    t.text d ++ " " ++ op.name ++ " (" ++ commas (values.map literalText) ++ ")"
  | .range t op low high =>
    t.text d ++ " " ++ op.name ++ " " ++ literalText low ++ " AND " ++ literalText high
  | .test t op => t.text d ++ " " ++ op.name
  | .subquery text => "EXISTS (" ++ text ++ ")"
  | .raw text => text

end QueryBuilder.Sql
