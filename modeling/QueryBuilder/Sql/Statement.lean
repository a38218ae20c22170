import QueryBuilder.Join.Plan
import QueryBuilder.Sql.Expression

set_option autoImplicit false

namespace QueryBuilder.Sql

inductive SortTarget where
  | named (name : String)
  | term (t : Term)

structure Item where
  term : Term
  name : Option String

inductive Clause where
  | select (distinct : Bool) (items : List Item)
  | source (entity : String)
  | join (type : JoinType) (step : JoinStep)
  | crossJoin (entity : String)
  | filter (conditions : List Condition)
  | groupByAll
  | groupBy (keys : List FieldKey)
  | having (conditions : List Condition)
  | orderBy (targets : List (SortTarget × SortDirection))
  | limit (n : UInt64)
  | offset (n : UInt64)
  | combine (operator : SetOperator) (all : Bool)

structure Statement where
  clauses : List Clause
  operands : List (SetOperator × Bool × Statement)

mutual

-- Each operand stands behind its operator, without brackets.
def Statement.flatten : Statement → List Clause
  | ⟨clauses, operands⟩ => clauses ++ flattenOperands operands

def flattenOperands : List (SetOperator × Bool × Statement) → List Clause
  | [] => []
  | (operator, all, s) :: rest => .combine operator all :: s.flatten ++ flattenOperands rest

end

def SortTarget.text (d : Dialect) : SortTarget → String
  | .named name => d.quoteIdent name
  | .term t => t.text d

def Item.text (d : Dialect) (i : Item) : String :=
  match i.name with
  | some name => i.term.text d ++ " AS " ++ d.quoteIdent name
  | none => i.term.text d

def conditionsText (d : Dialect) (conditions : List Condition) : String :=
  " AND ".intercalate (conditions.map (·.text d))

def Clause.text (d : Dialect) : Clause → String
  | .select distinct items =>
    (if distinct then "SELECT DISTINCT " else "SELECT ") ++
      if items.isEmpty then "*" else commas (items.map (·.text d))
  | .source entity => "FROM " ++ d.quoteIdent entity
  | .join type step =>
    type.name ++ " JOIN " ++ d.quoteIdent step.toEntity ++ " ON " ++
      columnText d ⟨step.fromEntity, step.fromField⟩ ++ " = " ++
      columnText d ⟨step.toEntity, step.toField⟩
  | .crossJoin entity => "CROSS JOIN " ++ d.quoteIdent entity
  | .filter conditions => "WHERE " ++ conditionsText d conditions
  | .groupByAll => "GROUP BY ALL"
  | .groupBy keys => "GROUP BY " ++ commas (keys.map (columnText d))
  | .having conditions => "HAVING " ++ conditionsText d conditions
  | .orderBy targets =>
    "ORDER BY " ++ commas (targets.map fun t => t.1.text d ++ " " ++ t.2.name)
  | .limit n => "LIMIT " ++ Digits.text n.toNat
  | .offset n => "OFFSET " ++ Digits.text n.toNat
  | .combine operator all => operator.name ++ if all then " ALL" else ""

def Statement.text (d : Dialect) (pretty : Bool) (s : Statement) : String :=
  (if pretty then "\n" else " ").intercalate (s.flatten.map (·.text d))

end QueryBuilder.Sql
