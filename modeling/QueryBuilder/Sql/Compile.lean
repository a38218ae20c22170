import QueryBuilder.Sql.Statement

set_option autoImplicit false

namespace QueryBuilder.Sql

structure Options where
  dialect : Dialect
  pretty : Bool

def Options.default : Options := ⟨.generic, false⟩

def items (q : Query) : List Item :=
  q.selected.map fun c => ⟨.ofColumn c, c.alias?.map Text.trim⟩

def joinClause (type : JoinType) : Join → Clause
  | .on step => .join type step
  | .cross entity => .crossJoin entity

def columnFilter? (s : Schema) (c : Column) : Option Condition :=
  c.filter.bind fun p =>
    Condition.ofPredicate? (.operand (.ofColumn c)) p (s.fieldType? c.key.entity c.key.field)

def withCustom (filters : List Condition) : Option String → List Condition
  | none => filters
  | some text => if filters.isEmpty then [.raw text] else filters ++ [.raw ("(" ++ text ++ ")")]

def filters (s : Schema) (q : Query) : List Condition :=
  withCustom (q.columns.filterMap (columnFilter? s)) q.options.customWhere?

def columnHaving? (s : Schema) (q : Query) (c : Column) : Option Condition :=
  if c.selected && q.needsGrouping then do
    let a ← c.accumulator?
    let p ← c.effectiveHaving?
    Condition.ofPredicate? (.aggregate a (.ofColumn c)) p
      (some (a.resultType (s.fieldType? c.key.entity c.key.field)))
  else none

def havings (s : Schema) (q : Query) : List Condition := q.columns.filterMap (columnHaving? s q)

def sortTarget (grouped : Bool) (c : Column) : SortTarget :=
  match c.selected, c.alias? with
  | true, some name => .named (Text.trim name)
  | true, none => .term (.ofColumn c)
  -- No aggregate stands in a statement that does not group.
  | false, _ => .term (if grouped then .ofColumn c else .operand (.ofColumn c))

def nonempty {α : Type} (f : List α → Clause) (xs : List α) : List Clause :=
  if xs.isEmpty then [] else [f xs]

def grouping (q : Query) : List Clause :=
  if q.options.groupByAll then [.groupByAll] else nonempty .groupBy (q.groupKeys.map (·.key))

def ordering (q : Query) : List Clause :=
  nonempty .orderBy
    (q.sortedColumns.map fun c => (sortTarget q.needsGrouping c.1, c.2.direction))

-- The limit that stands for none where an offset needs one.
def noLimit : UInt64 := 18446744073709551615

def limiting (d : Dialect) (q : Query) : List Clause :=
  match q.options.limit, q.options.offset with
  | some n, _ => [.limit n]
  | none, some _ => if d.requiresLimitForOffset then [.limit noLimit] else []
  | none, none => []

def paging (d : Dialect) (q : Query) : List Clause :=
  limiting d q ++ (q.options.offset.map Clause.offset).toList

def clauses? (s : Schema) (d : Dialect) (q : Query) : Option (List Clause) :=
  if q.isEmpty then none
  else
    let plan := (JoinGraph.ofSchema s).plan q.referencedEntities
    plan.root.map fun root =>
      [.select q.options.distinct (items q), .source root] ++
        plan.joins.map (joinClause q.options.joinType) ++
        nonempty .filter (filters s q) ++ grouping q ++ nonempty .having (havings s q) ++
        ordering q ++ paging d q

mutual

def statement? (s : Schema) (d : Dialect) : Query → Option Statement
  | q@⟨_, { setOperations := sets, .. }⟩ =>
    (clauses? s d q).map fun clauses => ⟨clauses, operands s d sets⟩

def operands (s : Schema) (d : Dialect) :
    List (SetOperation Query) → List (SetOperator × Bool × Statement)
  | [] => []
  | ⟨operator, all, q⟩ :: rest =>
    -- An empty query takes no part.
    match statement? s d q with
    | none => operands s d rest
    | some statement => (operator, all, statement) :: operands s d rest

end

def placeholder : String := "-- Select fields to build a query"

def compile (s : Schema) (options : Options) (q : Query) : String :=
  match statement? s options.dialect q with
  | some statement => statement.text options.dialect options.pretty
  | none => placeholder

end QueryBuilder.Sql
