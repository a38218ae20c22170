import QueryBuilder.Query.Basic
import QueryBuilder.Schema.Basic

set_option autoImplicit false

namespace QueryBuilder

inductive QueryError where
  | unknownColumn (key : FieldKey)
  | havingWithoutAccumulator (key : FieldKey)
  | invalidValue (key : FieldKey) (error : ValueError)
  deriving DecidableEq, Repr

def QueryError.message : QueryError → String
  | .unknownColumn key => "no column `" ++ key.text ++ "` in the query"
  | .havingWithoutAccumulator key => "`" ++ key.text ++ "` has no accumulator; HAVING needs one"
  | .invalidValue key e => "invalid value for `" ++ key.text ++ "`: " ++ e.message

namespace Query

def replaceFirst (c : Column) : List Column → List Column
  | [] => []
  | d :: rest => if d.key = c.key then c :: rest else d :: replaceFirst c rest

theorem map_key_replaceFirst (c : Column) (cs : List Column) :
    (replaceFirst c cs).map (·.key) = cs.map (·.key) := by
  induction cs with
  | nil => rfl
  | cons d rest ih =>
    unfold replaceFirst
    split
    · next h => simp [h]
    · exact congrArg (d.key :: ·) ih

def has (q : Query) (key : FieldKey) : Bool := (q.column? key).isSome

def replace (q : Query) (c : Column) : Query := { q with columns := replaceFirst c q.columns }

def upsert (q : Query) (c : Column) : Query :=
  if q.has c.key then q.replace c else { q with columns := q.columns ++ [c] }

def select (q : Query) (key : FieldKey) : Column × Query :=
  let c := { (q.column? key).getD (.ofKey key) with selected := true }
  (c, q.upsert c)

def remove (q : Query) (key : FieldKey) : Option Column × Query :=
  (q.column? key, { q with columns := q.columns.eraseP (·.key = key) })

def clearAll (_ : Query) : Query := empty

def setOptions (q : Query) (options : Options Query) : Query := { q with options := options }

-- The query stands beside an error as well: whatever was assigned before it stays assigned.
abbrev Editing := EStateM QueryError Query

def column (key : FieldKey) : Editing Column := do
  match (← get).column? key with
  | none => throw (.unknownColumn key)
  | some c => return c

def assign (c : Column) : Editing Unit := modify (·.replace c)

def check (key : FieldKey) (type : SemanticType) (p : Predicate) : Editing Unit :=
  match p.validate type with
  | .ok () => return ()
  | .error e => throw (.invalidValue key e)

-- An accumulator takes the place of a window.
def setAccumulator (key : FieldKey) (a : Option Accumulator) : Editing Unit := do
  let c ← column key
  match a with
  | some a => assign { c with aggregation := .accumulator a }
  | none =>
    -- Nothing is left for a filter on the result to look at.
    assign { c with
      aggregation := if c.accumulator?.isSome then .none else c.aggregation
      having := none }

-- A window takes the place of an accumulator, and of the filter on its result.
def setWindow (key : FieldKey) (w : Option Window) : Editing Unit := do
  let c ← column key
  match w with
  | some w => assign { c with aggregation := .window w, having := none }
  | none => assign { c with aggregation := if c.window?.isSome then .none else c.aggregation }

-- A column that was not sorted comes last in the order. One that was keeps its place.
def setSort (key : FieldKey) (direction : Option SortDirection) : Editing Unit := do
  let next := (← get).nextSortOrder
  let c ← column key
  let order := (c.sort.map (·.order)).getD next
  assign { c with sort := direction.map (⟨·, order⟩) }

def nextDirection : Option SortDirection → Option SortDirection
  | none => some .asc
  | some .asc => some .desc
  | some .desc => none

-- From unsorted to ascending, to descending, and back.
def toggleSort (key : FieldKey) : Editing (Option SortDirection) := do
  let c ← column key
  let direction := nextDirection (c.sort.map (·.direction))
  setSort key direction
  return direction

def setFilter (key : FieldKey) (filter : Option Predicate) (schema : Schema) : Editing Unit := do
  -- The values are checked before the column is looked for.
  filter.forM (check key ((schema.fieldType? key.entity key.field).getD .string))
  let c ← column key
  assign { c with filter := filter }

def setHaving (key : FieldKey) (having : Option Predicate) (schema : Schema) : Editing Unit := do
  let c ← column key
  having.forM fun p => do
    let a ← c.accumulator?.getDM (throw (.havingWithoutAccumulator key))
    check key (a.resultType (schema.fieldType? key.entity key.field)) p
  assign { c with having := having }

def setAlias (key : FieldKey) (name : Option String) : Editing Unit := do
  let c ← column key
  assign { c with rawAlias := name.filter Column.saysSomething }

def setExpression (key : FieldKey) (expression : Option String) : Editing Unit := do
  let c ← column key
  assign { c with rawExpression := expression.filter Column.saysSomething }

end Query

end QueryBuilder
