import QueryBuilder.Json.Record
import QueryBuilder.Query.Basic

set_option autoImplicit false

namespace QueryBuilder

open Json (Value Document)
open Json.Document

namespace Json

def Value.keyword {α : Type} [Keyword α] (a : α) : Value := .string (Keyword.name a)

def memberOf {α : Type} (key : String) (f : α → Value) : Option α → List (String × Value)
  | none => []
  | some a => [(key, f a)]

end Json

namespace FieldKey

def members (k : FieldKey) : List (String × Value) :=
  [("entity", .string k.entity), ("field", .string k.field)]

def toValue (k : FieldKey) : Value := .object k.members

end FieldKey

def Predicate.toValue (p : Predicate) : Value :=
  .object <|
    [("operator", Value.keyword p.operator), ("value", .string p.rawValue)] ++
      Json.memberOf "value2" .string p.rawSecond

def OrderKey.toValue (o : OrderKey) : Value :=
  .object (o.key.members ++ [("direction", Value.keyword o.direction)])

def Window.toValue (w : Window) : Value :=
  .object <|
    [("function", Value.keyword w.function),
      ("partitionBy", .array (w.partitionBy.map (·.toValue))),
      ("orderBy", .array (w.orderBy.map (·.toValue)))] ++
      Json.memberOf "offset" .ofInt64 w.offset

def Sorting.toValue (s : Sorting) : Value :=
  .object [("direction", Value.keyword s.direction), ("sortOrder", .ofUInt64 s.order)]

def Column.toValue (c : Column) : Value :=
  .object <|
    c.key.members ++ [("selected", .bool c.selected)] ++
      Json.memberOf "accumulator" Value.keyword c.accumulator? ++
      Json.memberOf "window" Window.toValue c.window? ++
      Json.memberOf "sort" Sorting.toValue c.sort ++
      Json.memberOf "filter" Predicate.toValue c.filter ++
      Json.memberOf "having" Predicate.toValue c.having ++
      Json.memberOf "alias" .string c.rawAlias ++
      Json.memberOf "expression" .string c.rawExpression

def SortKey.toValue (k : SortKey) : Value :=
  .object [("path", .string k.path), ("direction", Value.keyword k.direction)]

namespace StageBody

def typeName : StageBody → String
  | .unwind .. => "unwind"
  | .addFields _ => "addFields"
  | .set _ => "set"
  | .group _ => "group"
  | .sort _ => "sort"
  | .computed .. => "computed"

def members : StageBody → List (String × Value)
  | .unwind path preserveEmpty =>
    [("path", .string path), ("preserveNullAndEmptyArrays", .bool preserveEmpty)]
  | .addFields fields => [("fields", .object fields)]
  | .set fields => [("fields", .object fields)]
  | .group spec => [("spec", .object spec)]
  | .sort keys => [("keys", .array (keys.map (·.toValue)))]
  | .computed field operator args =>
    [("field", .string field), ("operator", .string operator), ("args", .strings args)]

end StageBody

def CustomStage.toValue (s : CustomStage) : Value :=
  .object ([("position", Value.keyword s.position), ("type", .string s.body.typeName)] ++
    s.body.members)

namespace Options

def toValue {Q : Type} (o : Options Q) (sets : List Value) : Value :=
  .object
    [("distinct", .bool o.distinct),
      ("groupByAll", .bool o.groupByAll),
      ("limit", .ofOption .ofUInt64 o.limit),
      ("offset", .ofOption .ofUInt64 o.offset),
      ("joinType", Value.keyword o.joinType),
      ("lookupType", Value.keyword o.lookupType),
      ("customWhere", .ofOption .string o.rawWhere),
      ("setOperations", .array sets),
      ("customStages", .array (o.customStages.map (·.toValue)))]

end Options

def SetOperation.toValue {Q : Type} (s : SetOperation Q) (query : Value) : Value :=
  .object [("type", Value.keyword s.operator), ("all", .bool s.all), ("query", query)]

mutual

def Query.toValue : Query → Value
  | q@⟨_, { setOperations := sets, .. }⟩ =>
    .object
      [("columns", .array (q.columns.map (·.toValue))),
        ("options", q.options.toValue (setValues sets))]

def setValues : List (SetOperation Query) → List Value
  | [] => []
  | s :: rest => SetOperation.toValue s s.query.toValue :: setValues rest

end

def Query.optionsValue (o : Options Query) : Value := o.toValue (setValues o.setOperations)

namespace FieldKey

def entityNames : List String := ["entity", "table", "collection"]

def fieldNames : List String := ["field", "column"]

def ofMembers? : List (Option Document) → Option FieldKey
  | [entity, field] => return ⟨← required string? entity, ← required string? field⟩
  | _ => none

def ofDocument? (d : Document) : Option FieldKey := do
  ofMembers? (← d.record? [entityNames, fieldNames])

end FieldKey

def Predicate.ofDocument? (d : Document) : Option Predicate := do
  match ← d.record? [["operator"], ["value"], ["value2"]] with
  | [operator, value, second] =>
    return ⟨← required keyword? operator, ← optional "" string? value,
      ← optional none (nullable? string?) second⟩
  | _ => none

-- The key stands in the same object.
def OrderKey.ofDocument? (d : Document) : Option OrderKey := do
  match ← d.shared? [["direction"]] with
  | ([direction], left) =>
    return ⟨← FieldKey.ofDocument? (.object left), ← optional .asc keyword? direction⟩
  | _ => none

def Window.ofDocument? (d : Document) : Option Window := do
  match ← d.record? [["function"], ["partitionBy"], ["orderBy"], ["offset"]] with
  | [function, partitionBy, orderBy, offset] =>
    return ⟨← required keyword? function, ← optional [] (list? FieldKey.ofDocument?) partitionBy,
      ← optional [] (list? OrderKey.ofDocument?) orderBy,
      ← optional none (nullable? int64?) offset⟩
  | _ => none

def Sorting.ofDocument? (d : Document) : Option Sorting := do
  match ← d.record? [["direction"], ["sortOrder"]] with
  | [direction, order] => return ⟨← required keyword? direction, ← required uint64? order⟩
  | _ => none

def Aggregation.ofParts : Option Accumulator → Option Window → Aggregation
  -- With an accumulator a window does not count.
  | .some a, _ => .accumulator a
  | .none, .some w => .window w
  | .none, .none => .none

def Column.ofDocument? (d : Document) : Option Column := do
  match ← d.shared? [["selected"], ["accumulator"], ["window"], ["sort"], ["filter"], ["having"],
      ["alias"], ["expression"]] with
  | ([selected, accumulator, window, sort, filter, having, name, expression], left) =>
    return {
      key := ← FieldKey.ofDocument? (.object left)
      selected := ← optional true bool? selected
      aggregation := .ofParts (← optional none (nullable? keyword?) accumulator)
        (← optional none (nullable? Window.ofDocument?) window)
      sort := ← optional none (nullable? Sorting.ofDocument?) sort
      filter := ← optional none (nullable? Predicate.ofDocument?) filter
      having := ← optional none (nullable? Predicate.ofDocument?) having
      rawAlias := ← optional none (nullable? string?) name
      rawExpression := ← optional none (nullable? string?) expression }
  | _ => none

-- Inside a custom stage a word may also be the key of an object that holds `{}`.
def nestedKeyword? {α : Type} [Keyword α] : Document → Option α
  | .object [(s, .object [])] => Keyword.read? s
  | d => keyword? d

def SortKey.ofDocument? (d : Document) : Option SortKey := do
  match ← d.record? [["path"], ["direction"]] with
  | [path, direction] =>
    return ⟨← required string? path, ← optional .asc nestedKeyword? direction⟩
  | _ => none

namespace StageBody

def typeNames : List String := ["unwind", "addFields", "set", "group", "sort", "computed"]

def type? : Document → Option String
  | .string s => if s ∈ typeNames then some s else none
  | .number (.int n) => if 0 ≤ n.val then typeNames[n.val.toNat]? else none
  | _ => none

def ofType? (type : String) (d : Document) : Option StageBody :=
  match type with
  | "unwind" => do
    match ← d.record? [["path"], ["preserveNullAndEmptyArrays"]] with
    | [path, preserveEmpty] =>
      return .unwind (← required string? path) (← optional false bool? preserveEmpty)
    | _ => none
  | "addFields" => do
    match ← d.record? [["fields"]] with
    | [fields] => return .addFields (← required object? fields)
    | _ => none
  | "set" => do
    match ← d.record? [["fields"]] with
    | [fields] => return .set (← required object? fields)
    | _ => none
  | "group" => do
    match ← d.record? [["spec"]] with
    | [spec] => return .group (← required object? spec)
    | _ => none
  | "sort" => do
    match ← d.record? [["keys"]] with
    | [keys] => return .sort (← required (list? SortKey.ofDocument?) keys)
    | _ => none
  | "computed" => do
    match ← d.record? [["field"], ["operator"], ["args"]] with
    | [field, operator, args] =>
      return .computed (← required string? field) (← required string? operator)
        (← optional [] (list? string?) args)
    | _ => none
  | _ => none

def ofMembers? (members : List (String × Document)) : Option StageBody := do
  let type ← required type? (← member? ["type"] members)
  ofType? type (.object (members.filter (·.1 ≠ "type")))

end StageBody

def CustomStage.ofDocument? (d : Document) : Option CustomStage := do
  match ← d.shared? [["position"]] with
  | ([position], left) =>
    return ⟨← optional .afterGroup keyword? position, ← StageBody.ofMembers? left⟩
  | _ => none

namespace Options

def setOperation? {Q : Type} (query? : Document → Option Q) (d : Document) :
    Option (SetOperation Q) := do
  match ← d.record? [["type"], ["all"], ["query"]] with
  | [operator, all, query] =>
    return ⟨← required keyword? operator, ← optional false bool? all, ← required query? query⟩
  | _ => none

def ofDocument? {Q : Type} (query? : Document → Option Q) (d : Document) :
    Option (Options Q) := do
  match ← d.record? [["distinct"], ["groupByAll"], ["limit"], ["offset", "skip"], ["joinType"],
      ["lookupType"], ["customWhere"], ["setOperations"], ["customStages"]] with
  | [distinct, groupByAll, limit, offset, joinType, lookupType, rawWhere, sets, stages] =>
    return {
      distinct := ← optional false bool? distinct
      groupByAll := ← optional false bool? groupByAll
      limit := ← optional none (nullable? uint64?) limit
      offset := ← optional none (nullable? uint64?) offset
      joinType := ← optional .inner keyword? joinType
      lookupType := ← optional .unwind keyword? lookupType
      rawWhere := ← optional none (nullable? string?) rawWhere
      setOperations := ← optional [] (list? (setOperation? query?)) sets
      customStages := ← optional [] (list? CustomStage.ofDocument?) stages }
  | _ => none

end Options

namespace Query

-- `fuel` bounds how many queries stand inside one another.
def within? : Nat → Document → Option Query
  | 0, _ => none
  | fuel + 1, d => do
    match ← d.record? [["columns"], ["options"]] with
    | [columns, options] =>
      return ⟨← optional [] (list? Column.ofDocument?) columns,
        ← optional .default (Options.ofDocument? (within? fuel)) options⟩
    | _ => none

-- A query inside another one is also deeper in the document, so its depth is enough fuel.
def ofDocument? (d : Document) : Option Query := within? (d.depth + 1) d

def optionsOfDocument? (d : Document) : Option (Options Query) :=
  Options.ofDocument? (within? (d.depth + 1)) d

def read? (text : String) : Option Query := (Document.read? text).bind ofDocument?

end Query

end QueryBuilder
