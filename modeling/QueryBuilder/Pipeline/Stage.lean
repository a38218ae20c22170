import QueryBuilder.Pipeline.Condition
import QueryBuilder.Query.Basic

set_option autoImplicit false

namespace QueryBuilder.Pipeline

open Json (Value Object)

def reference (path : String) : String := "$" ++ path

inductive Operand where
  | path (path : String)
  | value (v : Value)

def Operand.render : Operand → Value
  | .path p => .string (reference p)
  | .value v => v

inductive GroupId where
  | all
  | one (path : String)
  | several (keys : List (String × String))

inductive Reduction where
  | accumulate (a : Accumulator) (o : Operand)
  | first (o : Operand)

structure WindowStage where
  window : Window
  partition : List String
  order : List (String × SortDirection)
  operand : Operand
  name : String

inductive Projected where
  | kept
  | path (path : String)
  | value (v : Value)

inductive Stage where
  -- The documents of `entity` whose `foreignField` equals what is at `localPath`.
  | lookup (entity localPath foreignField : String)
  | lookupAll (entity : String)
  | unwind (entity : String) (preserveEmpty : Bool)
  | filter (clauses : List Object)
  | window (w : WindowStage)
  | group (id : GroupId) (fields : List (String × Reduction))
  | sizes (names : List String)
  | having (clauses : List Object)
  | sort (keys : List (String × SortDirection))
  | skip (n : UInt64)
  | limit (n : UInt64)
  | project (entries : List (String × Projected))
  | custom (body : StageBody)
  | union (collection : String) (stages : List Stage)

def directionValue : SortDirection → Value
  | .asc => .ofInt64 1
  | .desc => .ofInt64 (-1)

-- The keys in order. A repeated one keeps its first place and takes its last direction.
def sortObject (keys : List (String × SortDirection)) : Object :=
  Object.ofMembers (keys.map fun k => (k.1, directionValue k.2))

def expressionValue (text : String) : Value :=
  (Value.read? (Text.trim text)).getD (.string (Text.trim text))

def unwindValue (path : String) (preserveEmpty : Bool) : Value :=
  .single "$unwind" <|
    if preserveEmpty then
      .object [("path", .string path), ("preserveNullAndEmptyArrays", .bool true)]
    else .string path

def accumulated : Accumulator → Value → Value
  | .count, _ => .single "$sum" (.ofInt64 1)
  | .countDistinct, v => .single "$addToSet" v
  | .addToSet, v => .single "$addToSet" v
  | .sum, v => .single "$sum" v
  | .avg, v => .single "$avg" v
  | .min, v => .single "$min" v
  | .max, v => .single "$max" v
  | .stdDevPop, v => .single "$stdDevPop" v
  | .stdDevSamp, v => .single "$stdDevSamp" v
  | .push, v => .single "$push" v
  | .first, v => .single "$first" v
  | .last, v => .single "$last" v

def Reduction.render : Reduction → Value
  | .accumulate a o => accumulated a o.render
  | .first o => .single "$first" o.render

def GroupId.render : GroupId → Value
  | .all => .null
  | .one path => .string (reference path)
  | .several keys => .object (Object.ofMembers (keys.map fun k => (k.1, .string (reference k.2))))

def groupObject (id : GroupId) (fields : List (String × Reduction)) : Object :=
  Object.ofMembers (("_id", id.render) :: fields.map fun f => (f.1, f.2.render))

def Projected.render : Projected → Value
  | .kept => .ofInt64 1
  | .path p => .string (reference p)
  | .value v => v

def projectObject (entries : List (String × Projected)) : Object :=
  Object.ofMembers (("_id", .ofInt64 0) :: entries.map fun e => (e.1, e.2.render))

namespace WindowStage

def underscored (path : String) : String :=
  String.ofList (path.toList.map fun c => if c = '.' then '_' else c)

def partitionMembers : List String → List (String × Value)
  | [] => []
  | [path] => [("partitionBy", .string (reference path))]
  | paths =>
    [("partitionBy",
      .object (Object.ofMembers (paths.map fun p => (underscored p, .string (reference p)))))]

def shift (v : Value) (places : Int64) : Object :=
  [("$shift", .object [("output", v), ("by", .ofInt64 places), ("default", .null)])]

-- What the function computes, and whether it looks at the order alone.
def computed (w : Window) (v : Value) : Object × Bool :=
  let places := w.offset.getD 1
  match w.function with
  | .rowNumber => ([("$documentNumber", .object [])], true)
  | .rank => ([("$rank", .object [])], true)
  | .denseRank => ([("$denseRank", .object [])], true)
  | .lag => (shift v (-places), true)
  | .lead => (shift v places, true)
  | .firstValue => ([("$first", v)], false)
  | .lastValue => ([("$last", v)], false)
  | .sum => ([("$sum", v)], false)
  | .avg => ([("$avg", v)], false)
  | .count => ([("$count", .object [])], false)
  | .min => ([("$min", v)], false)
  | .max => ([("$max", v)], false)

def frame (sorted orderedOnly : Bool) : Object :=
  -- With an order a function runs up to the current row, as it does in SQL.
  if sorted && !orderedOnly then
    [("window", .single "documents" (.strings ["unbounded", "current"]))]
  else []

def render (s : WindowStage) : Value :=
  let (output, orderedOnly) := computed s.window s.operand.render
  let sorted := !s.order.isEmpty
  .object <|
    partitionMembers s.partition ++
      (if sorted then [("sortBy", .object (sortObject s.order))] else []) ++
      [("output", .single s.name (.object (output ++ frame sorted orderedOnly)))]

end WindowStage

def dollar (path : String) : String := if Text.hasInitial '$' path then path else "$" ++ path

def undollar (path : String) : String := String.ofList (path.toList.dropWhile (· = '$'))

def customValue : StageBody → Value
  | .unwind path preserveEmpty => unwindValue (dollar path) preserveEmpty
  | .addFields fields => .single "$addFields" (.object fields)
  | .set fields => .single "$set" (.object fields)
  | .group spec => .single "$group" (.object spec)
  | .sort keys =>
    .single "$sort" (.object (sortObject (keys.map fun k => (undollar k.path, k.direction))))
  | .computed field operator args =>
    .single "$addFields"
      (.single field (.single (dollar operator) (.array (args.map expressionValue))))

def sizesObject (names : List String) : Object :=
  Object.ofMembers (names.map fun n => (n, .single "$size" (.string (reference n))))

mutual

def Stage.render : Stage → Value
  | .lookup entity localPath foreignField =>
    .single "$lookup" <| .object
      [("from", .string entity), ("localField", .string localPath),
        ("foreignField", .string foreignField), ("as", .string entity)]
  | .lookupAll entity =>
    .single "$lookup" <| .object
      [("from", .string entity), ("pipeline", .array []), ("as", .string entity)]
  | .unwind entity preserveEmpty => unwindValue (reference entity) preserveEmpty
  | .filter clauses => .single "$match" (.object (merge clauses))
  | .window w => .single "$setWindowFields" w.render
  | .group id fields => .single "$group" (.object (groupObject id fields))
  | .sizes names => .single "$addFields" (.object (sizesObject names))
  | .having clauses => .single "$match" (.object (merge clauses))
  | .sort keys => .single "$sort" (.object (sortObject keys))
  | .skip n => .single "$skip" (.ofUInt64 n)
  | .limit n => .single "$limit" (.ofUInt64 n)
  | .project entries => .single "$project" (.object (projectObject entries))
  | .custom body => customValue body
  | .union collection stages =>
    .single "$unionWith" <| .object
      [("coll", .string collection), ("pipeline", .array (renderStages stages))]

def renderStages : List Stage → List Value
  | [] => []
  | s :: rest => s.render :: renderStages rest

end

end QueryBuilder.Pipeline
