import QueryBuilder.Join.Plan
import QueryBuilder.Pipeline.Name
import QueryBuilder.Pipeline.Stage

set_option autoImplicit false

namespace QueryBuilder

structure Pipeline where
  collection : String
  stages : List Pipeline.Stage

namespace Pipeline

open Json (Value Object)

def isGrouped (q : Query) : Bool :=
  q.hasAccumulator || q.options.distinct || q.options.groupByAll

def Operand.ofColumn (root : String) (c : Column) : Operand :=
  match c.expression? with
  | some text => .value (expressionValue text)
  | none => .path (fieldPath root c.key)

-- Rows without a partner are kept by a left and a full join.
def keepsUnmatched : JoinType → Bool
  | .left | .full => true
  | .inner | .right => false

def lookupStage (root : String) : Join → Stage
  | .on step =>
    .lookup step.toEntity (fieldPath root ⟨step.fromEntity, step.fromField⟩) step.toField
  | .cross entity => .lookupAll entity

def lookupStages (root : String) (o : Options Query) (j : Join) : List Stage :=
  lookupStage root j ::
    match o.lookupType with
    | .array => []
    | .unwind => [.unwind j.entity (keepsUnmatched o.joinType)]

def columnClause? (s : Schema) (root : String) (c : Column) : Option Object :=
  c.filter.bind fun p =>
    clause? (fieldPath root c.key) p (s.fieldType? c.key.entity c.key.field)

def customClause? (o : Options Query) : Option Object :=
  o.customWhere?.bind fun text =>
    match Value.read? text with
    | some (.object doc) => some doc
    | _ => none

def matching (stage : List Object → Stage) (clauses : List Object) : List Stage :=
  if (merge clauses).isEmpty then [] else [stage clauses]

def filterStages (s : Schema) (root : String) (q : Query) : List Stage :=
  matching .filter
    (q.columns.filterMap (columnClause? s root) ++ (customClause? q.options).toList)

def windowStage? (root : String) (o : Output) : Option Stage :=
  match o.role with
  | .window w =>
    some <| .window
      { window := w
        partition := w.partitionBy.map (fieldPath root)
        order := w.orderBy.map fun k => (fieldPath root k.key, k.direction)
        operand := .ofColumn root o.column
        name := o.name }
  | _ => none

def groupKeyOutputs (outputs : List Output) : List Output := outputs.filter (·.isGroupKey)

def groupId (root : String) (outputs : List Output) : GroupId :=
  match groupKeyOutputs outputs with
  | [] => .all
  | [o] => .one (fieldPath root o.column.key)
  | keys => .several (keys.map fun o => (o.name, fieldPath root o.column.key))

def reduction? (root : String) (o : Output) : Option (String × Reduction) :=
  match o.role with
  | .accumulator a => some (o.name, .accumulate a (.ofColumn root o.column))
  -- A window is computed before the group, which carries its result through.
  | .window _ => some (o.name, .first (.path o.name))
  | .expression text => some (o.name, .first (.value (expressionValue text)))
  | .groupKey | .field => none

def distinctCount? (o : Output) : Option String :=
  match o.role with
  | .accumulator .countDistinct => some o.name
  | _ => none

def sizesStages (names : List String) : List Stage :=
  if names.isEmpty then [] else [.sizes names]

def groupStages (root : String) (grouped : Bool) (outputs : List Output) : List Stage :=
  if grouped then
    .group (groupId root outputs) (outputs.filterMap (reduction? root)) ::
      sizesStages (outputs.filterMap distinctCount?)
  else []

def outputOf? (outputs : List Output) (key : FieldKey) : Option Output :=
  outputs.find? (·.column.key = key)

def havingClause? (s : Schema) (outputs : List Output) (c : Column) : Option Object := do
  let p ← c.effectiveHaving?
  let a ← c.accumulator?
  let o ← outputOf? outputs c.key
  clause? o.name p (some (a.resultType (s.fieldType? c.key.entity c.key.field)))

def havingStages (s : Schema) (grouped : Bool) (outputs : List Output) (q : Query) :
    List Stage :=
  if grouped then matching .having (q.columns.filterMap (havingClause? s outputs)) else []

def isSingle {α : Type} : List α → Bool
  | [_] => true
  | _ => false

def groupKeyPath (outputs : List Output) (name : String) : String :=
  if isSingle (groupKeyOutputs outputs) then "_id" else "_id." ++ name

def sortPath? (root : String) (grouped : Bool) (outputs : List Output) (c : Column) :
    Option String :=
  match outputOf? outputs c.key with
  | some o =>
    some <|
      match o.role with
      | .groupKey => groupKeyPath outputs o.name
      | .accumulator _ | .window _ => o.name
      -- Unless the pipeline groups, an expression has its value only at the end.
      | .expression _ => if grouped then o.name else fieldPath root c.key
      | .field => fieldPath root c.key
  -- What a group does not put out cannot be sorted by.
  | none => if grouped then none else some (fieldPath root c.key)

def sortKeys (root : String) (grouped : Bool) (outputs : List Output) (q : Query) :
    List (String × SortDirection) :=
  q.sortedColumns.filterMap fun c =>
    (sortPath? root grouped outputs c.1).map (·, c.2.direction)

def sortStages (keys : List (String × SortDirection)) : List Stage :=
  if keys.isEmpty then [] else [.sort keys]

def pagingStages (o : Options Query) : List Stage :=
  (o.offset.map Stage.skip).toList ++ (o.limit.map Stage.limit).toList

def projected (grouped : Bool) (outputs : List Output) (o : Output) : Projected :=
  match o.role with
  | .groupKey => .path (groupKeyPath outputs o.name)
  | .field => if o.shown = o.name then .kept else .path o.name
  | .expression text => if grouped then .kept else .value (expressionValue text)
  | .accumulator _ | .window _ => .kept

def isReshaped (q : Query) : Bool :=
  q.selected.any fun c => c.alias?.isSome || c.expression?.isSome

def projectEntries (grouped : Bool) (outputs : List Output) : List (String × Projected) :=
  outputs.map fun o => (o.shown, projected grouped outputs o)

-- A group has its results under their names already, unless columns are renamed or computed.
def projectStages (grouped : Bool) (outputs : List Output) (q : Query) : List Stage :=
  if (!grouped || isReshaped q) && !outputs.isEmpty then
    [.project (projectEntries grouped outputs)]
  else []

structure Parts where
  lookups : List Stage
  filters : List Stage
  groups : List Stage
  havings : List Stage
  sorts : List Stage
  projects : List Stage
  unions : List Stage

def customStages (o : Options Query) (position : StagePosition) : List Stage :=
  (o.stagesAt position).map .custom

def Parts.assemble (p : Parts) (custom : StagePosition → List Stage) : List Stage :=
  custom .start ++ p.lookups ++ custom .afterLookup ++ p.filters ++ custom .afterMatch ++
    p.groups ++ custom .afterGroup ++ p.havings ++ custom .beforeSort ++ p.sorts ++
    custom .beforeProject ++ p.projects ++ custom .atEnd ++ p.unions

def parts (s : Schema) (root : String) (joins : List Join) (q : Query) : Parts :=
  let grouped := isGrouped q
  let outputs := outputs root grouped q
  { lookups := joins.flatMap (lookupStages root q.options)
    filters := filterStages s root q
    groups := outputs.filterMap (windowStage? root) ++ groupStages root grouped outputs
    havings := havingStages s grouped outputs q
    sorts := sortStages (sortKeys root grouped outputs q) ++ pagingStages q.options
    projects := projectStages grouped outputs q
    unions := [] }

def parts? (s : Schema) (q : Query) : Option (String × Parts) :=
  if q.isEmpty then none
  else
    let plan := (JoinGraph.ofSchema s).plan q.referencedEntities
    plan.root.map fun root => (root, parts s root plan.joins q)

mutual

def pipeline? (s : Schema) : Query → Option Pipeline
  | q@⟨_, { setOperations := sets, .. }⟩ =>
    (parts? s q).map fun p =>
      ⟨p.1, { p.2 with unions := unionStages s sets }.assemble (customStages q.options)⟩

def unionStages (s : Schema) : List (SetOperation Query) → List Stage
  | [] => []
  | ⟨operator, _, q⟩ :: rest =>
    match operator, pipeline? s q with
    -- Only a union has a counterpart, and it keeps duplicates.
    | .union, some p => .union p.collection p.stages :: unionStages s rest
    | _, _ => unionStages s rest

end

end Pipeline

end QueryBuilder
