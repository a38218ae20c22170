import QueryBuilder.Proofs.Pipeline.Naming
import QueryBuilder.Proofs.Sql.Scope

set_option autoImplicit false

namespace QueryBuilder

-- A count is one of rows here, whatever it is said to count.
def WindowFunction.readsOperand (f : WindowFunction) : Bool := f.takesArgument && f != .count

def Column.operandKeys (c : Column) : List FieldKey :=
  if c.expression?.isSome then [] else [c.key]

def Column.windowReads (c : Column) : List FieldKey :=
  match c.window? with
  | some w => Query.windowKeys w ++ if w.function.readsOperand then c.operandKeys else []
  | none => []

def Column.groupReads (c : Column) : List FieldKey :=
  match c.aggregation with
  | .none => c.operandKeys
  | .accumulator a => if a = .count then [] else c.operandKeys
  | .window _ => []

def Column.sortReads (c : Column) : List FieldKey :=
  if c.sort.isSome && (!c.selected || c.aggregation == .none) then [c.key] else []

def Column.projectReads (c : Column) : List FieldKey :=
  if c.aggregation == .none then c.operandKeys else []

namespace Column

theorem operandKeys_subset (c : Column) : c.operandKeys ⊆ [c.key] := by
  unfold operandKeys
  split <;> simp

theorem groupReads_subset (c : Column) : c.groupReads ⊆ [c.key] := by
  unfold groupReads
  split
  · exact c.operandKeys_subset
  · split
    · exact List.nil_subset _
    · exact c.operandKeys_subset
  · exact List.nil_subset _

theorem sortReads_subset (c : Column) : c.sortReads ⊆ [c.key] := by
  unfold sortReads
  split <;> simp

theorem projectReads_subset (c : Column) : c.projectReads ⊆ [c.key] := by
  unfold projectReads
  split
  · exact c.operandKeys_subset
  · exact List.nil_subset _

end Column

namespace Query

-- The fields that are looked at when all windows have been computed.
def readAtEnd (q : Query) : List FieldKey :=
  if Pipeline.isGrouped q then q.selected.flatMap Column.groupReads
  else q.columns.flatMap Column.sortReads ++ q.selected.flatMap Column.projectReads

theorem windowReads_subset (q : Query) {c : Column} (shown : c ∈ q.selected) :
    c.windowReads ⊆ q.keys := by
  have own : c.operandKeys ⊆ q.keys := by
    apply List.Subset.trans c.operandKeys_subset
    simpa using Sql.key_mem_keys (List.mem_filter.mp shown).1
  unfold Column.windowReads
  split
  · next w agg =>
    apply List.append_subset.mpr
    constructor
    · intro k mem
      refine List.mem_append_right _ (List.mem_flatMap.mpr ⟨w, ?_, mem⟩)
      exact List.mem_filterMap.mpr ⟨c, shown, agg⟩
    · split
      · exact own
      · exact List.nil_subset _
  · exact List.nil_subset _

theorem readAtEnd_subset (q : Query) : q.readAtEnd ⊆ q.keys := by
  have gather {reads : Column → List FieldKey} (within : ∀ c, reads c ⊆ [c.key])
      {columns : List Column} (some : columns ⊆ q.columns) : columns.flatMap reads ⊆ q.keys := by
    intro k mem
    obtain ⟨c, here, mem⟩ := List.mem_flatMap.mp mem
    rw [List.mem_singleton.mp (within c mem)]
    exact Sql.key_mem_keys (some here)
  have shown : q.selected ⊆ q.columns := List.filter_subset_self _
  unfold readAtEnd
  split
  · exact gather Column.groupReads_subset shown
  · apply List.append_subset.mpr
    exact ⟨gather Column.sortReads_subset (List.Subset.refl _),
      gather Column.projectReads_subset shown⟩

end Query

namespace Pipeline

theorem dollar_injective {a b : String} (same : "$" ++ a = "$" ++ b) : a = b := by
  have chars := congrArg String.toList same
  simp only [String.toList_append, List.append_cancel_left_eq] at chars
  exact String.toList_injective chars

def Operand.paths : Operand → List String
  | .path p => [p]
  | .value _ => []

def Reduction.paths : Reduction → List String
  | .accumulate .count _ => []
  | .accumulate _ o | .first o => o.paths

def GroupId.paths : GroupId → List String
  | .all => []
  | .one path => [path]
  | .several keys => keys.map Prod.snd

def WindowStage.paths (w : WindowStage) : List String :=
  w.partition ++ w.order.map Prod.fst ++
    if w.window.function.readsOperand then w.operand.paths else []

-- An operand that is not read does not show in the stage.
theorem WindowStage.render_operand {w : WindowStage}
    (rows : w.window.function.readsOperand = false) (o : Operand) :
    { w with operand := o }.render = w.render := by
  have same : computed w.window o.render = computed w.window w.operand.render := by
    unfold computed
    cases f : w.window.function with
    | rowNumber | rank | denseRank | count => rfl
    | _ => simp [f, WindowFunction.readsOperand, WindowFunction.takesArgument] at rows
  simp only [render, same]

def Projected.paths (shown : String) : Projected → List String
  | .kept => [shown]
  | .path p => [p]
  | .value _ => []

def Place.readsFields : Place → Bool
  | .window | .group | .sort | .project => true
  | _ => false

def Stage.reads : Stage → List String
  | .window w => w.paths
  | .group id fields => id.paths ++ fields.flatMap (·.2.paths)
  | .sort keys => keys.map Prod.fst
  | .project entries => entries.flatMap fun e => e.2.paths e.1
  | _ => []

inductive Reading where
  | source (key : FieldKey)
  | result (path : String)

def Reading.path (root : String) : Reading → String
  | .source key => fieldPath root key
  | .result path => path

structure Reader where
  stage : Stage
  readings : List Reading

def windowReader? (root : String) (o : Output) : Option Reader :=
  (windowStage? root o).map fun stage => ⟨stage, o.column.windowReads.map .source⟩

def reductionReadings (o : Output) : List Reading :=
  match o.role with
  | .accumulator a => if a = .count then [] else o.column.operandKeys.map .source
  | .window _ => [.result o.name]
  | .groupKey | .expression _ | .field => []

def groupReadings (os : List Output) : List Reading :=
  (groupKeyOutputs os).map (.source ·.column.key) ++ os.flatMap reductionReadings

def sortReading? (grouped : Bool) (os : List Output) (c : Column) : Option Reading :=
  match outputOf? os c.key with
  | some o =>
    some <|
      match o.role with
      | .groupKey => .result (groupKeyPath os o.name)
      | .accumulator _ | .window _ => .result o.name
      | .expression _ => if grouped then .result o.name else .source c.key
      | .field => .source c.key
  | none => if grouped then none else some (.source c.key)

def sortReadings (q : Query) (os : List Output) : List Reading :=
  q.sortedColumns.filterMap fun c => sortReading? (isGrouped q) os c.1

def projectReadings (grouped : Bool) (os : List Output) (o : Output) : List Reading :=
  match o.role with
  | .groupKey => [.result (groupKeyPath os o.name)]
  | .field => [.source o.column.key]
  | .expression _ => if grouped then [.result o.name] else []
  | .accumulator _ | .window _ => [.result o.name]

def lateReaders (q : Query) (p : Pipeline) : List Reader :=
  let os := outputs p.collection (isGrouped q) q
  (stagesAt .group p.stages).map (⟨·, groupReadings os⟩) ++
    (stagesAt .sort p.stages).map (⟨·, sortReadings q os⟩) ++
    (stagesAt .project p.stages).map (⟨·, os.flatMap (projectReadings (isGrouped q) os)⟩)

def readers (q : Query) (p : Pipeline) : List Reader :=
  (outputs p.collection (isGrouped q) q).filterMap (windowReader? p.collection) ++
    lateReaders q p

-- Whether an output, which is not a field of the documents, has its result at a path.
def Output.IsAt (o : Output) (os : List Output) (path : String) : Prop :=
  o.isField = false ∧ (path = o.name ∨ path = groupKeyPath os o.name)

-- The stages that look at fields, all of them, each with all that it looks at.
structure Accounts (q : Query) (p : Pipeline) (rs : List Reader) : Prop where
  stages : rs.map (·.stage) = p.stages.filter (·.place?.any Place.readsFields)
  readings : ∀ r ∈ rs, r.stage.reads = r.readings.map (Reading.path p.collection)
  sources : ∀ r ∈ rs, ∀ k, .source k ∈ r.readings → k ∈ q.keys
  results : ∀ r ∈ rs, ∀ path, .result path ∈ r.readings →
    ∃ o ∈ outputs p.collection (isGrouped q) q,
      o.IsAt (outputs p.collection (isGrouped q) q) path

section

variable {root : String} {grouped : Bool} {q : Query} {o : Output} {c : Column}

theorem paths_operand (root : String) (c : Column) :
    (Operand.ofColumn root c).paths = c.operandKeys.map (fieldPath root) := by
  unfold Operand.ofColumn Column.operandKeys
  cases c.expression? <;> rfl

theorem map_path_source (root : String) (keys : List FieldKey) :
    (keys.map Reading.source).map (Reading.path root) = keys.map (fieldPath root) :=
  List.map_map

theorem windowStage_eq (h : o ∈ outputs root grouped q) :
    windowStage? root o = o.column.window?.map fun w =>
      .window
        { window := w
          partition := w.partitionBy.map (fieldPath root)
          order := w.orderBy.map fun k => (fieldPath root k.key, k.direction)
          operand := .ofColumn root o.column
          name := o.name } := by
  unfold windowStage? Column.window?
  rcases role_cases h with ⟨a, role, agg⟩ | ⟨w, role, agg⟩ | ⟨text, role, agg, -⟩ |
    ⟨role, agg, -⟩
  · simp [role, agg]
  · simp [role, agg]
  · simp [role, agg]
  · cases grouped <;> simp [role, agg]

theorem reads_window {stage : Stage} (h : o ∈ outputs root grouped q)
    (made : windowStage? root o = some stage) :
    stage.reads = o.column.windowReads.map (fieldPath root) := by
  rw [windowStage_eq h] at made
  obtain ⟨w, agg, rfl⟩ := Option.map_eq_some_iff.mp made
  simp only [Stage.reads, WindowStage.paths, Column.windowReads, agg, Query.windowKeys,
    List.map_append, List.map_map, paths_operand]
  cases w.function.readsOperand <;> rfl

theorem paths_groupId (root : String) (os : List Output) :
    (groupId root os).paths = (groupKeyOutputs os).map fun o => fieldPath root o.column.key := by
  unfold groupId
  match groupKeyOutputs os with
  | [] | [o] => rfl
  | o :: o' :: others => exact List.map_map

theorem paths_accumulate (root : String) (a : Accumulator) (c : Column) :
    (Reduction.accumulate a (.ofColumn root c)).paths =
      if a = .count then [] else c.operandKeys.map (fieldPath root) := by
  rw [← paths_operand]
  cases a <;> rfl

theorem paths_reduction (root : String) (o : Output) :
    (reduction? root o).toList.flatMap (·.2.paths) =
      (reductionReadings o).map (Reading.path root) := by
  cases role : o.role with
  | groupKey | field => simp [reduction?, reductionReadings, role]
  | window w =>
    simp [reduction?, reductionReadings, role, Reduction.paths, Operand.paths, Reading.path]
  | expression text => simp [reduction?, reductionReadings, role, Reduction.paths, Operand.paths]
  | accumulator a =>
    by_cases count : a = .count <;>
      simp [reduction?, reductionReadings, role, paths_accumulate, count, Function.comp_def,
        Reading.path]

theorem paths_reductions (root : String) (os : List Output) :
    (os.filterMap (reduction? root)).flatMap (·.2.paths) =
      (os.flatMap reductionReadings).map (Reading.path root) := by
  induction os with
  | nil => rfl
  | cons o os ih =>
    rw [List.flatMap_cons, List.map_append, ← ih, ← paths_reduction]
    cases made : reduction? root o <;> simp [made]

theorem sortPath_eq (root : String) (grouped : Bool) (os : List Output) (c : Column) :
    sortPath? root grouped os c = (sortReading? grouped os c).map (Reading.path root) := by
  unfold sortPath? sortReading?
  cases outputOf? os c.key with
  | none => cases grouped <;> rfl
  | some o => cases role : o.role <;> cases grouped <;> simp [role, Reading.path]

theorem paths_sortKeys (root : String) (q : Query) (os : List Output) :
    (sortKeys root (isGrouped q) os q).map Prod.fst =
      (sortReadings q os).map (Reading.path root) := by
  unfold sortKeys sortReadings
  rw [List.map_filterMap, List.map_filterMap]
  congr 1
  funext c
  rw [sortPath_eq]
  cases sortReading? (isGrouped q) os c.1 <;> rfl

theorem paths_projected (os : List Output) (h : o ∈ outputs root grouped q) :
    (projected grouped os o).paths o.shown =
      (projectReadings grouped os o).map (Reading.path root) := by
  cases role : o.role with
  | groupKey => simp [projected, projectReadings, role, Projected.paths, Reading.path]
  | field =>
    have reads : (projectReadings grouped os o).map (Reading.path root) = [o.name] := by
      simp [projectReadings, role, Reading.path, name_field h role]
    rw [reads]
    by_cases same : o.shown = o.name <;> simp [projected, role, same, Projected.paths]
  | expression text =>
    have shown := shown_eq_name h (by simp [role]) (by simp [role])
    cases grouped <;> simp [projected, projectReadings, role, shown, Projected.paths, Reading.path]
  | accumulator a | window w =>
    have shown := shown_eq_name h (by simp [role]) (by simp [role])
    simp [projected, projectReadings, role, shown, Projected.paths, Reading.path]

theorem paths_projectEntries (root : String) (grouped : Bool) (q : Query) :
    (projectEntries grouped (outputs root grouped q)).flatMap (fun e => e.2.paths e.1) =
      ((outputs root grouped q).flatMap
        (projectReadings grouped (outputs root grouped q))).map (Reading.path root) := by
  rw [projectEntries, List.flatMap_map, List.map_flatMap]
  exact List.flatMap_congr fun o mem => paths_projected _ mem

theorem source_reductionReadings {k : FieldKey} (h : o ∈ outputs root true q) :
    o.isGroupKey = true ∧ o.column.key = k ∨ .source k ∈ reductionReadings o ↔
      k ∈ o.column.groupReads := by
  unfold Output.isGroupKey reductionReadings Column.groupReads Column.operandKeys
  rcases role_cases h with ⟨a, role, agg⟩ | ⟨w, role, agg⟩ | ⟨text, role, agg, own⟩ |
    ⟨role, agg, own⟩
  · simp [role, agg]
  · simp [role, agg]
  · simp [role, agg, own]
  · simp [role, agg, own, eq_comm]

theorem source_projectReadings {k : FieldKey} (os : List Output)
    (h : o ∈ outputs root false q) :
    .source k ∈ projectReadings false os o ↔ k ∈ o.column.projectReads := by
  unfold projectReadings Column.projectReads Column.operandKeys
  rcases role_cases h with ⟨a, role, agg⟩ | ⟨w, role, agg⟩ | ⟨text, role, agg, own⟩ |
    ⟨role, agg, own⟩
  · simp [role, agg]
  · simp [role, agg]
  · simp [role, agg, own]
  · simp [role, agg, own]

theorem source_groupReadings {k : FieldKey} (root : String) (q : Query) :
    .source k ∈ groupReadings (outputs root true q) ↔ k ∈ q.selected.flatMap Column.groupReads := by
  rw [← column_outputs root true q, List.flatMap_map, List.mem_flatMap]
  simp only [groupReadings, groupKeyOutputs, List.mem_append, List.mem_map, List.mem_filter,
    List.mem_flatMap, Reading.source.injEq, and_assoc, ← exists_or, ← and_or_left]
  exact exists_congr fun o => and_congr_right fun mem => source_reductionReadings mem

theorem source_projected {k : FieldKey} (root : String) (q : Query) :
    .source k ∈ (outputs root false q).flatMap (projectReadings false (outputs root false q)) ↔
      k ∈ q.selected.flatMap Column.projectReads := by
  rw [← column_outputs root false q, List.flatMap_map, List.mem_flatMap, List.mem_flatMap]
  exact exists_congr fun o => and_congr_right fun mem => source_projectReadings _ mem

theorem source_sortReading {k : FieldKey} (distinct : (q.columns.map (·.key)).Nodup)
    (mem : c ∈ q.columns) (sorted : c.sort.isSome = true) :
    sortReading? false (outputs root false q) c = some (.source k) ↔ k ∈ c.sortReads := by
  have shown := outputOf_isSome_iff distinct mem root false
  unfold sortReading? Column.sortReads
  cases found : outputOf? (outputs root false q) c.key with
  | none =>
    have hidden : c.selected = false := by simpa [found] using shown
    simp [sorted, hidden, eq_comm]
  | some o =>
    have selected : c.selected = true := shown.mp (by rw [found, Option.isSome_some])
    obtain rfl := column_outputOf distinct mem found
    rcases role_cases (List.mem_of_find?_eq_some found) with ⟨a, role, agg⟩ | ⟨w, role, agg⟩ |
      ⟨text, role, agg, -⟩ | ⟨role, agg, -⟩
    · simp [role, agg, selected]
    · simp [role, agg, selected]
    · simp [role, agg, sorted, eq_comm]
    · simp [role, agg, sorted, eq_comm]

theorem source_sortReadings {k : FieldKey} (distinct : (q.columns.map (·.key)).Nodup)
    (plain : isGrouped q = false) :
    .source k ∈ sortReadings q (outputs root false q) ↔
      k ∈ q.columns.flatMap Column.sortReads := by
  simp only [sortReadings, plain, List.mem_filterMap, List.mem_flatMap]
  constructor
  · rintro ⟨⟨c, sorting⟩, mem, reads⟩
    obtain ⟨mem, sorted⟩ := Sql.mem_sortedColumns.mp mem
    exact ⟨c, mem, (source_sortReading distinct mem (by simp [sorted])).mp reads⟩
  · rintro ⟨c, mem, reads⟩
    have sorted : c.sort.isSome = true := by
      cases sort : c.sort with
      | none => simp [Column.sortReads, sort] at reads
      | some sorting => rfl
    obtain ⟨sorting, sort⟩ := Option.isSome_iff_exists.mp sorted
    exact ⟨(c, sorting), Sql.mem_sortedColumns.mpr ⟨mem, sort⟩,
      (source_sortReading distinct mem sorted).mpr reads⟩

-- What a group has put out stands under names of its own, so nothing behind it looks for a field.
theorem field_of_grouped (h : o ∈ outputs root true q) : o.role ≠ .field := by
  intro field
  have other := isField_eq_false_of_grouped h
  simp [Output.isField, field] at other

theorem source_not_mem_sortReadings {k : FieldKey} (grouped : isGrouped q = true) :
    .source k ∉ sortReadings q (outputs root true q) := by
  intro mem
  obtain ⟨c, -, reads⟩ := List.mem_filterMap.mp mem
  unfold sortReading? at reads
  split at reads
  · next o found =>
    have other := field_of_grouped (List.mem_of_find?_eq_some found)
    cases role : o.role with
    | field => exact absurd role other
    | _ => simp [role, grouped] at reads
  · simp [grouped] at reads

theorem source_not_mem_projected {k : FieldKey} (root : String) (q : Query) :
    .source k ∉ (outputs root true q).flatMap (projectReadings true (outputs root true q)) := by
  intro mem
  obtain ⟨o, here, reads⟩ := List.mem_flatMap.mp mem
  have other := field_of_grouped here
  cases role : o.role with
  | field => exact absurd role other
  | _ => simp [projectReadings, role] at reads

end

section

variable {grouped : Bool} {os : List Output} {o : Output} {path : String}

theorem isAt_name (other : o.role ≠ .field) (same : path = o.name) : o.IsAt os path :=
  ⟨Output.isField_eq_false other, .inl same⟩

theorem isAt_groupKey (key : o.role = .groupKey) (same : path = groupKeyPath os o.name) :
    o.IsAt os path :=
  ⟨by simp [Output.isField, key], .inr same⟩

theorem result_reductionReadings (os : List Output)
    (reads : .result path ∈ reductionReadings o) : o.IsAt os path := by
  unfold reductionReadings at reads
  cases role : o.role with
  | groupKey | expression text | field => simp [role] at reads
  | accumulator a => by_cases count : a = .count <;> simp [role, count] at reads
  | window w => exact isAt_name (by simp [role]) (by simpa [role] using reads)

theorem result_sortReading {c : Column}
    (reads : sortReading? grouped os c = some (.result path)) : ∃ o ∈ os, o.IsAt os path := by
  unfold sortReading? at reads
  cases found : outputOf? os c.key with
  | none => cases grouped <;> simp [found] at reads
  | some o =>
    refine ⟨o, List.mem_of_find?_eq_some found, ?_⟩
    cases role : o.role with
    | groupKey => exact isAt_groupKey role (by simpa [found, role, eq_comm] using reads)
    | accumulator a | window w =>
      exact isAt_name (by simp [role]) (by simpa [found, role, eq_comm] using reads)
    | expression text =>
      cases grouped with
      | true => exact isAt_name (by simp [role]) (by simpa [found, role, eq_comm] using reads)
      | false => simp [found, role] at reads
    | field => simp [found, role] at reads

theorem result_projectReadings (reads : .result path ∈ projectReadings grouped os o) :
    o.IsAt os path := by
  unfold projectReadings at reads
  cases role : o.role with
  | groupKey => exact isAt_groupKey role (by simpa [role] using reads)
  | accumulator a | window w => exact isAt_name (by simp [role]) (by simpa [role] using reads)
  | expression text =>
    cases grouped with
    | true => exact isAt_name (by simp [role]) (by simpa [role] using reads)
    | false => simp [role] at reads
  | field => simp [role] at reads

end

section

variable {s : Schema} {q : Query} {p : Pipeline}

theorem exists_reading {stages : List Stage} {readings : List Reading} {x : Reading} :
    (∃ r ∈ stages.map (Reader.mk · readings), x ∈ r.readings) ↔ stages ≠ [] ∧ x ∈ readings := by
  cases stages <;> simp

theorem sort_of_reading (h : pipeline? s q = some p) {x : Reading}
    (mem : x ∈ sortReadings q (outputs p.collection (isGrouped q) q)) :
    stagesAt .sort p.stages ≠ [] := by
  have keys := List.mem_map_of_mem (f := Reading.path p.collection) mem
  rw [← paths_sortKeys] at keys
  rw [stagesAt_stages h, generated, sortStages]
  split
  · next empty =>
    rw [List.isEmpty_iff.mp empty] at keys
    cases keys
  · exact List.cons_ne_nil _ _

theorem project_of_output (h : pipeline? s q = some p) (plain : isGrouped q = false) {o : Output}
    (mem : o ∈ outputs p.collection (isGrouped q) q) : stagesAt .project p.stages ≠ [] := by
  have some : (outputs p.collection (isGrouped q) q).isEmpty = false := by
    simpa using List.ne_nil_of_mem mem
  rw [stagesAt_stages h, generated, projectStages, some, plain]
  exact List.cons_ne_nil _ _

theorem mem_readAtEnd (h : pipeline? s q = some p) (distinct : (q.columns.map (·.key)).Nodup)
    {k : FieldKey} :
    (∃ r ∈ lateReaders q p, .source k ∈ r.readings) ↔ k ∈ q.readAtEnd := by
  have groups : stagesAt .group p.stages ≠ [] ↔ isGrouped q = true := by
    rw [stagesAt_stages h, generated]
    split
    · next grouped => simp [grouped]
    · next plain => simp [plain]
  have sorts := sort_of_reading h (x := .source k)
  simp only [lateReaders, List.mem_append, or_and_right, exists_or, exists_reading, groups]
  unfold Query.readAtEnd
  cases grouped : isGrouped q with
  | true =>
    simp only [source_groupReadings, source_not_mem_sortReadings grouped,
      source_not_mem_projected, true_and, and_false, or_false, if_true]
  | false =>
    have projects : .source k ∈ (outputs p.collection false q).flatMap
        (projectReadings false (outputs p.collection false q)) →
          stagesAt .project p.stages ≠ [] := by
      intro mem
      obtain ⟨o, here, -⟩ := List.mem_flatMap.mp mem
      exact project_of_output h grouped (grouped ▸ here)
    rw [grouped] at sorts
    rw [and_iff_right_of_imp sorts, and_iff_right_of_imp projects,
      source_sortReadings distinct grouped, source_projected]
    simp

theorem map_stage_readers (h : pipeline? s q = some p) :
    (readers q p).map (·.stage) = p.stages.filter (·.place?.any Place.readsFields) := by
  have windows : ((outputs p.collection (isGrouped q) q).filterMap
      (windowReader? p.collection)).map (·.stage) = stagesAt .window p.stages := by
    rw [stagesAt_stages h, generated, List.map_filterMap]
    congr 1
    funext o
    cases made : windowStage? p.collection o <;> simp [windowReader?, made]
  rw [readers, List.map_append, windows, filter_stages h]
  simp [lateReaders, Function.comp_def, Place.all, Place.readsFields, stagesAt_stages h]

theorem reads_readers (h : pipeline? s q = some p) {r : Reader} (mem : r ∈ readers q p) :
    r.stage.reads = r.readings.map (Reading.path p.collection) := by
  simp only [readers, lateReaders, List.mem_append, List.mem_filterMap, List.mem_map,
    stagesAt_stages h] at mem
  rcases mem with ⟨o, here, made⟩ | (⟨stage, made, rfl⟩ | ⟨stage, made, rfl⟩) | ⟨stage, made, rfl⟩
  · obtain ⟨stage, window, rfl⟩ := Option.map_eq_some_iff.mp made
    rw [reads_window here window, map_path_source]
  · simp only [generated] at made
    split at made
    · rw [List.mem_singleton.mp made, Stage.reads, paths_groupId, paths_reductions, groupReadings,
        List.map_append, List.map_map]
      rfl
    · cases made
  · simp only [generated, sortStages] at made
    split at made
    · cases made
    · rw [List.mem_singleton.mp made, Stage.reads, paths_sortKeys]
  · simp only [generated, projectStages] at made
    split at made
    · rw [List.mem_singleton.mp made, Stage.reads, paths_projectEntries]
    · cases made

theorem source_mem_keys (distinct : (q.columns.map (·.key)).Nodup) (h : pipeline? s q = some p)
    {r : Reader} (mem : r ∈ readers q p) {k : FieldKey} (reads : .source k ∈ r.readings) :
    k ∈ q.keys := by
  rcases List.mem_append.mp mem with window | late
  · obtain ⟨o, here, made⟩ := List.mem_filterMap.mp window
    obtain ⟨stage, -, rfl⟩ := Option.map_eq_some_iff.mp made
    obtain ⟨k', mem, same⟩ := List.mem_map.mp reads
    cases same
    exact q.windowReads_subset (column_mem_selected here) mem
  · exact q.readAtEnd_subset ((mem_readAtEnd h distinct).mp ⟨r, late, reads⟩)

theorem result_mem_outputs {r : Reader} (mem : r ∈ readers q p) {path : String}
    (reads : .result path ∈ r.readings) :
    ∃ o ∈ outputs p.collection (isGrouped q) q,
      o.IsAt (outputs p.collection (isGrouped q) q) path := by
  simp only [readers, lateReaders, List.mem_append, List.mem_filterMap, List.mem_map] at mem
  rcases mem with ⟨o, here, made⟩ | (⟨stage, -, rfl⟩ | ⟨stage, -, rfl⟩) | ⟨stage, -, rfl⟩
  · obtain ⟨stage, -, rfl⟩ := Option.map_eq_some_iff.mp made
    simp at reads
  · rcases List.mem_append.mp reads with key | reads
    · simp at key
    · obtain ⟨o, here, reads⟩ := List.mem_flatMap.mp reads
      exact ⟨o, here, result_reductionReadings _ reads⟩
  · obtain ⟨c, -, reads⟩ := List.mem_filterMap.mp reads
    exact result_sortReading reads
  · obtain ⟨o, here, reads⟩ := List.mem_flatMap.mp reads
    exact ⟨o, here, result_projectReadings reads⟩

theorem readers_account (h : pipeline? s q = some p) (distinct : (q.columns.map (·.key)).Nodup) :
    Accounts q p (readers q p) where
  stages := map_stage_readers h
  readings := fun _ => reads_readers h
  sources := fun _ mem _ => source_mem_keys distinct h mem
  results := fun _ mem _ => result_mem_outputs mem

end

end Pipeline

end QueryBuilder
