import QueryBuilder.Proofs.Agreement.Grouping
import QueryBuilder.Proofs.Pipeline.Readers

set_option autoImplicit false

namespace QueryBuilder

open Json (Value Object)

namespace Json

mutual

/-- The fields that a condition on documents tests, read off its members. Under a key that joins
conditions it is theirs. -/
def tested : List (String × Value) → List String
  | [] => []
  | (key, v) :: rest => v.testedUnder key ++ tested rest

def Value.testedUnder (key : String) : Value → List String
  | .array items => if key = "$and" ∨ key = "$or" then testedItems items else [key]
  | _ => [key]

def testedItems : List Value → List String
  | [] => []
  | v :: rest => v.testedWithin ++ testedItems rest

def Value.testedWithin : Value → List String
  | .object members => tested members
  | _ => []

end

theorem tested_append (o o' : Object) : tested (o ++ o') = tested o ++ tested o' := by
  induction o with
  | nil => simp [tested]
  | cons m rest ih => simp [tested, ih]

theorem tested_flatten (clauses : List Object) :
    tested clauses.flatten = clauses.flatMap tested := by
  induction clauses with
  | nil => simp [tested]
  | cons clause rest ih => simp [tested_append, ih]

theorem testedItems_objects (clauses : List Object) :
    testedItems (clauses.map .object) = clauses.flatMap tested := by
  induction clauses with
  | nil => simp [testedItems]
  | cons clause rest ih => simp [testedItems, Value.testedWithin, ih]

end Json

-- A filter on a result is looked up by the key of its column, where a group key may stand instead.
def Query.TestsResults (q : Query) : Prop :=
  ∀ c ∈ q.columns, c.accumulator?.isSome = true → c.having.any (·.isComplete) = true →
    (q.selected.find? (·.key = c.key)).all (!·.isGroupCandidate) = true

theorem Query.testsResults_of_distinct {q : Query} (distinct : (q.columns.map (·.key)).Nodup) :
    q.TestsResults := by
  intro c mem accumulates _
  cases found : q.selected.find? (·.key = c.key) with
  | none => rfl
  | some d =>
    have here := (List.mem_filter.mp (List.mem_of_find?_eq_some found)).1
    obtain rfl := List.inj_on_of_nodup_map distinct here mem (by simpa using List.find?_some found)
    cases agg : d.aggregation with
    | accumulator a => simp [Column.isGroupCandidate, agg]
    | none | window w => simp [Column.accumulator?, agg] at accumulates

namespace Pipeline

open Json (tested)

theorem tested_merge (clauses : List Object) : tested (merge clauses) = clauses.flatMap tested := by
  unfold merge
  split
  · exact Json.tested_flatten clauses
  · simp [tested, Value.testedUnder, Json.testedItems_objects]

theorem tested_clause {path : String} {p : Predicate} {type : Option SemanticType}
    {clause : Object} (made : clause? path p type = some clause) :
    ∀ field ∈ tested clause, field = path := by
  obtain ⟨test, rfl⟩ | ⟨below, above, rfl⟩ := clause_cases made
  · simp [tested, Value.testedUnder]
  · simp [tested, Value.testedUnder, Value.testedWithin, Json.testedItems, Value.single]

/-- The paths that mean something in the documents of a group with a given body, which is made by
`keys`: its key, if it is a single one, a part of its key, if there are several, and its results. -/
inductive Behind (keys : List Column) (body : Object) : String → Prop
  | key (single : keys.length = 1) : Behind keys body "_id"
  | part {parts : Object} {name : String} (several : 2 ≤ keys.length)
      (id : body.get? "_id" = some (.object parts)) (mem : name ∈ Object.keys parts) :
      Behind keys body ("_id." ++ name)
  | result {name : String} (mem : name ∈ Object.keys body) (other : name ≠ "_id") :
      Behind keys body name

-- A stage of the generated ones, written as an operator over a document.
def Stage.Generates (stage : Stage) (operator : String) (body : Object) : Prop :=
  stage.place?.isSome = true ∧ stage.render = .single operator (.object body)

-- Behind a group a path is read by its size, by a test, by a sorting, or to be shown.
def ReadsIn (operator : String) (body : Object) (path : String) : Prop :=
  match operator with
  | "$addFields" => ∃ name, (name, .single "$size" (.string ("$" ++ path))) ∈ body
  | "$match" => path ∈ tested body
  | "$sort" => path ∈ Object.keys body
  | "$project" => (path, .ofInt64 1) ∈ body ∨ ∃ name, (name, .string ("$" ++ path)) ∈ body
  | _ => False

def countedOperand? : String × Reduction → Option Operand
  | (_, .accumulate .countDistinct operand) => some operand
  | _ => none

structure ReadsGroup (root : String) (q : Query) (id : GroupId)
    (fields : List (String × Reduction)) (after : List Stage) : Prop where
  written : (Stage.group id fields).render = .single "$group" (.object (groupObject id fields))
  reads : ∀ stage ∈ after, ∀ operator body, stage.Generates operator body →
    ∀ path, ReadsIn operator body path →
      Behind (q.selected.filter (·.isGroupCandidate)) (groupObject id fields) path
  -- One entry for each count of distinct values, in the order of the columns.
  counts : fields.filterMap countedOperand? =
    (q.selected.filter (·.accumulator? = some .countDistinct)).map (Operand.ofColumn root)
  counted : ∀ name operand, (name, .accumulate .countDistinct operand) ∈ fields →
    (name, .single "$addToSet" operand.render) ∈ groupObject id fields ∧
      ∀ front stage back, after = front ++ stage :: back →
        ∀ operator body, stage.Generates operator body →
          operator ∈ ["$match", "$sort", "$project"] → ∃ names, .sizes names ∈ front ∧ name ∈ names
  -- A set becomes its size once, and nothing else becomes a size.
  sized : (stagesAt .sizes after).length ≤ 1 ∧ ∀ names, .sizes names ∈ after →
    (Stage.sizes names).render = .single "$addFields"
        (.object (names.map fun n => (n, .single "$size" (.string ("$" ++ n))))) ∧
      ∀ name ∈ names, ∃ operand, (name, .accumulate .countDistinct operand) ∈ fields

section

variable {stage : Stage} {operator : String} {body : Object} {path : String}

-- Whether a stage looks at the value of a result, and not only at how many it has collected.
def Place.usesResults : Place → Bool
  | .having | .sort | .project => true
  | _ => false

theorem Stage.Generates.place (generates : stage.Generates operator body)
    (uses : operator ∈ ["$match", "$sort", "$project"]) :
    stage.place? = some .filter ∨ stage.place?.any Place.usesResults = true := by
  obtain ⟨generated, written⟩ := generates
  cases stage with
  | filter => exact .inl rfl
  | having | sort | project => exact .inr rfl
  | custom => cases generated
  | lookup | lookupAll | unwind | window | group | sizes | skip | limit | union =>
    obtain ⟨rfl, -⟩ := Value.single_inj.mp written
    simp at uses

def Stage.readsBehind : Stage → List String
  | .sizes names => names
  | .having clauses => tested (merge clauses)
  | .sort keys => keys.map Prod.fst
  | .project entries => entries.flatMap fun e => e.2.paths e.1
  | _ => []

theorem mem_paths_of_render {shown : String} {x : Projected} (plain : ∀ v, x ≠ .value v)
    (reads : shown = path ∧ x.render = .ofInt64 1 ∨ x.render = .string ("$" ++ path)) :
    path ∈ x.paths shown := by
  cases x with
  | kept =>
    rcases reads with ⟨rfl, -⟩ | refers
    · exact List.mem_singleton_self _
    · cases refers
  | path p =>
    rcases reads with ⟨-, one⟩ | refers
    · cases one
    · exact List.mem_singleton.mpr (dollar_injective (Value.string.inj refers)).symm
  | value v => exact absurd rfl (plain v)

theorem exists_entry {entries : List (String × Projected)} {name : String} {v : Value}
    (mem : (name, v) ∈ projectObject entries) (shown : v ≠ .ofInt64 0) :
    ∃ e ∈ entries, e.1 = name ∧ e.2.render = v := by
  rcases List.mem_cons.mp (Object.mem_of_mem_ofMembers mem) with id | mem
  · exact absurd (congrArg Prod.snd id) shown
  · obtain ⟨e, here, same⟩ := List.mem_map.mp mem
    cases same
    exact ⟨e, here, rfl, rfl⟩

theorem Stage.Generates.mem_readsBehind (generates : stage.Generates operator body)
    (later : stage.place? ≠ some .filter)
    (plain : ∀ entries, stage = .project entries → ∀ e ∈ entries, ∀ v, e.2 ≠ .value v)
    (reads : ReadsIn operator body path) : path ∈ stage.readsBehind := by
  obtain ⟨generated, written⟩ := generates
  cases stage with
  | sizes names =>
    obtain ⟨rfl, same⟩ := Value.single_inj.mp written
    cases same
    obtain ⟨name, mem⟩ := reads
    obtain ⟨n, here, same⟩ := List.mem_map.mp (Object.mem_of_mem_ofMembers mem)
    have refers : reference n = "$" ++ path := by simpa using congrArg Prod.snd same
    exact dollar_injective refers ▸ here
  | having clauses =>
    obtain ⟨rfl, same⟩ := Value.single_inj.mp written
    cases same
    exact reads
  | sort keys =>
    obtain ⟨rfl, same⟩ := Value.single_inj.mp written
    cases same
    obtain ⟨m, mem, rfl⟩ := List.mem_map.mp reads
    obtain ⟨k, here, rfl⟩ := List.mem_map.mp (Object.mem_of_mem_ofMembers mem)
    exact List.mem_map_of_mem here
  | project entries =>
    obtain ⟨rfl, same⟩ := Value.single_inj.mp written
    cases same
    suffices entry : ∃ e ∈ entries,
        e.1 = path ∧ e.2.render = .ofInt64 1 ∨ e.2.render = .string ("$" ++ path) by
      obtain ⟨e, here, reads⟩ := entry
      exact List.mem_flatMap.mpr ⟨e, here, mem_paths_of_render (plain entries rfl e here) reads⟩
    rcases reads with kept | ⟨name, refers⟩
    · obtain ⟨e, here, reads⟩ := exists_entry kept (by simp [Value.ofInt64, Json.Integer.ofInt64])
      exact ⟨e, here, .inl reads⟩
    · obtain ⟨e, here, -, reads⟩ := exists_entry refers (by simp [Value.ofInt64])
      exact ⟨e, here, .inr reads⟩
  | filter => exact absurd rfl later
  | custom => cases generated
  | lookup | lookupAll | unwind | window | group | skip | limit | union =>
    obtain ⟨rfl, -⟩ := Value.single_inj.mp written
    cases reads

end

section

variable {root : String} {q : Query} {o : Output} {path : String}

def Output.placeIn (os : List Output) (o : Output) : String :=
  if o.isGroupKey then groupKeyPath os o.name else o.name

theorem placeIn_of_result (os : List Output) (other : o.isGroupKey = false) :
    o.placeIn os = o.name := by
  simp [Output.placeIn, other]

theorem isSingle_iff {α : Type} {xs : List α} : isSingle xs = true ↔ xs.length = 1 := by
  unfold isSingle
  match xs with
  | [] | [_] | _ :: _ :: _ => simp

theorem groupId_several (root : String) {os : List Output}
    (several : 2 ≤ (groupKeyOutputs os).length) :
    groupId root os =
      .several ((groupKeyOutputs os).map fun o => (o.name, fieldPath root o.column.key)) := by
  unfold groupId
  match keys : groupKeyOutputs os with
  | [] | [_] => simp [keys] at several
  | _ :: _ :: _ => rfl

theorem length_groupKeyOutputs (root : String) (q : Query) :
    (groupKeyOutputs (outputs root true q)).length =
      (q.selected.filter (·.isGroupCandidate)).length := by
  rw [← column_outputs root true q, List.filter_map, List.length_map, groupKeyOutputs,
    List.filter_congr fun o => isGroupKey_outputs]
  rfl

theorem keys_groupObject (root : String) (q : Query) (id : GroupId) :
    Object.keys (groupObject id ((outputs root true q).filterMap (reduction? root))) =
      "_id" :: ((outputs root true q).filter (!·.isGroupKey)).map (·.name) := by
  rw [groupObject_eq (nodup_reductions root q), ← keys_reductions root fun o =>
    isField_eq_false_of_grouped]
  simp [Object.keys, Function.comp_def]

theorem id_groupObject (root : String) (q : Query) (id : GroupId) :
    (groupObject id ((outputs root true q).filterMap (reduction? root))).get? "_id" =
      some id.render := by
  rw [groupObject_eq (nodup_reductions root q)]
  simp [Object.get?]

theorem name_ne_id (h : o ∈ outputs root true q) : o.name ≠ "_id" := by
  intro same
  have absent := (List.nodup_cons.mp (nodup_names_of_grouped root q)).1
  exact absent (same ▸ List.mem_map_of_mem h)

theorem behind_placeIn (h : o ∈ outputs root true q) :
    Behind (q.selected.filter (·.isGroupCandidate))
      (groupObject (groupId root (outputs root true q))
        ((outputs root true q).filterMap (reduction? root)))
      (o.placeIn (outputs root true q)) := by
  have length := length_groupKeyOutputs root q
  cases key : o.isGroupKey with
  | false =>
    rw [placeIn_of_result _ key]
    refine .result ?_ (name_ne_id h)
    rw [keys_groupObject]
    exact List.mem_cons_of_mem _ (List.mem_map_of_mem (List.mem_filter.mpr ⟨h, by simp [key]⟩))
  | true =>
    have mem : o ∈ groupKeyOutputs (outputs root true q) := List.mem_filter.mpr ⟨h, key⟩
    rw [Output.placeIn, if_pos key, groupKeyPath]
    by_cases single : (groupKeyOutputs (outputs root true q)).length = 1
    · rw [if_pos (isSingle_iff.mpr single)]
      exact .key (length ▸ single)
    · have several : 2 ≤ (groupKeyOutputs (outputs root true q)).length := by
        have := List.length_pos_of_mem mem
        omega
      rw [if_neg (mt isSingle_iff.mp single)]
      refine .part (length ▸ several)
        ((id_groupObject root q _).trans (by rw [groupId_several root several]; rfl)) ?_
      rw [Object.ofMembers_of_nodup]
      · simpa [Object.keys] using ⟨o, mem, rfl⟩
      · simpa [Object.keys, Function.comp_def] using nodup_groupKeyNames root q

theorem mem_distinctCounts {os : List Output} :
    path ∈ os.filterMap distinctCount? ↔
      ∃ o ∈ os, o.role = .accumulator .countDistinct ∧ o.name = path := by
  rw [List.mem_filterMap]
  refine exists_congr fun o => and_congr_right fun _ => ?_
  unfold distinctCount?
  split
  · next role => simp [role]
  · next other => simpa using fun role => absurd role other

theorem isGroupKey_accumulator {a : Accumulator} (role : o.role = .accumulator a) :
    o.isGroupKey = false := by
  simp [Output.isGroupKey, role]

theorem find_of_outputOf {grouped : Bool} {key : FieldKey}
    (found : outputOf? (outputs root grouped q) key = some o) :
    q.selected.find? (·.key = key) = some o.column := by
  rw [← column_outputs root grouped q, List.find?_map]
  exact Option.map_eq_some_iff.mpr ⟨o, found, rfl⟩

theorem placeIn_of_tested {s : Schema} (results : q.TestsResults)
    (reads : path ∈ tested (merge (q.columns.filterMap
      (havingClause? s (outputs root true q))))) :
    ∃ o ∈ outputs root true q, path = o.placeIn (outputs root true q) := by
  rw [tested_merge] at reads
  obtain ⟨clause, mem, reads⟩ := List.mem_flatMap.mp reads
  obtain ⟨c, here, made⟩ := List.mem_filterMap.mp mem
  obtain ⟨p, effective, made⟩ := Option.bind_eq_some_iff.mp made
  obtain ⟨a, accumulates, made⟩ := Option.bind_eq_some_iff.mp made
  obtain ⟨o, found, made⟩ := Option.bind_eq_some_iff.mp made
  have mem := List.mem_of_find?_eq_some found
  have having : c.having = some p := by
    simpa [Column.effectiveHaving?, accumulates] using effective
  have complete : p.isComplete = true := by rw [← isSome_clause, made]; rfl
  have other := results c here (by simp [accumulates]) (by simp [having, complete])
  rw [find_of_outputOf found] at other
  have result : o.isGroupKey = false := by
    rw [isGroupKey_outputs mem]
    simpa using other
  exact ⟨o, mem, by rw [placeIn_of_result _ result, tested_clause made path reads]⟩

theorem placeIn_of_sorted
    (reads : path ∈ (sortKeys root true (outputs root true q) q).map Prod.fst) :
    ∃ o ∈ outputs root true q, path = o.placeIn (outputs root true q) := by
  obtain ⟨⟨path', direction⟩, mem, rfl⟩ := List.mem_map.mp reads
  obtain ⟨c, -, made⟩ := List.mem_filterMap.mp mem
  obtain ⟨path, made, same⟩ := Option.map_eq_some_iff.mp made
  cases same
  unfold sortPath? at made
  split at made
  · next o found =>
    have mem := List.mem_of_find?_eq_some found
    refine ⟨o, mem, ?_⟩
    cases role : o.role with
    | field => exact absurd role (field_of_grouped mem)
    | _ => simpa [role, Output.placeIn, Output.isGroupKey, eq_comm] using made
  · cases made

theorem placeIn_of_projected
    (reads : path ∈ (projectEntries true (outputs root true q)).flatMap fun e => e.2.paths e.1) :
    ∃ o ∈ outputs root true q, path = o.placeIn (outputs root true q) := by
  obtain ⟨entry, mem, reads⟩ := List.mem_flatMap.mp reads
  obtain ⟨o, here, rfl⟩ := List.mem_map.mp mem
  refine ⟨o, here, ?_⟩
  rw [paths_projected _ here] at reads
  cases role : o.role with
  | field => exact absurd role (field_of_grouped here)
  | _ =>
    simpa [projectReadings, role, Output.placeIn, Output.isGroupKey, Reading.path] using reads

end

section

variable {s : Schema} {q : Query} {p : Pipeline} {before after : List Stage} {id : GroupId}
  {fields : List (String × Reduction)}

theorem behind_of_reads (h : pipeline? s q = some p) (results : q.TestsResults)
    (group : .group id fields ∈ p.stages) {stage : Stage} (mem : stage ∈ p.stages) {path : String}
    (reads : path ∈ stage.readsBehind) :
    Behind (q.selected.filter (·.isGroupCandidate)) (groupObject id fields) path := by
  obtain ⟨grouped, rfl, rfl⟩ := eq_of_group_mem h group
  suffices placed : ∃ o ∈ outputs p.collection true q,
      path = o.placeIn (outputs p.collection true q) by
    obtain ⟨o, here, rfl⟩ := placed
    exact behind_placeIn here
  cases stage with
  | sizes names =>
    have made := (mem_stages_iff h .sizes rfl).mp mem
    simp only [generated, grouped, if_true, sizesStages] at made
    split at made
    · cases made
    · cases List.mem_singleton.mp made
      obtain ⟨o, here, role, rfl⟩ := mem_distinctCounts.mp reads
      exact ⟨o, here, (placeIn_of_result _ (isGroupKey_accumulator role)).symm⟩
  | having clauses =>
    have made := (mem_stages_iff h .having rfl).mp mem
    simp only [generated, grouped, havingStages, if_true] at made
    cases mem_matching made
    exact placeIn_of_tested results reads
  | sort keys =>
    have made := (mem_stages_iff h .sort rfl).mp mem
    simp only [generated, grouped, sortStages] at made
    split at made
    · cases made
    · cases List.mem_singleton.mp made
      exact placeIn_of_sorted reads
  | project entries =>
    have made := eq_of_project_mem h mem
    rw [grouped] at made
    subst made
    exact placeIn_of_projected reads
  | lookup | lookupAll | unwind | filter | window | group | skip | limit | custom | union =>
    cases reads

theorem place_ne_filter (h : pipeline? s q = some p)
    (split : p.stages = before ++ .group id fields :: after) {stage : Stage} (mem : stage ∈ after) :
    stage.place? ≠ some .filter := by
  intro place
  have ascends := stages_ascend h
  rw [split] at ascends
  exact absurd (ascends.le_rank mem rfl place) (by decide)

theorem shown_plainly (h : pipeline? s q = some p) (grouped : isGrouped q = true)
    {entries : List (String × Projected)} (mem : .project entries ∈ p.stages) :
    ∀ e ∈ entries, ∀ v, e.2 ≠ .value v := by
  rw [eq_of_project_mem h mem, grouped]
  intro e mem v
  obtain ⟨o, here, rfl⟩ := List.mem_map.mp mem
  cases role : o.role with
  | field => exact absurd role (field_of_grouped here)
  | _ => simp [projected, role]

theorem sizes_of_counted (h : pipeline? s q = some p) (grouped : isGrouped q = true) {o : Output}
    (mem : o ∈ outputs p.collection true q) (role : o.role = .accumulator .countDistinct) :
    ∃ names, .sizes names ∈ p.stages ∧ o.name ∈ names := by
  have counted := mem_distinctCounts.mpr ⟨o, mem, role, rfl⟩
  refine ⟨_, (mem_stages_iff h .sizes rfl).mpr ?_, counted⟩
  simp only [generated, grouped, if_true, sizesStages]
  rw [if_neg (by simpa using List.ne_nil_of_mem counted)]
  exact List.mem_singleton_self _

theorem sizes_before (h : pipeline? s q = some p)
    (split : p.stages = before ++ .group id fields :: after) {names : List String}
    (mem : .sizes names ∈ p.stages) {front back : List Stage} {stage : Stage}
    (inner : after = front ++ stage :: back)
    (uses : stage.place?.any Place.usesResults = true) : .sizes names ∈ front := by
  have ascends := stages_ascend h
  obtain ⟨place, placed, uses⟩ : ∃ place, stage.place? = some place ∧ place.usesResults = true := by
    simpa [Option.any_eq_true] using uses
  have later : Place.sizes.rank < place.rank := by
    cases place <;> first | decide | cases uses
  rw [split] at mem ascends
  have behind := ascends.mem_after mem rfl rfl (by decide)
  have whole : before ++ .group id fields :: after =
      (before ++ .group id fields :: front) ++ stage :: back := by simp [inner]
  rw [whole] at mem ascends
  rcases List.mem_append.mp (ascends.mem_before mem placed rfl later) with earlier | here
  · rw [← whole] at ascends
    exact absurd (ascends.rank_le earlier rfl rfl) (by decide)
  · simpa using here

theorem nodup_distinctCounts (root : String) (q : Query) :
    ((outputs root true q).filterMap distinctCount?).Nodup := by
  have counts (os : List Output) :
      List.Sublist (os.filterMap distinctCount?) (os.map (·.name)) := by
    induction os with
    | nil => exact .slnil
    | cons o os ih =>
      unfold distinctCount? at ih ⊢
      cases role : o.role with
      | accumulator a => cases a <;> simp [role, ih, List.Sublist.cons]
      | _ => simp [role, ih, List.Sublist.cons]
  exact (List.nodup_cons.mp (nodup_names_of_grouped root q)).2.sublist (counts _)

theorem countedOperand_reduction {root : String} {o : Output} (mem : o ∈ outputs root true q) :
    (reduction? root o).bind countedOperand? =
      if o.column.accumulator? = some .countDistinct then some (.ofColumn root o.column)
      else none := by
  rcases role_cases mem with ⟨a, role, agg⟩ | ⟨w, role, agg⟩ | ⟨text, role, agg, -⟩ | ⟨role, agg, -⟩
  · cases a <;> simp [reduction?, role, countedOperand?, Column.accumulator?, agg]
  all_goals simp [reduction?, role, countedOperand?, Column.accumulator?, agg]

theorem filterMap_countedOperand (root : String) (q : Query) :
    ((outputs root true q).filterMap (reduction? root)).filterMap countedOperand? =
      (q.selected.filter (·.accumulator? = some .countDistinct)).map (Operand.ofColumn root) := by
  rw [← column_outputs root true q, List.filter_map, List.map_map, List.filterMap_filterMap,
    ← List.filterMap_eq_map, List.filterMap_filter]
  refine List.filterMap_congr fun o mem => ?_
  simp [countedOperand_reduction mem]

theorem output_of_counted {root : String} {name : String} {operand : Operand}
    (mem : (name, .accumulate .countDistinct operand) ∈
      (outputs root true q).filterMap (reduction? root)) :
    ∃ o ∈ outputs root true q, o.role = .accumulator .countDistinct ∧ o.name = name := by
  obtain ⟨o, here, made⟩ := List.mem_filterMap.mp mem
  refine ⟨o, here, ?_⟩
  unfold reduction? at made
  split at made <;> simp_all

theorem addToSet_of_counted {root : String} {name : String} {operand : Operand}
    (mem : (name, .accumulate .countDistinct operand) ∈
      (outputs root true q).filterMap (reduction? root)) :
    (name, .single "$addToSet" operand.render) ∈
      groupObject id ((outputs root true q).filterMap (reduction? root)) := by
  rw [groupObject_eq (nodup_reductions root q)]
  exact List.mem_cons_of_mem _ (List.mem_map_of_mem mem)

theorem sized_once (h : pipeline? s q = some p)
    (split : p.stages = before ++ .group id fields :: after) :
    (stagesAt .sizes after).length ≤ 1 := by
  have one : (stagesAt .sizes p.stages).length ≤ 1 := by
    rw [stagesAt_stages h]
    simp only [generated, sizesStages]
    split <;> try split
    all_goals simp
  have part : List.Sublist after p.stages := by
    rw [split]
    exact (List.sublist_cons_self _ _).trans (List.sublist_append_right _ _)
  exact Nat.le_trans (part.filter _).length_le one

theorem render_sizes (h : pipeline? s q = some p) {names : List String}
    (group : .group id fields ∈ p.stages) (mem : .sizes names ∈ p.stages) :
    (Stage.sizes names).render = .single "$addFields"
        (.object (names.map fun n => (n, .single "$size" (.string ("$" ++ n))))) ∧
      ∀ name ∈ names, ∃ operand, (name, .accumulate .countDistinct operand) ∈ fields := by
  obtain ⟨grouped, rfl, rfl⟩ := eq_of_group_mem h group
  have made := (mem_stages_iff h .sizes rfl).mp mem
  simp only [generated, grouped, if_true, sizesStages] at made
  split at made
  · cases made
  · cases List.mem_singleton.mp made
    constructor
    · rw [Stage.render, sizesObject, Object.ofMembers_of_nodup]
      · rfl
      simpa [Object.keys, Function.comp_def] using nodup_distinctCounts p.collection q
    · intro name counted
      obtain ⟨o, here, role, rfl⟩ := mem_distinctCounts.mp counted
      exact ⟨_, List.mem_filterMap.mpr ⟨o, here, by simp only [reduction?, role]; rfl⟩⟩

theorem pipeline_readsGroup (h : pipeline? s q = some p) (results : q.TestsResults)
    (split : p.stages = before ++ .group id fields :: after) :
    ReadsGroup p.collection q id fields after := by
  have group : .group id fields ∈ p.stages := by simp [split]
  have later {stage : Stage} (mem : stage ∈ after) : stage ∈ p.stages := by simp [split, mem]
  obtain ⟨grouped, -, made⟩ := eq_of_group_mem h group
  refine ⟨rfl, ?_, ?_, ?_, sized_once h split, ?_⟩
  · intro stage mem operator body generates path reads
    refine behind_of_reads h results group (later mem) (generates.mem_readsBehind ?_ ?_ reads)
    · exact place_ne_filter h split mem
    · rintro entries rfl
      exact shown_plainly h grouped (later mem)
  · rw [made]
    exact filterMap_countedOperand p.collection q
  · intro name operand mem
    rw [made] at mem
    obtain ⟨o, here, role, rfl⟩ := output_of_counted mem
    obtain ⟨names, sized, counted⟩ := sizes_of_counted h grouped here role
    refine ⟨made ▸ addToSet_of_counted mem, ?_⟩
    intro front stage back inner operator body writes uses
    have here : stage ∈ after := by simp [inner]
    have uses := (writes.place uses).resolve_left (place_ne_filter h split here)
    exact ⟨names, sizes_before h split sized inner uses, counted⟩
  · exact fun names mem => render_sizes h group (later mem)

end

theorem exists_group {s : Schema} {q : Query} {p : Pipeline} (h : pipeline? s q = some p)
    (grouped : isGrouped q = true) :
    ∃ before after, p.stages = before ++ .group (groupId p.collection (outputs p.collection true q))
      ((outputs p.collection true q).filterMap (reduction? p.collection)) :: after := by
  apply List.append_of_mem
  refine (mem_stages_iff h .group rfl).mpr ?_
  simp only [generated, grouped, if_true]
  exact List.mem_singleton_self _

-- Two keys, a count of distinct values that is tested, sorted by and called like a group key, and
-- a column that stands twice.
def audience : Query :=
  { columns :=
      [{ Column.ofKey ⟨"employees", "id"⟩ with
          aggregation := .accumulator .countDistinct
          rawAlias := some "name"
          having := some ⟨.notBetween, "1", some "9"⟩
          sort := some ⟨.desc, 1⟩ },
        { Column.ofKey ⟨"employees", "name"⟩ with sort := some ⟨.asc, 2⟩ },
        { Column.ofKey ⟨"departments", "name"⟩ with rawAlias := some "name" },
        { Column.ofKey ⟨"employees", "id"⟩ with
          aggregation := .accumulator .max, having := some ⟨.gt, "3", none⟩ }]
    options := .default }

theorem audience_readsGroup :
    audience.TestsResults ∧
      ∃ p before id fields after, pipeline? ledger audience = some p ∧
        p.stages = before ++ .group id fields :: after ∧
        fields.map Prod.fst = ["name", "max_id"] ∧
        ReadsGroup p.collection audience id fields after := by
  have results : audience.TestsResults := by
    unfold Query.TestsResults
    decide +kernel
  obtain ⟨p, h⟩ := exists_pipeline (s := ledger) (q := audience) (by decide) (by decide)
  have root : p.collection = "employees" := (Option.some.inj (head_referencedEntities h)).symm
  obtain ⟨before, after, split⟩ := exists_group h (by decide)
  refine ⟨results, p, before, _, _, after, h, split, ?_, pipeline_readsGroup h results split⟩
  rw [root]
  decide +kernel

-- The filter on the count is found under the key that also makes the groups.
def homonyms : Query :=
  { columns :=
      [.ofKey ⟨"employees", "name"⟩,
        { Column.ofKey ⟨"employees", "name"⟩ with
          aggregation := .accumulator .count, having := some ⟨.gt, "5", none⟩ }]
    options := .default }

theorem homonyms_testsKey :
    ∃ p before id fields after, pipeline? ledger homonyms = some p ∧
      p.stages = before ++ .group id fields :: after ∧
      Object.keys (groupObject id fields) = ["_id", "count"] ∧
      ∃ stage ∈ after, ∃ body, stage.Generates "$match" body ∧ ReadsIn "$match" body "name" ∧
        ¬Behind (homonyms.selected.filter (·.isGroupCandidate)) (groupObject id fields) "name" := by
  obtain ⟨p, h⟩ := exists_pipeline (s := ledger) (q := homonyms) (by decide) (by decide)
  have root : p.collection = "employees" := (Option.some.inj (head_referencedEntities h)).symm
  obtain ⟨before, after, split⟩ := exists_group h (by decide)
  have keys : Object.keys (groupObject (groupId p.collection (outputs p.collection true homonyms))
      ((outputs p.collection true homonyms).filterMap (reduction? p.collection))) =
        ["_id", "count"] := by
    rw [root]
    decide +kernel
  have tests : .having [[("name", .single "$gt" (.ofInt64 5))]] ∈ p.stages := by
    refine (mem_stages_iff h .having rfl).mpr ?_
    rw [root]
    exact List.mem_singleton_self _
  have behind : .having [[("name", .single "$gt" (.ofInt64 5))]] ∈ after := by
    have ascends := stages_ascend h
    rw [split] at tests ascends
    exact ascends.mem_after tests rfl rfl (by decide)
  refine ⟨p, before, _, _, after, h, split, keys, _, behind, _, ⟨rfl, rfl⟩, ?_, ?_⟩
  · exact List.mem_singleton_self _
  generalize path : "name" = name
  intro found
  cases found with
  | key => exact absurd path (by decide)
  | part =>
    have start := congrArg (List.head? ∘ String.toList) path
    simp at start
  | result mem =>
    rw [keys, ← path] at mem
    revert mem
    decide

end Pipeline

end QueryBuilder
