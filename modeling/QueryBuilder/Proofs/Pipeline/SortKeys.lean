import QueryBuilder.Proofs.Pipeline.Results
import QueryBuilder.Proofs.Pipeline.WindowKeys
import QueryBuilder.Proofs.Query.Ordering

set_option autoImplicit false

namespace QueryBuilder

open Json (Value Object)

namespace Query

theorem filter_sortedColumns (q : Query) (n : UInt64) :
    q.sortedColumns.filter (·.2.order = n) = (sortings q.columns).filter (·.2.order = n) := by
  have level := filter_sortBy place (sortings q.columns) n.toNat
  simpa [sortedColumns_eq, place, UInt64.toNat_inj] using level

theorem map_fst_sortings (cs : List Column) (keep : Column × Sorting → Bool) :
    ((sortings cs).filter keep).map Prod.fst =
      cs.filter fun c => c.sort.any fun s => keep (c, s) := by
  induction cs with
  | nil => rfl
  | cons c cs ih =>
    cases sort : c.sort with
    | none =>
      have unsorted : sortings (c :: cs) = sortings cs := by simp [sortings, sort]
      rw [unsorted, ih, List.filter_cons_of_neg (by simp [sort])]
    | some s =>
      have sorted : sortings (c :: cs) = (c, s) :: sortings cs := by simp [sortings, sort]
      cases kept : keep (c, s) <;> simp [sorted, kept, sort, ih]

theorem nodup_map_fst_sortedColumns {q : Query} (distinct : (q.columns.map (·.key)).Nodup) :
    (q.sortedColumns.map Prod.fst).Nodup := by
  have perm : (q.sortedColumns.map Prod.fst).Perm ((sortings q.columns).map Prod.fst) :=
    (sortedColumns_eq q ▸ sortBy_perm place _).map _
  have part := map_fst_sortings q.columns fun _ => true
  rw [List.filter_eq_self.mpr fun _ _ => rfl] at part
  rw [perm.nodup_iff, part]
  exact (List.Nodup.of_map _ distinct).filter _

end Query

namespace Pipeline

def columnReduction? (root : String) (c : Column) : Option Reduction :=
  match c.aggregation, c.expression? with
  | .accumulator a, _ => some (.accumulate a (.ofColumn root c))
  | .none, some text => some (.first (.value (expressionValue text)))
  | _, _ => none

-- Where the documents that are sorted have the value of a column: where it is a field of them, or
-- where the group has put it.
inductive StandsAt (root : String) (stages : List Stage) (c : Column) : String → Prop
  | field (plain : stagesAt .group stages = []) : StandsAt root stages c (fieldPath root c.key)
  | key {fields : List (String × Reduction)} (key : c.isGroupCandidate = true)
      (group : .group (.one (fieldPath root c.key)) fields ∈ stages) : StandsAt root stages c "_id"
  | part {parts : List (String × String)} {fields : List (String × Reduction)} {name : String}
      (key : c.isGroupCandidate = true) (group : .group (.several parts) fields ∈ stages)
      (mem : (name, fieldPath root c.key) ∈ parts) : StandsAt root stages c ("_id." ++ name)
  | result {id : GroupId} {fields : List (String × Reduction)} {name : String} {r : Reduction}
      (group : .group id fields ∈ stages) (mem : (name, r) ∈ fields)
      (computed : columnReduction? root c = some r) : StandsAt root stages c name

section

variable {root : String} {q : Query} {o : Output} {s : Schema} {p : Pipeline}

theorem groupId_one (root : String) {os : List Output} (mem : o ∈ groupKeyOutputs os)
    (single : (groupKeyOutputs os).length = 1) :
    groupId root os = .one (fieldPath root o.column.key) := by
  obtain ⟨only, here⟩ := List.length_eq_one_iff.mp single
  obtain rfl : o = only := by simpa [here] using mem
  rw [groupId, here]

theorem stagesAt_group (h : pipeline? s q = some p) :
    stagesAt .group p.stages = [] ↔ isGrouped q = false := by
  rw [stagesAt_stages h, generated]
  cases isGrouped q <;> simp

theorem group_mem_stages (h : pipeline? s q = some p) (grouped : isGrouped q = true) :
    .group (groupId p.collection (outputs p.collection true q))
      ((outputs p.collection true q).filterMap (reduction? p.collection)) ∈ p.stages := by
  rw [mem_stages_iff h .group rfl, generated, if_pos grouped, grouped]
  exact List.mem_singleton_self _

theorem standsAt_placeIn (h : pipeline? s q = some p) (grouped : isGrouped q = true)
    (mem : o ∈ outputs p.collection true q) (other : o.column.window? = none) :
    StandsAt p.collection p.stages o.column (o.placeIn (outputs p.collection true q)) := by
  have group := group_mem_stages h grouped
  cases key : o.isGroupKey with
  | true =>
    have grouping : o.column.isGroupCandidate = true := isGroupKey_outputs mem ▸ key
    have inKeys : o ∈ groupKeyOutputs (outputs p.collection true q) :=
      List.mem_filter.mpr ⟨mem, key⟩
    rw [Output.placeIn, if_pos key, groupKeyPath]
    by_cases single : (groupKeyOutputs (outputs p.collection true q)).length = 1
    · rw [if_pos (isSingle_iff.mpr single)]
      rw [groupId_one p.collection inKeys single] at group
      exact .key grouping group
    · have several : 2 ≤ (groupKeyOutputs (outputs p.collection true q)).length := by
        have := List.length_pos_of_mem inKeys
        omega
      rw [if_neg (mt isSingle_iff.mp single)]
      rw [groupId_several p.collection several] at group
      exact .part grouping group (List.mem_map.mpr ⟨o, inKeys, rfl⟩)
  | false =>
    rw [placeIn_of_result _ key]
    obtain ⟨r, made⟩ := exists_reduction p.collection (isField_eq_false_of_grouped mem) key
    refine .result group (List.mem_filterMap.mpr ⟨o, mem, made⟩) ?_
    unfold reduction? at made
    rcases role_cases mem with ⟨a, role, agg⟩ | ⟨w, role, agg⟩ | ⟨text, role, agg, own⟩ |
      ⟨role, agg, own⟩
    · simpa [columnReduction?, role, agg] using made
    · simp [Column.window?, agg] at other
    · simpa [columnReduction?, role, agg, own] using made
    · simp [role] at made

theorem placeIn_injective (undotted : q.Undotted) {o' : Output}
    (mem : o ∈ outputs root true q) (mem' : o' ∈ outputs root true q)
    (same : o.placeIn (outputs root true q) = o'.placeIn (outputs root true q)) : o = o' := by
  have names : o.name = o'.name → o = o' :=
    List.inj_on_of_nodup_map (List.nodup_cons.mp (nodup_names_of_grouped root q)).2 mem mem'
  -- A result has a name of its own, which is neither the key nor a part of it.
  have apart {k r : Output} (key : k.isGroupKey = true) (result : r.isGroupKey = false)
      (here : r ∈ outputs root true q) :
      k.placeIn (outputs root true q) ≠ r.placeIn (outputs root true q) := by
    have plain := undotted_of_named undotted here (field_of_grouped here)
    rw [placeIn_of_result _ result, Output.placeIn, if_pos key, groupKeyPath]
    split
    · exact (name_ne_id here).symm
    · intro dotted
      simp [← dotted] at plain
  cases key : o.isGroupKey <;> cases key' : o'.isGroupKey
  · rw [placeIn_of_result _ key, placeIn_of_result _ key'] at same
    exact names same
  · exact absurd same.symm (apart key' key mem)
  · exact absurd same (apart key key' mem')
  · rw [Output.placeIn, Output.placeIn, if_pos key, if_pos key', groupKeyPath, groupKeyPath] at same
    split at same
    · next single =>
      obtain ⟨only, here⟩ := List.length_eq_one_iff.mp (isSingle_iff.mp single)
      have first : o ∈ [only] := here ▸ List.mem_filter.mpr ⟨mem, key⟩
      have second : o' ∈ [only] := here ▸ List.mem_filter.mpr ⟨mem', key'⟩
      rw [List.mem_singleton.mp first, List.mem_singleton.mp second]
    · have chars := congrArg String.toList same
      simp only [String.toList_append, List.append_cancel_left_eq] at chars
      exact names (String.toList_injective chars)

end

section

variable {root : String} {q : Query} {c c' : Column} {path : String}

-- Whether a column can be sorted by: where a group has left it out it has no value.
def isSortable (q : Query) (c : Column) : Bool := c.selected || !isGrouped q

variable (distinct : (q.columns.map (·.key)).Nodup) (mem : c ∈ q.columns)
include distinct mem

theorem sortPath_isSome (root : String) :
    (sortPath? root (isGrouped q) (outputs root (isGrouped q) q) c).isSome = isSortable q c := by
  have shown := outputOf_isSome_iff distinct mem root (isGrouped q)
  unfold sortPath? isSortable
  cases found : outputOf? (outputs root (isGrouped q) q) c.key with
  | some o =>
    rw [found] at shown
    simp [shown.mp rfl]
  | none =>
    have hidden : c.selected = false := by simpa [found] using shown
    cases isGrouped q <;> simp [hidden]

theorem sortPath_of_grouped
    (made : sortPath? root true (outputs root true q) c = some path) :
    ∃ o ∈ outputs root true q, o.column = c ∧ path = o.placeIn (outputs root true q) := by
  unfold sortPath? at made
  split at made
  · next o found =>
    have here := List.mem_of_find?_eq_some found
    refine ⟨o, here, column_outputOf distinct mem found, ?_⟩
    cases role : o.role with
    | field => exact absurd role (field_of_grouped here)
    | _ => simpa [role, Output.placeIn, Output.isGroupKey, eq_comm] using made
  · cases made

theorem sortPath_of_plain (plain : isGrouped q = false)
    (windowless : c.selected = true → c.window? = none)
    (made : sortPath? root false (outputs root false q) c = some path) :
    path = fieldPath root c.key := by
  unfold sortPath? at made
  split at made
  · next o found =>
    have here := List.mem_of_find?_eq_some found
    obtain rfl := column_outputOf distinct mem found
    have shown := column_mem_selected here
    rcases role_cases here with ⟨a, role, agg⟩ | ⟨w, role, agg⟩ | ⟨text, role, -⟩ | ⟨role, -⟩
    · -- A shown accumulator makes the query group.
      have accumulates : q.hasAccumulator = true :=
        List.any_eq_true.mpr ⟨_, shown, by simp [Column.accumulator?, agg]⟩
      simp [isGrouped, accumulates] at plain
    · have none := windowless (List.mem_filter.mp shown).2
      simp [Column.window?, agg] at none
    · simpa [role, eq_comm] using made
    · simpa [role, eq_comm] using made
  · simpa [eq_comm] using made

end

section

variable {s : Schema} {q : Query} {p : Pipeline} {c c' : Column} {path : String}

theorem sortPath_standsAt (h : pipeline? s q = some p)
    (distinct : (q.columns.map (·.key)).Nodup) (mem : c ∈ q.columns)
    (windowless : c.selected = true → c.window? = none)
    (made : sortPath? p.collection (isGrouped q) (outputs p.collection (isGrouped q) q) c =
      some path) : StandsAt p.collection p.stages c path := by
  cases grouped : isGrouped q with
  | true =>
    rw [grouped] at made
    obtain ⟨o, here, rfl, rfl⟩ := sortPath_of_grouped distinct mem made
    exact standsAt_placeIn h grouped here
      (windowless (List.mem_filter.mp (column_mem_selected here)).2)
  | false =>
    rw [grouped] at made
    rw [sortPath_of_plain distinct mem grouped windowless made]
    exact .field ((stagesAt_group h).mpr grouped)

theorem sortPath_injective (root : String) (distinct : (q.columns.map (·.key)).Nodup)
    (undotted : q.Undotted) (mem : c ∈ q.columns) (mem' : c' ∈ q.columns)
    (windowless : c.selected = true → c.window? = none)
    (windowless' : c'.selected = true → c'.window? = none)
    (made : sortPath? root (isGrouped q) (outputs root (isGrouped q) q) c = some path)
    (made' : sortPath? root (isGrouped q) (outputs root (isGrouped q) q) c' = some path) :
    c = c' := by
  cases grouped : isGrouped q with
  | true =>
    rw [grouped] at made made'
    obtain ⟨o, here, rfl, place⟩ := sortPath_of_grouped distinct mem made
    obtain ⟨o', here', rfl, place'⟩ := sortPath_of_grouped distinct mem' made'
    rw [placeIn_injective undotted here here' (place.symm.trans place')]
  | false =>
    rw [grouped] at made made'
    have place := sortPath_of_plain distinct mem grouped windowless made
    have place' := sortPath_of_plain distinct mem' grouped windowless' made'
    have plain := undotted.keys c.key (Sql.key_mem_keys mem)
    have plain' := undotted.keys c'.key (Sql.key_mem_keys mem')
    have key := fieldPath_injective plain plain' (place.symm.trans place')
    exact List.inj_on_of_nodup_map distinct mem mem' key

end

def sortable (q : Query) (p : Pipeline) : List (Column × Sorting) :=
  q.sortedColumns.filter fun x => x.1.selected || (stagesAt .group p.stages).isEmpty

structure KeepsSorting (q : Query) (p : Pipeline) (place : Column → String) : Prop where
  stands : ∀ x ∈ sortable q p, StandsAt p.collection p.stages x.1 (place x.1)
  apart : ((sortable q p).map (place ·.1)).Nodup
  written : (stagesAt .sort p.stages).map Stage.render =
    if (sortable q p).isEmpty then []
    else [.single "$sort" (.object ((sortable q p).map fun x =>
      (place x.1, match x.2.direction with | .asc => .ofInt64 1 | .desc => .ofInt64 (-1))))]
  ascending : (sortable q p).Pairwise (·.2.order ≤ ·.2.order)
  ties : ∀ n, ((sortable q p).filter (·.2.order = n)).map Prod.fst = q.columns.filter fun c =>
    c.sort.any (·.order = n) && (c.selected || (stagesAt .group p.stages).isEmpty)

section

variable {s : Schema} {q : Query} {p : Pipeline}

theorem isSortable_eq (h : pipeline? s q = some p) (c : Column) :
    (c.selected || (stagesAt .group p.stages).isEmpty) = isSortable q c := by
  have plain := stagesAt_group h
  rw [← List.isEmpty_iff] at plain
  unfold isSortable
  cases grouped : isGrouped q <;> simp_all

theorem mem_sortable {x : Column × Sorting} (mem : x ∈ sortable q p) :
    x.1 ∈ q.columns ∧ x.1.sort = some x.2 :=
  Sql.mem_sortedColumns.mp (List.mem_filter.mp mem).1

def sortPlace (q : Query) (p : Pipeline) (c : Column) : String :=
  (sortPath? p.collection (isGrouped q) (outputs p.collection (isGrouped q) q) c).getD ""

theorem sortPath_eq_sortPlace (h : pipeline? s q = some p)
    (distinct : (q.columns.map (·.key)).Nodup) {x : Column × Sorting} (mem : x ∈ sortable q p) :
    sortPath? p.collection (isGrouped q) (outputs p.collection (isGrouped q) q) x.1 =
      some (sortPlace q p x.1) := by
  have here := (List.mem_filter.mp mem).2
  rw [isSortable_eq h, ← sortPath_isSome distinct (mem_sortable mem).1 p.collection] at here
  obtain ⟨path, made⟩ := Option.isSome_iff_exists.mp here
  rw [sortPlace, made, Option.getD_some]

theorem sortKeys_eq (h : pipeline? s q = some p) (distinct : (q.columns.map (·.key)).Nodup) :
    sortKeys p.collection (isGrouped q) (outputs p.collection (isGrouped q) q) q =
      (sortable q p).map fun x => (sortPlace q p x.1, x.2.direction) := by
  rw [sortable, ← List.filterMap_eq_map, List.filterMap_filter]
  apply List.filterMap_congr
  intro x listed
  have known := sortPath_isSome distinct (Sql.mem_sortedColumns.mp listed).1 p.collection
  rw [← isSortable_eq h] at known
  split
  · next kept =>
    rw [sortPath_eq_sortPlace h distinct (List.mem_filter.mpr ⟨listed, kept⟩)]
    rfl
  · next left =>
    rw [← known] at left
    rw [Option.not_isSome_iff_eq_none.mp left]
    rfl

theorem pipeline_keepsSorting (h : pipeline? s q = some p)
    (distinct : (q.columns.map (·.key)).Nodup) (undotted : q.Undotted)
    (windowless : ∀ c ∈ q.selected, c.sort.isSome = true → c.window? = none) :
    ∃ place, KeepsSorting q p place := by
  have free {x : Column × Sorting} (mem : x ∈ sortable q p) :
      x.1.selected = true → x.1.window? = none := by
    obtain ⟨listed, sorted⟩ := mem_sortable mem
    exact fun shown => windowless x.1 (List.mem_filter.mpr ⟨listed, shown⟩) (by simp [sorted])
  have apart : ((sortable q p).map (sortPlace q p ·.1)).Nodup := by
    have columns : ((sortable q p).map Prod.fst).Nodup :=
      (Query.nodup_map_fst_sortedColumns distinct).sublist (List.filter_sublist.map _)
    have places := columns.map_on (f := sortPlace q p) ?_
    · rwa [List.map_map] at places
    intro c hc c' hc' same
    obtain ⟨x, mem, rfl⟩ := List.mem_map.mp hc
    obtain ⟨x', mem', rfl⟩ := List.mem_map.mp hc'
    have made' := sortPath_eq_sortPlace h distinct mem'
    rw [← same] at made'
    exact sortPath_injective p.collection distinct undotted (mem_sortable mem).1
      (mem_sortable mem').1 (free mem) (free mem') (sortPath_eq_sortPlace h distinct mem) made'
  refine ⟨sortPlace q p, fun x mem => ?_, apart, ?_, ?_, fun n => ?_⟩
  · exact sortPath_standsAt h distinct (mem_sortable mem).1 (free mem)
      (sortPath_eq_sortPlace h distinct mem)
  · rw [stagesAt_stages h, generated, sortKeys_eq h distinct, sortStages, List.isEmpty_map]
    split
    · rfl
    · rw [List.map_singleton, Stage.render, sortObject, List.map_map, Object.ofMembers_of_nodup]
      · rfl
      · simpa [Object.keys, Function.comp_def] using apart
  · have sorted : q.sortedColumns.Pairwise (·.2.order ≤ ·.2.order) :=
      Query.sortedColumns_eq q ▸
        (sortBy_pairwise Query.place _).imp UInt64.le_iff_toNat_le.mpr
    exact sorted.filter _
  · rw [sortable, List.filter_comm, Query.filter_sortedColumns, List.filter_filter,
      Query.map_fst_sortings]
    apply List.filter_congr
    intro c _
    cases c.sort <;> simp [Bool.and_comm]

end

-- Two group keys of one name, a result, an expression, and a column that the group leaves out.
def seniority : Query :=
  { columns :=
      [{ Column.ofKey ⟨"employees", "name"⟩ with sort := some ⟨.asc, 3⟩ },
        { Column.ofKey ⟨"departments", "name"⟩ with sort := some ⟨.desc, 1⟩ },
        { Column.ofKey ⟨"employees", "salary"⟩ with
          aggregation := .accumulator .sum, rawAlias := some "total", sort := some ⟨.desc, 3⟩ },
        { Column.ofKey ⟨"employees", "hired"⟩ with selected := false, sort := some ⟨.asc, 1⟩ },
        { Column.ofKey ⟨"employees", "bonus"⟩ with
          rawExpression := some "$bonus", sort := some ⟨.asc, 2⟩ }]
    options := .default }

theorem seniority_keepsSorting :
    (seniority.columns.map (·.key)).Nodup ∧ seniority.Undotted ∧
      (∀ c ∈ seniority.selected, c.sort.isSome = true → c.window? = none) ∧
      ∃ p, pipeline? ledger seniority = some p ∧ p.collection = "employees" ∧
        (sortable seniority p).map (·.1.key.text) =
          ["departments.name", "employees.bonus", "employees.name", "employees.salary"] ∧
        ∃ place, KeepsSorting seniority p place ∧
          ∃ keys : Object,
            (stagesAt .sort p.stages).map Stage.render = [.single "$sort" (.object keys)] ∧
              keys.map Prod.snd = [.ofInt64 (-1), .ofInt64 1, .ofInt64 1, .ofInt64 (-1)] := by
  obtain ⟨p, h⟩ := exists_pipeline (s := ledger) (q := seniority) (by decide) (by decide)
  have root : p.collection = "employees" := (Option.some.inj (head_referencedEntities h)).symm
  have distinct : (seniority.columns.map (·.key)).Nodup := by decide
  have undotted : seniority.Undotted := ⟨by decide +kernel, by decide +kernel⟩
  have windowless : ∀ c ∈ seniority.selected, c.sort.isSome = true → c.window? = none := by decide
  obtain ⟨place, kept⟩ := pipeline_keepsSorting h distinct undotted windowless
  have grouped : (stagesAt .group p.stages).isEmpty = false := by
    rw [stagesAt_stages h]
    rfl
  have listed : sortable seniority p = seniority.sortedColumns.filter (·.1.selected) := by
    simp [sortable, grouped]
  refine ⟨distinct, undotted, windowless, p, h, root, ?_, place, kept, _,
    kept.written.trans (if_neg ?_), ?_⟩ <;> rw [listed] <;>
    simp [seniority, Query.sortedColumns, Column.ofKey, List.mergeSort, FieldKey.text]

end Pipeline

end QueryBuilder
