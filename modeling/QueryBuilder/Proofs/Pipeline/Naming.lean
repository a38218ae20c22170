import QueryBuilder.Proofs.Pipeline.Claiming
import QueryBuilder.Proofs.Pipeline.Stages

set_option autoImplicit false

namespace QueryBuilder.Pipeline

open Json (Value Object)

namespace Output

variable {root : String} {grouped : Bool} {names : Names} {c : Column} {o : Output}

def isField (o : Output) : Bool :=
  match o.role with
  | .field => true
  | _ => false

theorem isField_eq_false (named : o.role ≠ .field) : o.isField = false := by
  unfold isField
  split
  · next field => exact absurd field named
  · rfl

-- A field keeps its path, which is not claimed; everything else claims what it is worked on under.
def claims (o : Output) : List String :=
  if o.isField || o.shown == o.name then [o.shown] else [o.name, o.shown]

theorem of_eq (root : String) (grouped : Bool) (names : Names) (c : Column) :
    of root grouped names c =
      let named := claimName root names c (Role.of grouped c)
      let shown := claimShown named.2 c (Role.of grouped c) named.1
      (⟨c, Role.of grouped c, named.1, shown.1⟩, shown.2) :=
  rfl

theorem claimName_claims (root : String) (names : Names) (c : Column) {role : Role}
    (named : role ≠ .field) :
    Names.Claims names [(claimName root names c role).1] (claimName root names c role).2 := by
  unfold claimName
  split
  · exact absurd rfl named
  all_goals first | exact Names.claim_claims names _ | exact Names.claimKey_claims names _

theorem claimShown_field (names : Names) (c : Column) (name : String) :
    ∃ wanted, claimShown names c .field name = names.claim wanted := by
  cases h : trimmedAlias? c with
  | none => exact ⟨name, by simp [claimShown, h]⟩
  | some shown => exact ⟨shown, by simp [claimShown, h]⟩

theorem claimShown_of_ne_field (names : Names) (c : Column) (name : String) {role : Role}
    (named : role ≠ .field) :
    claimShown names c role name = (name, names) ∨
      ∃ wanted, claimShown names c role name = names.claim wanted := by
  cases role with
  | field => exact absurd rfl named
  | groupKey =>
    cases h : trimmedAlias? c with
    | none => exact .inl (by simp [claimShown, h])
    | some shown =>
      by_cases same : shown = name
      · exact .inl (by simp [claimShown, h, same])
      · exact .inr ⟨shown, by simp [claimShown, h, same]⟩
  | accumulator a | window w | expression text => exact .inl (by simp [claimShown])

theorem of_claims (root : String) (grouped : Bool) (names : Names) (c : Column) :
    Names.Claims names (of root grouped names c).1.claims (of root grouped names c).2 := by
  by_cases field : Role.of grouped c = .field
  · obtain ⟨wanted, shown⟩ := claimShown_field names c (fieldPath root c.key)
    have made : of root grouped names c =
        (⟨c, .field, fieldPath root c.key, (names.claim wanted).1⟩, (names.claim wanted).2) := by
      rw [of_eq, field]
      simp only [claimName, shown]
    rw [made]
    exact Names.claim_claims names wanted
  · have named := claimName_claims root names c field
    rw [of_eq]
    generalize claimName root names c (Role.of grouped c) = claimed at named ⊢
    obtain ⟨name, after⟩ := claimed
    have quiet (shown : String) : isField ⟨c, Role.of grouped c, name, shown⟩ = false :=
      isField_eq_false field
    rcases claimShown_of_ne_field after c name field with same | ⟨wanted, own⟩
    · simp only [same, claims, quiet, beq_self_eq_true, Bool.or_true, if_true]
      exact named
    · have free := Names.claim_claims after wanted
      have apart : (after.claim wanted).1 ≠ name := by
        intro same
        exact free.free name (by simp [same]) ((named.mem_taken name).mpr (.inl (by simp)))
      simp only [own, claims, quiet, beq_eq_false_iff_ne.mpr apart, Bool.or_false,
        Bool.false_eq_true, if_false]
      exact named.append free

theorem exists_list_claims (root : String) (grouped : Bool) (names : Names) (cs : List Column) :
    ∃ after, Names.Claims names ((list root grouped names cs).flatMap claims) after := by
  induction cs generalizing names with
  | nil => exact ⟨names, .nil names⟩
  | cons c cs ih =>
    obtain ⟨after, rest⟩ := ih (of root grouped names c).2
    exact ⟨after, (of_claims root grouped names c).append rest⟩

theorem shown_sublist_claims (os : List Output) :
    List.Sublist (os.map (·.shown)) (os.flatMap claims) := by
  induction os with
  | nil => exact .slnil
  | cons o os ih =>
    have here : List.Sublist [o.shown] o.claims := by
      unfold claims
      split <;> simp
    exact here.append ih

theorem name_sublist_claims (os : List Output) :
    List.Sublist ((os.filter (!·.isField)).map (·.name)) (os.flatMap claims) := by
  induction os with
  | nil => exact .slnil
  | cons o os ih =>
    cases field : o.isField with
    | true =>
      rw [List.filter_cons_of_neg (by simp [field])]
      exact ih.trans (List.sublist_append_right _ _)
    | false =>
      have here : List.Sublist [o.name] o.claims := by
        by_cases same : o.shown = o.name <;> simp [claims, field, same]
      rw [List.filter_cons_of_pos (by simp [field])]
      exact here.append ih

theorem exists_of_list {names : Names} {cs : List Column} (h : o ∈ list root grouped names cs) :
    ∃ before, o = (of root grouped before o.column).1 := by
  induction cs generalizing names with
  | nil => cases h
  | cons c cs ih =>
    rcases List.mem_cons.mp h with rfl | h
    · exact ⟨names, rfl⟩
    · exact ih h

end Output

section

variable {root : String} {grouped : Bool} {q : Query} {o : Output}

theorem role_outputs (h : o ∈ outputs root grouped q) : o.role = Role.of grouped o.column := by
  obtain ⟨before, made⟩ := Output.exists_of_list h
  exact congrArg Output.role made

theorem role_cases (h : o ∈ outputs root grouped q) :
    (∃ a, o.role = .accumulator a ∧ o.column.aggregation = .accumulator a) ∨
      (∃ w, o.role = .window w ∧ o.column.aggregation = .window w) ∨
      (∃ text, o.role = .expression text ∧ o.column.aggregation = .none ∧
        o.column.expression? = some text) ∨
      o.role = (if grouped then .groupKey else .field) ∧ o.column.aggregation = .none ∧
        o.column.expression? = none := by
  rw [role_outputs h, Role.of]
  split
  · next a agg => exact .inl ⟨a, rfl, agg⟩
  · next w agg => exact .inr (.inl ⟨w, rfl, agg⟩)
  · next text agg own => exact .inr (.inr (.inl ⟨text, rfl, agg, own⟩))
  · next agg own => exact .inr (.inr (.inr ⟨rfl, agg, own⟩))

theorem name_field (h : o ∈ outputs root grouped q) (field : o.role = .field) :
    o.name = fieldPath root o.column.key := by
  obtain ⟨before, made⟩ := Output.exists_of_list h
  rw [role_outputs h] at field
  have named := congrArg Output.name made
  simpa only [Output.of_eq, field, Output.claimName] using named

theorem shown_eq_name (h : o ∈ outputs root grouped q) (other : o.role ≠ .field)
    (unkeyed : o.role ≠ .groupKey) : o.shown = o.name := by
  obtain ⟨before, made⟩ := Output.exists_of_list h
  rw [role_outputs h] at other unkeyed
  have shown := congrArg Output.shown made
  have named := congrArg Output.name made
  rw [Output.of_eq] at shown named
  cases role : Role.of grouped o.column with
  | groupKey => exact absurd role unkeyed
  | field => exact absurd role other
  | accumulator a | window w | expression text =>
    simp only [role, Output.claimShown] at shown named
    rw [shown, named]

theorem nodup_claims (root : String) (grouped : Bool) (q : Query) :
    ("_id" :: (outputs root grouped q).flatMap Output.claims).Nodup := by
  obtain ⟨after, claims⟩ := Output.exists_list_claims root grouped .initial q.selected
  refine List.nodup_cons.mpr ⟨fun mem => ?_, claims.nodup⟩
  exact claims.free _ mem List.mem_cons_self

theorem nodup_shown (root : String) (grouped : Bool) (q : Query) :
    ("_id" :: (outputs root grouped q).map (·.shown)).Nodup :=
  (nodup_claims root grouped q).sublist ((Output.shown_sublist_claims _).cons_cons _)

theorem nodup_names (root : String) (grouped : Bool) (q : Query) :
    ("_id" :: ((outputs root grouped q).filter (!·.isField)).map (·.name)).Nodup :=
  (nodup_claims root grouped q).sublist ((Output.name_sublist_claims _).cons_cons _)

-- A query that groups has keys of the group in place of fields.
theorem isField_eq_false_of_grouped (h : o ∈ outputs root true q) : o.isField = false := by
  apply Output.isField_eq_false
  rcases role_cases h with ⟨a, role, -⟩ | ⟨w, role, -⟩ | ⟨text, role, -⟩ | ⟨role, -⟩ <;>
    simp [role]

theorem nodup_names_of_grouped (root : String) (q : Query) :
    ("_id" :: (outputs root true q).map (·.name)).Nodup := by
  have all : (outputs root true q).filter (!·.isField) = outputs root true q := by
    apply List.filter_eq_self.mpr
    intro o mem
    simp [isField_eq_false_of_grouped mem]
  have named := nodup_names root true q
  rwa [all] at named

theorem exists_reduction (root : String) (named : o.isField = false)
    (other : o.isGroupKey = false) : ∃ r, reduction? root o = some (o.name, r) := by
  cases role : o.role with
  | groupKey => simp [Output.isGroupKey, role] at other
  | field => simp [Output.isField, role] at named
  | accumulator a | window w | expression text => exact ⟨_, by simp only [reduction?, role]; rfl⟩

theorem reduction_groupKey (key : o.isGroupKey = true) : reduction? root o = none := by
  unfold Output.isGroupKey at key
  split at key
  · next role => simp only [reduction?, role]
  · cases key

theorem keys_reductions (root : String) {os : List Output} (named : ∀ o ∈ os, o.isField = false) :
    (os.filterMap (reduction? root)).map Prod.fst =
      (os.filter (!·.isGroupKey)).map (·.name) := by
  induction os with
  | nil => rfl
  | cons o os ih =>
    have rest := ih fun o mem => named o (List.mem_cons_of_mem _ mem)
    cases key : o.isGroupKey with
    | true => simp [reduction_groupKey key, key, rest]
    | false =>
      obtain ⟨r, made⟩ := exists_reduction root (named o List.mem_cons_self) key
      simp [made, key, rest]

theorem nodup_reductions (root : String) (q : Query) :
    ("_id" :: ((outputs root true q).filterMap (reduction? root)).map Prod.fst).Nodup := by
  rw [keys_reductions root fun o => isField_eq_false_of_grouped]
  refine (nodup_names_of_grouped root q).sublist (.cons_cons _ ?_)
  exact (List.filter_sublist).map _

end

section

variable {s : Schema} {q : Query} {p : Pipeline}

theorem eq_of_project_mem (h : pipeline? s q = some p) {entries : List (String × Projected)}
    (mem : .project entries ∈ p.stages) :
    entries = projectEntries (isGrouped q) (outputs p.collection (isGrouped q) q) := by
  have made := (mem_stages_iff h .project rfl).mp mem
  simp only [generated, projectStages] at made
  split at made
  · cases List.mem_singleton.mp made
    rfl
  · cases made

theorem eq_of_group_mem (h : pipeline? s q = some p) {id : GroupId}
    {fields : List (String × Reduction)} (mem : .group id fields ∈ p.stages) :
    isGrouped q = true ∧ id = groupId p.collection (outputs p.collection true q) ∧
      fields = (outputs p.collection true q).filterMap (reduction? p.collection) := by
  have made := (mem_stages_iff h .group rfl).mp mem
  simp only [generated] at made
  split at made
  · next grouped =>
    rw [grouped] at made
    cases List.mem_singleton.mp made
    exact ⟨grouped, rfl, rfl⟩
  · cases made

end

theorem projectObject_eq {entries : List (String × Projected)}
    (distinct : ("_id" :: entries.map Prod.fst).Nodup) :
    projectObject entries = ("_id", .ofInt64 0) :: entries.map fun e => (e.1, e.2.render) := by
  apply Object.ofMembers_of_nodup
  simpa [Object.keys, Function.comp_def] using distinct

theorem groupObject_eq {id : GroupId} {fields : List (String × Reduction)}
    (distinct : ("_id" :: fields.map Prod.fst).Nodup) :
    groupObject id fields = ("_id", id.render) :: fields.map fun f => (f.1, f.2.render) := by
  apply Object.ofMembers_of_nodup
  simpa [Object.keys, Function.comp_def] using distinct

-- One entry for each output, in the order of the columns, and none of them lost to another.
structure KeepsOutputs (q : Query) (os : List Output) (p : Pipeline) : Prop where
  columns : os.map (·.column) = q.selected
  shown : ("_id" :: os.map (·.shown)).Nodup
  project : ∀ entries, .project entries ∈ p.stages →
    (Stage.project entries).render = .single "$project" (.object (("_id", .ofInt64 0) ::
      os.map fun o => (o.shown, (projected (isGrouped q) os o).render)))
  group : ∀ id fields, .group id fields ∈ p.stages →
    (Stage.group id fields).render = .single "$group" (.object (("_id", id.render) ::
        fields.map fun f => (f.1, f.2.render))) ∧
      ("_id" :: fields.map Prod.fst).Nodup ∧
      fields.map Prod.fst = (os.filter (!·.isGroupKey)).map (·.name) ∧
      ∀ o ∈ os, o.isGroupKey = false →
        ∃ r, reduction? p.collection o = some (o.name, r) ∧ (o.name, r) ∈ fields

theorem pipeline_keepsOutputs {s : Schema} {q : Query} {p : Pipeline}
    (h : pipeline? s q = some p) :
    KeepsOutputs q (outputs p.collection (isGrouped q) q) p := by
  refine ⟨column_outputs _ _ _, nodup_shown _ _ _, ?_, ?_⟩
  · intro entries mem
    obtain rfl := eq_of_project_mem h mem
    rw [Stage.render, projectObject_eq, projectEntries, List.map_map]
    · rfl
    · simpa [projectEntries, Function.comp_def] using nodup_shown p.collection (isGrouped q) q
  · intro id fields mem
    obtain ⟨grouped, rfl, rfl⟩ := eq_of_group_mem h mem
    rw [grouped]
    have distinct := nodup_reductions p.collection q
    refine ⟨?_, distinct, keys_reductions _ fun o => isField_eq_false_of_grouped, ?_⟩
    · rw [Stage.render, groupObject_eq distinct]
    · intro o here other
      obtain ⟨r, made⟩ := exists_reduction p.collection (isField_eq_false_of_grouped here) other
      exact ⟨r, made, List.mem_filterMap.mpr ⟨o, here, made⟩⟩

def ledger : Schema :=
  { entities := []
    relationships := [⟨"employees", "department_id", "departments", "id"⟩] }

-- Three columns are called `total`, and the name that a second count gets is an alias already.
def crowded : Query :=
  { columns :=
      [{ Column.ofKey ⟨"employees", "salary"⟩ with
          aggregation := .accumulator .sum, rawAlias := some "total" },
        { Column.ofKey ⟨"employees", "total"⟩ with rawAlias := some " total " },
        .ofKey ⟨"departments", "total"⟩,
        { Column.ofKey ⟨"employees", "id"⟩ with aggregation := .accumulator .count },
        { Column.ofKey ⟨"employees", "bonus"⟩ with
          rawAlias := some "count_2", rawExpression := some "$bonus" },
        { Column.ofKey ⟨"departments", "id"⟩ with aggregation := .accumulator .count },
        .ofKey ⟨"employees", "_id"⟩]
    options := .default }

theorem crowded_keepsOutputs :
    ∃ p, pipeline? ledger crowded = some p ∧ p.collection = "employees" ∧
      (outputs "employees" true crowded).map (·.shown) =
        ["total", "total_2", "departments_total", "count", "count_2", "count_3",
          "employees__id"] ∧
      KeepsOutputs crowded (outputs "employees" true crowded) p := by
  obtain ⟨p, h⟩ := exists_pipeline (s := ledger) (q := crowded) (by decide) (by decide)
  have root : p.collection = "employees" := (Option.some.inj (head_referencedEntities h)).symm
  have kept := pipeline_keepsOutputs h
  rw [root] at kept
  exact ⟨p, h, root, by decide +kernel, kept⟩

end QueryBuilder.Pipeline
