import QueryBuilder.Proofs.Pipeline.Stages

set_option autoImplicit false

namespace QueryBuilder.Pipeline

open Json (Value Object)

def Stage.lookedUp? : Stage → Option String
  | .lookup entity _ _ | .lookupAll entity => some entity
  | _ => none

def lookedUp (stages : List Stage) : List String := stages.filterMap Stage.lookedUp?

-- The documents that look up `e` behind lookups of the entities `known`.
inductive LooksUp (s : Schema) (root : String) (joins : List Join) (known : List String)
    (e : String) : Value → Prop
  | fromRoot {field foreign : String} {r : Relationship} (mem : r ∈ s.relationships)
      (reads : r.ReadsAs ⟨root, field, e, foreign⟩) :
      LooksUp s root joins known e <| .single "$lookup" <| .object
        [("from", .string e), ("localField", .string field), ("foreignField", .string foreign),
          ("as", .string e)]
  | fromKnown {entity field foreign : String} {r : Relationship} (earlier : entity ∈ known)
      (mem : r ∈ s.relationships) (reads : r.ReadsAs ⟨entity, field, e, foreign⟩) :
      LooksUp s root joins known e <| .single "$lookup" <| .object
        [("from", .string e), ("localField", .string (entity ++ "." ++ field)),
          ("foreignField", .string foreign), ("as", .string e)]
  | all (crosses : .cross e ∈ joins) :
      LooksUp s root joins known e <| .single "$lookup" <| .object
        [("from", .string e), ("pipeline", .array []), ("as", .string e)]

def unwoundBody (e : String) : JoinType → Value
  | .left | .full =>
    .object [("path", .string ("$" ++ e)), ("preserveNullAndEmptyArrays", .bool true)]
  | .inner | .right => .string ("$" ++ e)

structure LookupsInScope (s : Schema) (q : Query) (p : Pipeline) : Prop where
  entities : lookedUp p.stages =
    ((JoinGraph.ofSchema s).plan q.referencedEntities).joins.map Join.entity
  documents : ∀ before stage after e, p.stages = before ++ stage :: after →
    stage.lookedUp? = some e →
      LooksUp s p.collection ((JoinGraph.ofSchema s).plan q.referencedEntities).joins
        (lookedUp before) e stage.render
  others : ∀ stage ∈ p.stages, stage.lookedUp? = none →
    ∀ body, stage.render ≠ .single "$lookup" body
  scope : ∀ k ∈ q.keys,
    k.entity = p.collection ∧ k.entity ∉ lookedUp p.stages ∨
      k.entity ≠ p.collection ∧ (lookedUp p.stages).count k.entity = 1
  unwound : q.options.lookupType = .unwind → ∀ before stage after e,
    p.stages = before ++ stage :: after → stage.lookedUp? = some e →
      ∃ next rest, after = next :: rest ∧
        next.render = .single "$unwind" (unwoundBody e q.options.joinType)
  first : ∀ before stage after, p.stages = before ++ stage :: after →
    stage.place? = some .lookup → ∀ x ∈ before, ∀ place, x.place? = some place → place = .lookup

section

variable {α : Type} {xs ys before after : List α} {x : α}

theorem split_of_not_mem_left (h : xs ++ ys = before ++ x :: after) (absent : x ∉ xs) :
    ∃ between, before = xs ++ between ∧ ys = between ++ x :: after := by
  rcases List.append_eq_append_iff.mp h with ⟨m, rfl, rest⟩ | ⟨m, front, back⟩
  · exact ⟨m, rfl, rest⟩
  · cases m with
    | nil => exact ⟨[], by simpa using front.symm, back.symm⟩
    | cons y m =>
      obtain ⟨rfl, -⟩ := List.cons.inj back
      exact absurd (by simp [front]) absent

theorem split_of_not_mem_right (h : xs ++ ys = before ++ x :: after) (absent : x ∉ ys) :
    ∃ between, xs = before ++ x :: between ∧ after = between ++ ys := by
  rcases List.append_eq_append_iff.mp h with ⟨m, -, rfl⟩ | ⟨m, front, back⟩
  · exact absurd (by simp) absent
  · cases m with
    | nil =>
      obtain rfl : x :: after = ys := back
      exact absurd (by simp) absent
    | cons y m =>
      obtain ⟨rfl, rest⟩ := List.cons.inj back
      exact ⟨m, front, rest⟩

end

section

variable {root : String} {q : Query}

theorem lookedUp_lookupStage (root : String) (j : Join) :
    (lookupStage root j).lookedUp? = some j.entity := by
  cases j <;> rfl

theorem lookedUp_lookupStages (root : String) (q : Query) (j : Join) :
    lookedUp (lookupStages root q.options j) = [j.entity] := by
  unfold lookedUp lookupStages
  rw [List.filterMap_cons_some (lookedUp_lookupStage root j)]
  split <;> rfl

theorem lookedUp_lookups (root : String) (q : Query) (joins : List Join) :
    lookedUp (joins.flatMap (lookupStages root q.options)) = joins.map Join.entity := by
  induction joins with
  | nil => rfl
  | cons j joins ih =>
    rw [List.flatMap_cons, lookedUp, List.filterMap_append]
    exact congrArg₂ (· ++ ·) (lookedUp_lookupStages root q j) ih

theorem lookedUp_tail {j : Join} {stage : Stage}
    (h : stage ∈ (lookupStages root q.options j).tail) : stage.lookedUp? = none := by
  unfold lookupStages at h
  rw [List.tail_cons] at h
  split at h
  · cases h
  · rw [List.mem_singleton.mp h]
    rfl

-- A lookup opens the stages of its join, so what stands before it belongs to other joins.
theorem lookups_split {joins : List Join} {before after : List Stage} {stage : Stage} {e : String}
    (split : joins.flatMap (lookupStages root q.options) = before ++ stage :: after)
    (looks : stage.lookedUp? = some e) :
    ∃ js j others, joins = js ++ j :: others ∧ before = js.flatMap (lookupStages root q.options) ∧
      stage = lookupStage root j ∧
      after = (lookupStages root q.options j).tail ++
        others.flatMap (lookupStages root q.options) := by
  induction joins generalizing before with
  | nil => simp at split
  | cons j joins ih =>
    rw [List.flatMap_cons] at split
    cases before with
    | nil =>
      obtain ⟨rfl, rest⟩ := List.cons.inj split
      exact ⟨[], j, joins, rfl, rfl, rfl, rest.symm⟩
    | cons x before =>
      obtain ⟨rfl, behind⟩ := List.cons.inj split
      have absent : stage ∉ (lookupStages root q.options j).tail := by
        intro mem
        rw [lookedUp_tail mem] at looks
        cases looks
      obtain ⟨between, rfl, later⟩ := split_of_not_mem_left behind absent
      obtain ⟨js, i, others, rfl, rfl, made, rfl⟩ := ih later
      exact ⟨j :: js, i, others, rfl, rfl, made, rfl⟩

end

section

variable {s : Schema} {q : Query} {p : Pipeline}

theorem stages_lookups (h : pipeline? s q = some p) :
    ∃ front back, p.stages = front ++
        (((JoinGraph.ofSchema s).plan q.referencedEntities).joins.flatMap
          (lookupStages p.collection q.options) ++ back) ∧
      (∀ stage ∈ front, stage.place? = none) ∧ ∀ stage ∈ back, stage.place? ≠ some .lookup := by
  have custom (position : StagePosition) :
      ∀ stage ∈ customStages q.options position, stage.place? ≠ some .lookup := by
    intro stage mem
    rw [place_custom mem]
    exact nofun
  have own (place : Place) (other : place ≠ .lookup) : ∀ stage ∈ generated s p.collection
      ((JoinGraph.ofSchema s).plan q.referencedEntities).joins q place,
        stage.place? ≠ some .lookup := by
    intro stage mem
    rw [place_generated mem]
    exact fun same => other (Option.some.inj same)
  have stages := stages_eq h
  simp only [List.append_assoc] at stages
  refine ⟨_, _, stages, fun stage => place_custom, ?_⟩
  simp only [List.forall_mem_append]
  and_intros <;> first | exact custom _ | exact own _ (by decide)

theorem lookedUp_stagesAt (stages : List Stage) :
    lookedUp (stagesAt .lookup stages) = lookedUp stages := by
  rw [lookedUp, stagesAt, List.filterMap_filter, lookedUp]
  congr 1
  funext stage
  cases stage <;> rfl

theorem lookedUp_stages (h : pipeline? s q = some p) :
    lookedUp p.stages =
      ((JoinGraph.ofSchema s).plan q.referencedEntities).joins.map Join.entity := by
  rw [← lookedUp_stagesAt, stagesAt_stages h]
  exact lookedUp_lookups _ _ _

theorem place_of_lookedUp {stage : Stage} {e : String} (looks : stage.lookedUp? = some e) :
    stage.place? = some .lookup := by
  cases stage <;> first | rfl | cases looks

theorem render_of_not_lookedUp {stage : Stage} (other : stage.lookedUp? = none) (body : Value) :
    stage.render ≠ .single "$lookup" body := by
  cases stage with
  | lookup | lookupAll => cases other
  | custom body' =>
    cases body' <;> simp [Stage.render, customValue, unwindValue, Value.single]
  | _ => simp [Stage.render, unwindValue, Value.single]

theorem render_unwind (e : String) (type : JoinType) :
    (Stage.unwind e (keepsUnmatched type)).render = .single "$unwind" (unwoundBody e type) := by
  cases type <;> rfl

theorem lookup_split (h : pipeline? s q = some p) {before after : List Stage} {stage : Stage}
    {e : String} (split : p.stages = before ++ stage :: after)
    (looks : stage.lookedUp? = some e) :
    ∃ js j others rest,
      ((JoinGraph.ofSchema s).plan q.referencedEntities).joins = js ++ j :: others ∧
        stage = lookupStage p.collection j ∧ lookedUp before = js.map Join.entity ∧
        after = (lookupStages p.collection q.options j).tail ++ rest := by
  obtain ⟨front, back, stages, customs, apart⟩ := stages_lookups h
  have place := place_of_lookedUp looks
  have none : lookedUp front = [] := by
    apply List.filterMap_eq_nil_iff.mpr
    intro x mem
    cases own : x.lookedUp? with
    | none => rfl
    | some e => simpa [customs x mem] using place_of_lookedUp own
  have absent : stage ∉ front := by
    intro mem
    rw [customs stage mem] at place
    cases place
  rw [stages] at split
  obtain ⟨between, rfl, later⟩ := split_of_not_mem_left split absent
  obtain ⟨rest, within, rfl⟩ := split_of_not_mem_right later fun mem => apart stage mem place
  obtain ⟨js, j, others, joins, rfl, made, rfl⟩ := lookups_split within looks
  refine ⟨js, j, others, _, joins, made, ?_, List.append_assoc _ _ _⟩
  rw [lookedUp, List.filterMap_append]
  exact congrArg₂ (· ++ ·) none (lookedUp_lookups _ _ js)

theorem entities_plan (h : pipeline? s q = some p) :
    ((JoinGraph.ofSchema s).plan q.referencedEntities).entities =
      p.collection :: lookedUp p.stages := by
  rw [JoinPlan.entities, (pipeline_eq h).2.1, lookedUp_stages h]
  rfl

theorem nodup_lookedUp (h : pipeline? s q = some p) :
    (p.collection :: lookedUp p.stages).Nodup := by
  rw [← entities_plan h]
  exact (JoinGraph.plan_inOrder _ _).nodup (by cases JoinPlan.root _ <;> simp)

theorem entity_mem_lookedUp (h : pipeline? s q = some p) {k : FieldKey} (mem : k ∈ q.keys) :
    k.entity ∈ p.collection :: lookedUp p.stages := by
  rw [← entities_plan h]
  apply JoinGraph.mem_plan
  rw [Query.referencedEntities, List.mem_eraseDups]
  exact List.mem_map_of_mem mem

theorem looksUp_lookup (h : pipeline? s q = some p) {before after : List Stage} {stage : Stage}
    {e : String} (split : p.stages = before ++ stage :: after)
    (looks : stage.lookedUp? = some e) :
    LooksUp s p.collection ((JoinGraph.ofSchema s).plan q.referencedEntities).joins
      (lookedUp before) e stage.render := by
  obtain ⟨js, j, others, rest, joins, rfl, earlier, -⟩ := lookup_split h split looks
  rw [lookedUp_lookupStage] at looks
  cases looks
  cases j with
  | cross entity => exact .all (by simp [joins, Join.entity])
  | on step =>
    obtain ⟨edge, leaves, -⟩ := (JoinGraph.plan_inOrder _ q.referencedEntities).on_of_append joins
    obtain ⟨r, mem, -, reads⟩ := JoinGraph.mem_steps_ofRelationships.mp edge
    rw [(pipeline_eq h).2.1] at leaves
    rw [lookupStage, Stage.render, fieldPath]
    split
    · next root => exact .fromRoot mem (root ▸ reads)
    · next other =>
      rw [earlier]
      exact .fromKnown ((List.mem_cons.mp leaves).resolve_left other) mem reads

theorem pipeline_lookupsInScope (h : pipeline? s q = some p) : LookupsInScope s q p := by
  refine ⟨lookedUp_stages h, fun _ _ _ _ => looksUp_lookup h, fun _ _ => render_of_not_lookedUp,
    ?_, ?_, ?_⟩
  · intro k mem
    obtain ⟨absent, distinct⟩ := List.nodup_cons.mp (nodup_lookedUp h)
    rcases List.mem_cons.mp (entity_mem_lookedUp h mem) with root | looked
    · exact .inl ⟨root, root ▸ absent⟩
    · refine .inr ⟨?_, List.count_eq_one_of_mem distinct looked⟩
      rintro root
      exact absent (root ▸ looked)
  · intro unwinds before stage after e split looks
    obtain ⟨js, j, others, rest, -, rfl, -, rfl⟩ := lookup_split h split looks
    rw [lookedUp_lookupStage] at looks
    cases looks
    exact ⟨_, rest, by simp [lookupStages, unwinds], render_unwind _ _⟩
  · intro before stage after split place x mem place' own
    have ascends := stages_ascend h
    rw [split] at ascends
    have rank := ascends.rank_le mem own place
    cases place' <;> first | rfl | exact absurd rank (by decide)

end

def sales : Schema :=
  { entities := []
    relationships :=
      [⟨"items", "order_id", "orders", "id"⟩, ⟨"items", "product_id", "products", "id"⟩] }

-- `items` lies on the way to `products`, and nothing leads to `vendors`, by which a window divides.
def turnover : Query :=
  { columns :=
      [{ Column.ofKey ⟨"orders", "total"⟩ with
          aggregation := .window ⟨.rank, [⟨"vendors", "city"⟩], [], none⟩ },
        { Column.ofKey ⟨"products", "name"⟩ with selected := false, sort := some ⟨.asc, 1⟩ }]
    options := .default }

theorem turnover_lookupsInScope :
    turnover.keys.map (·.entity) = ["orders", "products", "vendors"] ∧
      ∃ p, pipeline? sales turnover = some p ∧ p.collection = "orders" ∧
        LookupsInScope sales turnover p := by
  obtain ⟨p, h⟩ := exists_pipeline (s := sales) (q := turnover) (by decide) (by decide)
  have root : p.collection = "orders" := (Option.some.inj (head_referencedEntities h)).symm
  exact ⟨by decide, p, h, root, pipeline_lookupsInScope h⟩

end QueryBuilder.Pipeline
