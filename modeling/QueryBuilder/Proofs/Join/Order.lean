import QueryBuilder.Join.Plan
import QueryBuilder.Proofs.Join.Search

set_option autoImplicit false

namespace QueryBuilder

def Relationship.ReadsAs (r : Relationship) (s : JoinStep) : Prop :=
  s = ⟨r.sourceEntity, r.sourceField, r.targetEntity, r.targetField⟩ ∨
    s = ⟨r.targetEntity, r.targetField, r.sourceEntity, r.sourceField⟩

structure JoinPlan.IsJoinOrder (rs : List Relationship) (referenced : List String)
    (p : JoinPlan) : Prop where
  root_eq : p.root = referenced.head?
  nodup : p.entities.Nodup
  covers : ∀ e ∈ referenced, e ∈ p.entities
  connected : ∀ before s after, p.joins = before ++ Join.on s :: after →
    s.toEntity ≠ s.fromEntity ∧ s.fromEntity ∈ p.root.toList ++ before.map Join.entity ∧
      ∃ r ∈ rs, r.ReadsAs s

theorem JoinGraph.mem_steps_ofRelationships {rs : List Relationship} {s : JoinStep} :
    s ∈ (ofRelationships rs).steps ↔
      ∃ r ∈ rs, r.sourceEntity ≠ r.targetEntity ∧ r.ReadsAs s := by
  simp only [ofRelationships, List.mem_flatMap]
  refine exists_congr fun r => and_congr_right fun _ => ?_
  by_cases self : r.sourceEntity = r.targetEntity
  · simp [directions, self]
  · simp [directions, self, Relationship.ReadsAs]

namespace JoinPlan

variable {g : JoinGraph}

inductive InOrder (g : JoinGraph) (start : List String) : List Join → Prop
  | nil : InOrder g start []
  | on {joins : List Join} {s : JoinStep} (before : InOrder g start joins) (edge : s ∈ g.steps)
      (leaves : s.fromEntity ∈ start ++ joins.map Join.entity)
      (enters : s.toEntity ∉ start ++ joins.map Join.entity) :
      InOrder g start (joins ++ [Join.on s])
  | cross {joins : List Join} {e : String} (before : InOrder g start joins)
      (enters : e ∉ start ++ joins.map Join.entity) : InOrder g start (joins ++ [Join.cross e])

namespace InOrder

theorem entity_on (steps : List JoinStep) :
    (steps.map Join.on).map Join.entity = steps.map (·.toEntity) := by
  simp [Join.entity, Function.comp_def]

theorem append_steps {start : List String} {joins : List Join} {steps : List JoinStep}
    (before : InOrder g start joins)
    (grown : g.Growth (start ++ joins.map Join.entity) steps) :
    InOrder g start (joins ++ steps.map Join.on) := by
  induction grown with
  | nil => simpa using before
  | @snoc steps s _ edge leaves enters ih =>
    rw [List.map_append, ← List.append_assoc]
    refine .on ih edge ?_ ?_
    · simpa only [List.map_append, entity_on, List.append_assoc] using leaves
    · simpa only [List.map_append, entity_on, List.append_assoc] using enters

theorem nodup {start : List String} {joins : List Join} (order : InOrder g start joins)
    (distinct : start.Nodup) : (start ++ joins.map Join.entity).Nodup := by
  induction order with
  | nil => simpa using distinct
  | on _ _ _ enters ih | cross _ enters ih =>
    rw [List.map_append, ← List.append_assoc, List.nodup_append]
    refine ⟨ih, List.pairwise_singleton _ _, ?_⟩
    rintro x hx y hy rfl
    obtain rfl := List.mem_singleton.mp hy
    exact enters hx

theorem on_of_append {start : List String} {joins : List Join} (order : InOrder g start joins)
    {before after : List Join} {s : JoinStep} (h : joins = before ++ Join.on s :: after) :
    s ∈ g.steps ∧ s.fromEntity ∈ start ++ before.map Join.entity ∧
      s.toEntity ∉ start ++ before.map Join.entity := by
  -- The last join of a plan is either the edge in question or lies behind it.
  induction order generalizing after with
  | nil => simp at h
  | @on joins t _ edge leaves enters ih =>
    rcases List.eq_nil_or_concat after with rfl | ⟨after, j, rfl⟩
    · obtain ⟨rfl, ht⟩ := List.append_inj' h rfl
      cases ht
      exact ⟨edge, leaves, enters⟩
    · rw [List.concat_eq_append, ← List.cons_append, ← List.append_assoc] at h
      exact ih (List.append_inj' h rfl).1
  | @cross joins e _ enters ih =>
    rcases List.eq_nil_or_concat after with rfl | ⟨after, j, rfl⟩
    · cases (List.append_inj' h rfl).2
    · rw [List.concat_eq_append, ← List.cons_append, ← List.append_assoc] at h
      exact ih (List.append_inj' h rfl).1

end InOrder

theorem entities_append (p : JoinPlan) (steps : List JoinStep) :
    p.root.toList ++ (p.joins ++ steps.map Join.on).map Join.entity =
      p.entities ++ steps.map (·.toEntity) := by
  rw [List.map_append, InOrder.entity_on, ← List.append_assoc]
  rfl

theorem expand_inOrder {p : JoinPlan} {wanted : List String}
    (order : InOrder g p.root.toList p.joins) :
    InOrder g (p.expand g wanted).root.toList (p.expand g wanted).joins := by
  refine order.append_steps (JoinGraph.spread_growth (fun _ hx => hx) ?_)
  intro x hx
  exact of_decide_eq_true (List.mem_filter.mp hx).2

theorem mem_expand {p : JoinPlan} {wanted : List String} {e : String} (h : e ∈ p.entities) :
    e ∈ (p.expand g wanted).entities := by
  have more : (p.expand g wanted).entities = p.entities ++
      (g.spread (wanted.filter (· ∉ p.entities)) p.entities).map (·.toEntity) :=
    entities_append p _
  rw [more]
  exact List.mem_append_left _ h

theorem connect_inOrder {p : JoinPlan} {wanted : List String} {e : String}
    (order : InOrder g p.root.toList p.joins) (missing : e ∉ p.entities) :
    InOrder g (p.connect g wanted e).root.toList (p.connect g wanted e).joins := by
  cases h : g.bridge? p.entities e with
  | some way =>
    simp only [connect, h]
    exact order.append_steps (JoinGraph.bridge_growth h).1
  | none =>
    simp only [connect, h]
    exact .cross order missing

theorem connect_root (p : JoinPlan) (wanted : List String) (e : String) :
    (p.connect g wanted e).root = p.root := by
  unfold connect
  split <;> rfl

theorem entities_connect (p : JoinPlan) (wanted : List String) (e : String) :
    ∃ added, (p.connect g wanted e).entities = p.entities ++ added ∧ e ∈ p.entities ++ added := by
  cases h : g.bridge? p.entities e with
  | some way =>
    refine ⟨way.map (·.toEntity), ?_, (JoinGraph.bridge_growth h).2⟩
    simp only [connect, h]
    exact entities_append p way
  | none =>
    refine ⟨[e], ?_, by simp⟩
    simp only [connect, h]
    simp [entities, Join.entity]

theorem ensure_inOrder {p : JoinPlan} {wanted : List String} {e : String}
    (order : InOrder g p.root.toList p.joins) :
    InOrder g (p.ensure g wanted e).root.toList (p.ensure g wanted e).joins := by
  by_cases present : e ∈ p.entities
  · rwa [ensure, if_pos present]
  · rw [ensure, if_neg present]
    exact expand_inOrder (connect_inOrder order present)

theorem ensure_root (p : JoinPlan) (wanted : List String) (e : String) :
    (p.ensure g wanted e).root = p.root := by
  unfold ensure
  split
  · rfl
  · exact connect_root p wanted e

theorem mem_ensure {p : JoinPlan} {wanted : List String} {e x : String}
    (h : x ∈ p.entities ∨ x = e) : x ∈ (p.ensure g wanted e).entities := by
  by_cases present : e ∈ p.entities
  · rw [ensure, if_pos present]
    rcases h with h | rfl
    · exact h
    · exact present
  · rw [ensure, if_neg present]
    obtain ⟨added, entities, here⟩ := entities_connect (g := g) p wanted e
    apply mem_expand
    rw [entities]
    rcases h with h | rfl
    · exact List.mem_append_left _ h
    · exact here

theorem foldl_ensure_inOrder {p : JoinPlan} {wanted : List String} (es : List String)
    (order : InOrder g p.root.toList p.joins) :
    InOrder g (es.foldl (ensure g wanted) p).root.toList (es.foldl (ensure g wanted) p).joins := by
  induction es generalizing p with
  | nil => exact order
  | cons e es ih => exact ih (ensure_inOrder order)

theorem foldl_ensure_root (p : JoinPlan) (wanted es : List String) :
    (es.foldl (ensure g wanted) p).root = p.root := by
  induction es generalizing p with
  | nil => rfl
  | cons e es ih => rw [List.foldl_cons, ih, ensure_root]

theorem mem_foldl_ensure {p : JoinPlan} {wanted es : List String} {x : String}
    (h : x ∈ p.entities ∨ x ∈ es) : x ∈ (es.foldl (ensure g wanted) p).entities := by
  induction es generalizing p with
  | nil => simpa using h
  | cons e es ih =>
    apply ih
    rcases h with h | h
    · exact .inl (mem_ensure (.inl h))
    · rcases List.mem_cons.mp h with rfl | h
      · exact .inl (mem_ensure (.inr rfl))
      · exact .inr h

end JoinPlan

namespace JoinGraph

theorem plan_inOrder (g : JoinGraph) (referenced : List String) :
    JoinPlan.InOrder g (g.plan referenced).root.toList (g.plan referenced).joins := by
  unfold plan
  split
  · exact .nil
  · exact JoinPlan.foldl_ensure_inOrder _ (JoinPlan.expand_inOrder .nil)

theorem plan_root (g : JoinGraph) (referenced : List String) :
    (g.plan referenced).root = referenced.head? := by
  cases referenced with
  | nil => rfl
  | cons root others =>
    simp only [plan, List.eraseDups_cons, List.head?_cons]
    rw [JoinPlan.foldl_ensure_root]
    rfl

theorem mem_plan (g : JoinGraph) {referenced : List String} {e : String} (h : e ∈ referenced) :
    e ∈ (g.plan referenced).entities := by
  rw [← List.mem_eraseDups] at h
  unfold plan
  split
  · next none => simp [none] at h
  · next root others some =>
    apply JoinPlan.mem_foldl_ensure
    rw [some] at h
    rcases List.mem_cons.mp h with rfl | h
    · exact .inl (JoinPlan.mem_expand (by simp [JoinPlan.entities]))
    · exact .inr h

theorem plan_singleton (g : JoinGraph) (e : String) : g.plan [e] = ⟨some e, [], [], []⟩ := by
  simp [plan, JoinPlan.expand, JoinPlan.entities, spread_empty, List.eraseDups_cons]

theorem plan_isJoinOrder (rs : List Relationship) (referenced : List String) :
    ((ofRelationships rs).plan referenced).IsJoinOrder rs referenced ∧
      (ofRelationships rs).plan [] = .empty := by
  refine ⟨⟨plan_root _ _, ?_, fun _ => mem_plan _, ?_⟩, rfl⟩
  · refine (plan_inOrder _ referenced).nodup ?_
    cases ((ofRelationships rs).plan referenced).root <;> simp
  · intro before s after h
    obtain ⟨edge, leaves, enters⟩ := (plan_inOrder _ referenced).on_of_append h
    obtain ⟨r, hr, -, reads⟩ := mem_steps_ofRelationships.mp edge
    refine ⟨?_, leaves, r, hr, reads⟩
    intro self
    exact enters (self ▸ leaves)

end JoinGraph

end QueryBuilder
