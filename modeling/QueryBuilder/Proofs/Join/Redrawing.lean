import Mathlib.Logic.Relation
import QueryBuilder.Proofs.Join.Distance

set_option autoImplicit false

namespace QueryBuilder

namespace Relationship

def swapped (r : Relationship) : Relationship :=
  ⟨r.targetEntity, r.targetField, r.sourceEntity, r.sourceField⟩

def Parallel (r s : Relationship) : Prop :=
  s.sourceEntity = r.sourceEntity ∧ s.targetEntity = r.targetEntity ∨
    s.sourceEntity = r.targetEntity ∧ s.targetEntity = r.sourceEntity

end Relationship

/-- One change to a list of relationships that leaves its undirected graph as it is, and also the
order of the edges and the fields of each. -/
inductive Redraws : List Relationship → List Relationship → Prop
  | swap (before : List Relationship) (r : Relationship) (after : List Relationship) :
      Redraws (before ++ r :: after) (before ++ r.swapped :: after)
  | loop (before : List Relationship) (r : Relationship) (after : List Relationship)
      (self : r.sourceEntity = r.targetEntity) : Redraws (before ++ after) (before ++ r :: after)
  | parallel (before : List Relationship) (r : Relationship) (between : List Relationship)
      (s : Relationship) (after : List Relationship) (same : r.Parallel s) :
      Redraws (before ++ r :: between ++ after) (before ++ r :: between ++ s :: after)

namespace JoinGraph

def LooksLike (g h : JoinGraph) : Prop :=
  ∀ pool e, discover pool (g.stepsFrom e) = discover pool (h.stepsFrom e)

variable {g h : JoinGraph} {pool pool' queue joined : List String} {steps : List JoinStep}

theorem discover_congr (pools : ∀ x, x ∈ pool ↔ x ∈ pool') :
    discover pool steps = discover pool' steps := by
  induction steps generalizing pool pool' with
  | nil => rfl
  | cons s steps ih =>
    have rest : discover (pool.filter (· ≠ s.toEntity)) steps =
        discover (pool'.filter (· ≠ s.toEntity)) steps :=
      ih fun x => by simp [pools]
    rw [discover, discover, rest, ih pools]
    simp only [pools]

theorem spread_congr (alike : g.LooksLike h) (pools : ∀ x, x ∈ pool ↔ x ∈ pool') :
    g.spread pool queue = h.spread pool' queue := by
  induction pool, queue using spread.induct (g := g) generalizing pool' with
  | case1 => rw [spread, spread]
  | case2 pool e queue none ih =>
    have none' : discover pool' (h.stepsFrom e) = [] := by
      rw [← none, alike, discover_congr pools]
    rw [spread_cons_empty none, spread_cons_empty none', ih pools]
  | case3 pool e queue s found some ih =>
    have some' : discover pool' (h.stepsFrom e) = s :: found := by
      rw [← some, alike, discover_congr pools]
    rw [spread_cons_found some, spread_cons_found some', ih]
    simp [without, pools]

theorem mem_entities_iff {x : String} :
    x ∈ g.entities ↔ ∃ e, discover [x] (g.stepsFrom e) ≠ [] := by
  constructor
  · intro listed
    obtain ⟨s, edge, rfl⟩ := List.mem_map.mp listed
    have wanted : s.toEntity ∈ [s.toEntity] := List.mem_singleton_self _
    have found := discover_complete (mem_stepsFrom.mpr ⟨edge, rfl⟩) wanted
    refine ⟨s.fromEntity, fun none => ?_⟩
    rw [none] at found
    cases found
  · rintro ⟨e, some⟩
    obtain ⟨s, found⟩ := List.exists_mem_of_ne_nil _ some
    obtain rfl := List.mem_singleton.mp (mem_pool_of_mem_discover found)
    have edge := mem_of_mem_discover found
    exact List.mem_map_of_mem (mem_stepsFrom.mp edge).1

theorem bridge_congr (alike : g.LooksLike h) (target : String) :
    g.bridge? joined target = h.bridge? joined target := by
  have pools : ∀ x, x ∈ g.entities.filter (· ∉ joined) ↔ x ∈ h.entities.filter (· ∉ joined) := by
    intro x
    simp only [List.mem_filter, mem_entities_iff, alike _ _]
  simp only [bridge?, spread_congr alike pools]

end JoinGraph

namespace JoinPlan

variable {g h : JoinGraph} (alike : g.LooksLike h) (wanted : List String)
include alike

theorem expand_congr (p : JoinPlan) : p.expand g wanted = p.expand h wanted := by
  simp only [expand, JoinGraph.spread_congr alike fun _ => Iff.rfl]

theorem connect_congr (p : JoinPlan) (e : String) :
    p.connect g wanted e = p.connect h wanted e := by
  simp only [connect, JoinGraph.bridge_congr alike]

theorem ensure_congr : ensure g wanted = ensure h wanted := by
  funext p e
  simp only [ensure, connect_congr alike, expand_congr alike]

end JoinPlan

namespace JoinGraph

variable {pool : List String} {xs ys zs : List JoinStep}

theorem LooksLike.plan {g h : JoinGraph} (alike : g.LooksLike h) (referenced : List String) :
    g.plan referenced = h.plan referenced := by
  simp only [JoinGraph.plan, JoinPlan.ensure_congr alike, JoinPlan.expand_congr alike]

theorem discover_append (pool : List String) (xs ys : List JoinStep) :
    discover pool (xs ++ ys) =
      discover pool xs ++ discover (without pool (discover pool xs)) ys := by
  induction xs generalizing pool with
  | nil =>
    have whole : without pool [] = pool := List.filter_eq_self.mpr fun _ _ => by simp
    rw [List.nil_append, discover, List.nil_append, whole]
  | cons s xs ih =>
    by_cases here : s.toEntity ∈ pool
    · simp only [List.cons_append, discover, if_pos here, ih]
      congr 2
      simp [without, List.filter_filter, Bool.and_comm]
    · simp only [List.cons_append, discover, if_neg here, ih]

theorem discover_of_unwanted (unwanted : ∀ s ∈ xs, s.toEntity ∉ pool) : discover pool xs = [] := by
  induction xs with
  | nil => rfl
  | cons s xs ih =>
    obtain ⟨here, others⟩ := List.forall_mem_cons.mp unwanted
    rw [discover, if_neg here, ih others]

theorem discover_of_repeated (repeated : ∀ s ∈ ys, s.toEntity ∈ xs.map (·.toEntity)) :
    discover pool (xs ++ ys ++ zs) = discover pool (xs ++ zs) := by
  have none : discover (without pool (discover pool xs)) ys = [] := by
    refine discover_of_unwanted fun s hs left => ?_
    obtain ⟨wanted, missed⟩ := List.mem_filter.mp left
    obtain ⟨t, ht, same⟩ := List.mem_map.mp (repeated s hs)
    have found := discover_complete ht (same ▸ wanted)
    exact of_decide_eq_true missed (same ▸ found)
  rw [discover_append, discover_append pool xs ys, none, List.append_nil, discover_append]

theorem stepsFrom_ofRelationships (rs : List Relationship) (e : String) :
    (ofRelationships rs).stepsFrom e =
      rs.flatMap fun r => (directions r).filter (·.fromEntity = e) :=
  List.filter_flatMap

theorem directions_swapped (r : Relationship) (e : String) :
    (directions r.swapped).filter (·.fromEntity = e) =
      (directions r).filter (·.fromEntity = e) := by
  obtain ⟨source, sourceField, target, targetField⟩ := r
  by_cases self : source = target
  · simp [directions, Relationship.swapped, self]
  · have other : ¬target = source := fun same => self same.symm
    simp only [directions, Relationship.swapped, self, other, if_false]
    by_cases here : source = e
    · have there : ¬target = e := fun same => self (here.trans same.symm)
      simp [here, there]
    · by_cases there : target = e <;> simp [here, there]

theorem toEntity_of_parallel {r s : Relationship} (same : r.Parallel s) (e : String) :
    ∀ t ∈ (directions s).filter (·.fromEntity = e),
      t.toEntity ∈ ((directions r).filter (·.fromEntity = e)).map (·.toEntity) := by
  obtain ⟨source, sourceField, target, targetField⟩ := r
  obtain ⟨source', sourceField', target', targetField'⟩ := s
  intro t ht
  rcases same with ⟨rfl, rfl⟩ | ⟨rfl, rfl⟩ <;> grind [directions]

theorem looksLike_of_redraws {rs rs' : List Relationship} (redraws : Redraws rs rs') :
    (ofRelationships rs).LooksLike (ofRelationships rs') := by
  intro pool e
  rw [stepsFrom_ofRelationships, stepsFrom_ofRelationships]
  cases redraws with
  | swap before r after =>
    simp only [List.flatMap_append, List.flatMap_cons, directions_swapped]
  | loop before r after self =>
    have none : directions r = [] := if_pos self
    simp [none]
  | parallel before r between s after same =>
    simp only [List.flatMap_append, List.flatMap_cons, ← List.append_assoc]
    refine (discover_of_repeated fun t ht => ?_).symm
    have first := toEntity_of_parallel same e t ht
    simp [first]

theorem plan_redrawn {rs rs' : List Relationship} (redrawn : Relation.EqvGen Redraws rs rs')
    (referenced : List String) :
    (ofRelationships rs).plan referenced = (ofRelationships rs').plan referenced := by
  induction redrawn with
  | rel rs rs' redraws => exact (looksLike_of_redraws redraws).plan referenced
  | refl rs => rfl
  | symm rs rs' _ ih => exact ih.symm
  | trans rs mid rs' _ _ first second => exact first.trans second

def placed : List Relationship :=
  [⟨"orders", "user_id", "users", "id"⟩, ⟨"items", "order_id", "orders", "id"⟩]

def tangled : List Relationship :=
  [⟨"users", "id", "orders", "user_id"⟩, ⟨"users", "boss_id", "users", "id"⟩,
    ⟨"items", "order_id", "orders", "id"⟩, ⟨"orders", "payer_id", "users", "id"⟩]

theorem tangled_redrawn :
    Relation.EqvGen Redraws placed tangled ∧
      (ofRelationships placed).plan ["items", "users"] =
        (ofRelationships tangled).plan ["items", "users"] := by
  have pays : Redraws placed (⟨"users", "id", "orders", "user_id"⟩ :: placed.tail) := .swap [] _ _
  have leads : Redraws (⟨"users", "id", "orders", "user_id"⟩ :: placed.tail) tangled.dropLast :=
    .loop [_] ⟨"users", "boss_id", "users", "id"⟩ _ rfl
  have again : Redraws tangled.dropLast tangled :=
    .parallel [] _ tangled.tail.dropLast ⟨"orders", "payer_id", "users", "id"⟩ []
      (.inr ⟨rfl, rfl⟩)
  have redrawn : Relation.EqvGen Redraws placed tangled :=
    .trans _ _ _ (.rel _ _ pays) (.trans _ _ _ (.rel _ _ leads) (.rel _ _ again))
  exact ⟨redrawn, plan_redrawn redrawn _⟩

end JoinGraph

end QueryBuilder
