import Mathlib.Data.List.Nodup
import QueryBuilder.Proofs.Join.Component
import QueryBuilder.Proofs.Join.Distance

set_option autoImplicit false

namespace QueryBuilder

def DeclaresWithin (rs : List Relationship) (referenced : List String) (s : JoinStep) : Prop :=
  Declares rs s ∧ s.fromEntity ∈ referenced ∧ s.toEntity ∈ referenced

namespace JoinPlan

-- An edge of a plan, in the direction in which it joins.
def Joins (p : JoinPlan) (s : JoinStep) : Prop := .on s ∈ p.joins

structure JoinsDirectly (rs : List Relationship) (referenced : List String) (p : JoinPlan)
    (root e : String) : Prop where
  joined : e ∈ p.entities
  first : ∀ before j after, p.joins = before ++ j :: after →
    j.crossed?.isSome = true ∨ j.entity ∈ p.bridged → e ∈ root :: before.map Join.entity
  chain : ∃ chain, Walk p.Joins root chain e ∧ Walk (DeclaresWithin rs referenced) root chain e ∧
    ∀ way, Walk (DeclaresWithin rs referenced) root way e → chain.length ≤ way.length
  unique : ∀ chain other, Walk p.Joins root chain e → Walk p.Joins root other e → chain = other

variable {g : JoinGraph} {p : JoinPlan} {wanted es : List String} {e : String}

theorem prefix_expand : p.joins <+: (p.expand g wanted).joins := List.prefix_append _ _

theorem prefix_connect : p.joins <+: (p.connect g wanted e).joins := by
  unfold connect
  split <;> exact List.prefix_append _ _

theorem prefix_ensure : p.joins <+: (p.ensure g wanted e).joins := by
  unfold ensure
  split
  · exact List.prefix_refl _
  · exact prefix_connect.trans prefix_expand

theorem prefix_foldl_ensure : p.joins <+: (es.foldl (ensure g wanted) p).joins := by
  induction es generalizing p with
  | nil => exact List.prefix_refl _
  | cons e es ih => exact prefix_ensure.trans ih

theorem foldl_ensure_of_joined (joined : ∀ e ∈ es, e ∈ p.entities) :
    es.foldl (ensure g wanted) p = p := by
  induction es with
  | nil => rfl
  | cons e es ih =>
    obtain ⟨here, later⟩ := List.forall_mem_cons.mp joined
    rw [List.foldl_cons, ensure, if_pos here, ih later]

-- Each entity is joined once, so there is one way back from it.
theorem chain_unique {root : String} (distinct : (root :: p.joins.map Join.entity).Nodup)
    {chain other : List JoinStep} (walk : Walk p.Joins root chain e)
    (walk' : Walk p.Joins root other e) : chain = other := by
  obtain ⟨fresh, once⟩ := List.nodup_cons.mp distinct
  have entered : ∀ s, p.Joins s → s.toEntity ≠ root := by
    rintro s joins rfl
    exact fresh (List.mem_map_of_mem (f := Join.entity) joins)
  induction chain using List.reverseRecOn generalizing other e with
  | nil =>
    cases walk
    rcases List.eq_nil_or_concat other with rfl | ⟨other, t, rfl⟩
    · rfl
    · rw [List.concat_eq_append, Walk.snoc_iff] at walk'
      exact absurd walk'.2.2 (entered t walk'.2.1)
  | append_singleton chain s ih =>
    obtain ⟨before, joins, here⟩ := Walk.snoc_iff.mp walk
    rcases List.eq_nil_or_concat other with rfl | ⟨other, t, rfl⟩
    · cases walk'
      exact absurd here (entered s joins)
    · rw [List.concat_eq_append] at walk' ⊢
      obtain ⟨before', joins', here'⟩ := Walk.snoc_iff.mp walk'
      have same : Join.on s = Join.on t :=
        List.inj_on_of_nodup_map once joins joins' (here.trans here'.symm)
      cases same
      rw [ih before before']

end JoinPlan

namespace JoinGraph

open JoinPlan

variable {rs : List Relationship} {referenced others : List String} {root e : String}

-- The edges between referenced entities that lead away from the first of them.
def direct (g : JoinGraph) (wanted : List String) (root : String) : List JoinStep :=
  g.spread (wanted.filter (· ∉ [root])) [root]

theorem plan_eq (g : JoinGraph) (h : referenced.eraseDups = root :: others) :
    g.plan referenced = others.foldl (ensure g (root :: others))
      ⟨some root, (g.direct (root :: others) root).map .on, [], []⟩ := by
  simp only [plan, h]
  rfl

theorem prefix_plan (g : JoinGraph) (h : referenced.eraseDups = root :: others) :
    (g.direct (root :: others) root).map .on <+: (g.plan referenced).joins := by
  rw [plan_eq g h]
  exact prefix_foldl_ensure (p := ⟨some root, (g.direct (root :: others) root).map .on, [], []⟩)

theorem direct_growth (g : JoinGraph) (wanted : List String) (root : String) :
    Growth g [root] (g.direct wanted root) :=
  spread_growth (fun _ hx => hx) fun _ hx => of_decide_eq_true (List.mem_filter.mp hx).2

theorem direct_within (h : referenced.eraseDups = root :: others) {s : JoinStep}
    (hs : s ∈ (ofRelationships rs).direct (root :: others) root) :
    DeclaresWithin rs referenced s := by
  have asked : ∀ e ∈ [root] ++
      ((ofRelationships rs).direct (root :: others) root).map (·.toEntity), e ∈ referenced := by
    intro e he
    rw [← List.mem_eraseDups, h]
    rcases List.mem_append.mp he with start | found
    · exact List.mem_cons.mpr (.inl (List.mem_singleton.mp start))
    · obtain ⟨t, ht, rfl⟩ := List.mem_map.mp found
      exact (List.mem_filter.mp (mem_pool_of_mem_spread ht)).1
  have grown := direct_growth (ofRelationships rs) (root :: others) root
  refine ⟨declares_iff.mpr (grown.edge s hs), asked _ (grown.leaves s hs), ?_⟩
  exact asked _ (List.mem_append_right _ (List.mem_map_of_mem hs))

theorem direct_shortest (h : referenced.eraseDups = root :: others) {way : List JoinStep}
    (walk : Walk (DeclaresWithin rs referenced) root way e) :
    e ∈ [root] ++ ((ofRelationships rs).direct (root :: others) root).map (·.toEntity) ∧
      distance ((ofRelationships rs).direct (root :: others) root) e ≤ way.length := by
  refine spread_shortest (fun x hx => of_decide_eq_true (List.mem_filter.mp hx).2)
    (List.mem_singleton_self root) (walk.imp ?_)
  rintro s ⟨declared, -, asked⟩
  refine ⟨declares_iff.mp declared, ?_⟩
  rw [← List.mem_eraseDups, h] at asked
  by_cases start : s.toEntity ∈ [root]
  · exact List.mem_append_left _ start
  · exact List.mem_append_right _ (List.mem_filter.mpr ⟨asked, by simpa using start⟩)

-- A join of the first search is neither without a condition nor into an entity nobody asked for.
theorem direct_before (h : referenced.eraseDups = root :: others) {before after : List Join}
    {j : Join} (split : ((ofRelationships rs).plan referenced).joins = before ++ j :: after)
    (late : j.crossed?.isSome = true ∨ j.entity ∈ ((ofRelationships rs).plan referenced).bridged) :
    ((ofRelationships rs).direct (root :: others) root).map .on <+: before := by
  have front := prefix_plan (ofRelationships rs) h
  have behind : j ∉ ((ofRelationships rs).direct (root :: others) root).map .on := by
    intro mem
    obtain ⟨s, hs, rfl⟩ := List.mem_map.mp mem
    rcases late with crossed | bridged
    · cases crossed
    · rw [(plan_accounts _ referenced).bridges, List.mem_filter] at bridged
      have other := of_decide_eq_true bridged.2
      exact other (List.mem_eraseDups.mpr (direct_within h hs).2.2)
  rw [split] at front
  rcases Nat.lt_or_ge before.length
      (((ofRelationships rs).direct (root :: others) root).map Join.on).length with short | long
  · have next : before ++ [j] <+: before ++ j :: after := ⟨after, by simp⟩
    have inside := List.prefix_of_prefix_length_le next front (by simpa using Nat.succ_le_of_lt short)
    exact absurd (inside.subset (by simp)) behind
  · exact List.prefix_of_prefix_length_le front (List.prefix_append _ _) long

theorem eraseDups_of_root (rooted : ((ofRelationships rs).plan referenced).root = some root) :
    ∃ others, referenced.eraseDups = root :: others := by
  rw [plan_root] at rooted
  cases referenced with
  | nil => cases rooted
  | cons first rest =>
    cases rooted
    exact ⟨_, List.eraseDups_cons⟩

theorem joinsDirectly_of_walk (rooted : ((ofRelationships rs).plan referenced).root = some root)
    {way : List JoinStep} (walk : Walk (DeclaresWithin rs referenced) root way e) :
    ((ofRelationships rs).plan referenced).JoinsDirectly rs referenced root e := by
  obtain ⟨others, h⟩ := eraseDups_of_root rooted
  have front := prefix_plan (ofRelationships rs) h
  have found := (direct_shortest h walk).1
  have listed : ((ofRelationships rs).plan referenced).entities =
      root :: ((ofRelationships rs).plan referenced).joins.map Join.entity := by
    rw [JoinPlan.entities, rooted]
    rfl
  have within {joins : List Join}
      (ahead : ((ofRelationships rs).direct (root :: others) root).map .on <+: joins) :
      e ∈ root :: joins.map Join.entity := by
    have ahead := (ahead.map Join.entity).subset
    rw [InOrder.entity_on] at ahead
    rcases List.mem_append.mp found with start | found
    · exact List.mem_cons.mpr (.inl (List.mem_singleton.mp start))
    · exact List.mem_cons_of_mem _ (ahead found)
  refine ⟨listed ▸ within front, ?_, ?_, ?_⟩
  · exact fun _ _ _ split late => within (direct_before h split late)
  · obtain ⟨k, start, chain⟩ := trace_walk (direct_growth (ofRelationships rs) _ root) found
    obtain rfl := List.mem_singleton.mp start
    refine ⟨_, chain.imp fun s hs => front.subset (List.mem_map_of_mem hs),
      chain.imp fun s hs => direct_within h hs, fun way walk => (direct_shortest h walk).2⟩
  · intro chain other
    have distinct : (root :: ((ofRelationships rs).plan referenced).joins.map
        Join.entity).Nodup := by
      have order := plan_inOrder (ofRelationships rs) referenced
      rw [rooted] at order
      exact order.nodup (List.pairwise_singleton _ _)
    exact chain_unique distinct

theorem plan_of_connected (rooted : ((ofRelationships rs).plan referenced).root = some root)
    (connected : ∀ e ∈ referenced, ∃ way, Walk (DeclaresWithin rs referenced) root way e) :
    ∃ steps : List JoinStep,
      (ofRelationships rs).plan referenced = ⟨some root, steps.map .on, [], []⟩ := by
  obtain ⟨others, h⟩ := eraseDups_of_root rooted
  refine ⟨(ofRelationships rs).direct (root :: others) root, ?_⟩
  rw [plan_eq _ h]
  apply foldl_ensure_of_joined
  intro e he
  have asked : e ∈ referenced := by
    rw [← List.mem_eraseDups, h]
    exact List.mem_cons_of_mem _ he
  obtain ⟨way, walk⟩ := connected e asked
  rw [JoinPlan.entities, InOrder.entity_on]
  exact (direct_shortest h walk).1

theorem plan_joinsDirectly (rs : List Relationship) (referenced : List String) :
    (∀ root, ((ofRelationships rs).plan referenced).root = some root → ∀ e,
        (∃ way, Walk (DeclaresWithin rs referenced) root way e) →
        ((ofRelationships rs).plan referenced).JoinsDirectly rs referenced root e) ∧
      ((∀ root, ((ofRelationships rs).plan referenced).root = some root → ∀ e ∈ referenced,
          ∃ way, Walk (DeclaresWithin rs referenced) root way e) →
        ((ofRelationships rs).plan referenced).bridged = [] ∧
          ∀ j ∈ ((ofRelationships rs).plan referenced).joins, ∃ s, j = .on s) := by
  refine ⟨fun root rooted e ⟨way, walk⟩ => joinsDirectly_of_walk rooted walk, fun connected => ?_⟩
  cases referenced with
  | nil => exact ⟨rfl, fun _ mem => absurd mem List.not_mem_nil⟩
  | cons root rest =>
    have rooted : ((ofRelationships rs).plan (root :: rest)).root = some root := plan_root _ _
    obtain ⟨steps, planned⟩ := plan_of_connected rooted (connected root rooted)
    rw [planned]
    refine ⟨rfl, fun j mem => ?_⟩
    obtain ⟨s, -, rfl⟩ := List.mem_map.mp mem
    exact ⟨s, rfl⟩

theorem orders_products_direct :
    ((ofRelationships shopRoutes).plan ["orders", "products", "order_items"]).root =
        some "orders" ∧
      ((ofRelationships shopRoutes).plan ["orders", "products", "order_items"]).JoinsDirectly
        shopRoutes ["orders", "products", "order_items"] "orders" "products" ∧
      ((ofRelationships shopRoutes).plan ["orders", "products", "order_items"]).bridged = [] := by
  have rooted : ((ofRelationships shopRoutes).plan ["orders", "products", "order_items"]).root =
      some "orders" := plan_root _ _
  have direct := plan_joinsDirectly shopRoutes ["orders", "products", "order_items"]
  have orders : Walk (DeclaresWithin shopRoutes ["orders", "products", "order_items"]) "orders"
      [] "orders" := rfl
  have items : Walk (DeclaresWithin shopRoutes ["orders", "products", "order_items"]) "orders"
      [⟨"orders", "id", "order_items", "order_id"⟩] "order_items" := by
    simp [Walk, DeclaresWithin, Declares, shopRoutes, Relationship.ReadsAs]
  have products : Walk (DeclaresWithin shopRoutes ["orders", "products", "order_items"]) "orders"
      [⟨"orders", "id", "order_items", "order_id"⟩,
        ⟨"order_items", "product_id", "products", "id"⟩] "products" := by
    simp [Walk, DeclaresWithin, Declares, shopRoutes, Relationship.ReadsAs]
  refine ⟨rooted, direct.1 _ rooted _ ⟨_, products⟩, (direct.2 ?_).1⟩
  intro root same e asked
  obtain rfl : "orders" = root := Option.some.inj (rooted.symm.trans same)
  simp only [List.mem_cons, List.not_mem_nil, or_false] at asked
  rcases asked with rfl | rfl | rfl
  · exact ⟨_, orders⟩
  · exact ⟨_, products⟩
  · exact ⟨_, items⟩

end JoinGraph

end QueryBuilder
