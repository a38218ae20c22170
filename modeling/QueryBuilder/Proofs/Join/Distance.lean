import Mathlib.Data.List.Induction
import QueryBuilder.Proofs.Join.Order

set_option autoImplicit false

namespace QueryBuilder

/-- Whether steps of some kind lead from one entity to another, each from where the one before it
has led. -/
def Walk (allowed : JoinStep → Prop) (start : String) : List JoinStep → String → Prop
  | [], e => start = e
  | s :: steps, e => s.fromEntity = start ∧ allowed s ∧ Walk allowed s.toEntity steps e

-- Nothing leads an entity to itself.
def Declares (rs : List Relationship) (s : JoinStep) : Prop :=
  s.fromEntity ≠ s.toEntity ∧ ∃ r ∈ rs, r.ReadsAs s

structure IsShortestBridge (rs : List Relationship) (joined : List String) (target : String)
    (way : List JoinStep) : Prop where
  leads : ∃ k ∈ joined, Walk (Declares rs) k way target
  nodup : (way.map (·.toEntity)).Nodup
  fresh : ∀ s ∈ way, s.toEntity ∉ joined
  least : ∀ k ∈ joined, ∀ other, Walk (Declares rs) k other target → way.length ≤ other.length

theorem declares_iff {rs : List Relationship} {s : JoinStep} :
    Declares rs s ↔ s ∈ (JoinGraph.ofRelationships rs).steps := by
  rw [JoinGraph.mem_steps_ofRelationships, Declares]
  constructor
  · rintro ⟨other, r, hr, rfl | rfl⟩
    · exact ⟨r, hr, other, .inl rfl⟩
    · exact ⟨r, hr, other.symm, .inr rfl⟩
  · rintro ⟨r, hr, other, rfl | rfl⟩
    · exact ⟨other, r, hr, .inl rfl⟩
    · exact ⟨other.symm, r, hr, .inr rfl⟩

namespace Walk

variable {allowed other : JoinStep → Prop} {a e : String} {steps : List JoinStep} {s : JoinStep}

theorem imp (walk : Walk allowed a steps e) (more : ∀ s, allowed s → other s) :
    Walk other a steps e := by
  induction steps generalizing a with
  | nil => exact walk
  | cons s steps ih =>
    obtain ⟨leaves, step, rest⟩ := walk
    exact ⟨leaves, more s step, ih rest⟩

theorem snoc_iff :
    Walk allowed a (steps ++ [s]) e ↔
      Walk allowed a steps s.fromEntity ∧ allowed s ∧ s.toEntity = e := by
  induction steps generalizing a with
  | nil => simp [Walk, eq_comm]
  | cons t steps ih => simp [Walk, ih, and_assoc]

-- Where no step leads more than one level up, no way is shorter than the levels it climbs.
theorem climbs {known : List String} (level : String → Nat) (walk : Walk allowed a steps e)
    (start : a ∈ known) (climb : ∀ s, allowed s → s.fromEntity ∈ known →
      s.toEntity ∈ known ∧ level s.toEntity ≤ level s.fromEntity + 1) :
    e ∈ known ∧ level e ≤ level a + steps.length := by
  induction steps generalizing a with
  | nil =>
    cases walk
    exact ⟨start, Nat.le_refl _⟩
  | cons s steps ih =>
    obtain ⟨rfl, step, rest⟩ := walk
    obtain ⟨here, up⟩ := climb s step start
    obtain ⟨there, bound⟩ := ih rest here
    rw [List.length_cons]
    exact ⟨there, by omega⟩

end Walk

namespace JoinGraph

variable {g : JoinGraph} {known pool queue starts : List String} {found more : List JoinStep}

theorem Growth.edge (grown : Growth g known found) : ∀ s ∈ found, s ∈ g.steps := by
  induction grown with
  | nil => exact fun _ mem => absurd mem List.not_mem_nil
  | snoc _ edge _ _ ih => exact List.forall_mem_append.mpr ⟨ih, List.forall_mem_singleton.mpr edge⟩

theorem Growth.leaves (grown : Growth g known found) :
    ∀ s ∈ found, s.fromEntity ∈ known ++ found.map (·.toEntity) := by
  induction grown with
  | nil => exact fun _ mem => absurd mem List.not_mem_nil
  | snoc _ _ leaves _ ih =>
    rw [List.map_append, ← List.append_assoc]
    refine List.forall_mem_append.mpr ⟨fun t ht => List.mem_append_left _ (ih t ht), ?_⟩
    exact List.forall_mem_singleton.mpr (List.mem_append_left _ leaves)

theorem Growth.nodup (grown : Growth g known found) : (found.map (·.toEntity)).Nodup := by
  induction grown with
  | nil => exact .nil
  | snoc _ _ _ enters ih =>
    rw [List.map_append, List.map_singleton, List.nodup_append]
    refine ⟨ih, List.pairwise_singleton _ _, ?_⟩
    rintro x hx y hy rfl
    obtain rfl := List.mem_singleton.mp hy
    exact enters (List.mem_append_right _ hx)

theorem Growth.fresh (grown : Growth g known found) : ∀ s ∈ found, s.toEntity ∉ known := by
  induction grown with
  | nil => exact fun _ mem => absurd mem List.not_mem_nil
  | snoc _ _ _ enters ih =>
    refine List.forall_mem_append.mpr ⟨ih, List.forall_mem_singleton.mpr fun here => ?_⟩
    exact enters (List.mem_append_left _ here)

theorem trace_walk (grown : Growth g known found) {target : String}
    (here : target ∈ known ++ found.map (·.toEntity)) :
    ∃ k ∈ known, Walk (· ∈ found) k (trace found.reverse target) target := by
  induction grown generalizing target with
  | nil => exact ⟨target, by simpa using here, rfl⟩
  | @snoc steps s _ _ leaves _ ih =>
    have earlier : ∀ t, t ∈ steps → t ∈ steps ++ [s] := fun t ht => List.mem_append_left _ ht
    rw [List.reverse_append, List.reverse_singleton, List.singleton_append, trace]
    by_cases last : s.toEntity = target
    · obtain ⟨k, hk, walk⟩ := ih leaves
      rw [if_pos last]
      exact ⟨k, hk, Walk.snoc_iff.mpr ⟨walk.imp earlier, by simp, last⟩⟩
    · obtain ⟨k, hk, walk⟩ := ih (by simpa [Ne.symm last] using here)
      rw [if_neg last]
      exact ⟨k, hk, walk.imp earlier⟩

-- How many steps lead to an entity, of those that were found.
def distance (found : List JoinStep) (e : String) : Nat := (trace found.reverse e).length

theorem distance_snoc (found : List JoinStep) (s : JoinStep) (e : String) :
    distance (found ++ [s]) e =
      if s.toEntity = e then distance found s.fromEntity + 1 else distance found e := by
  rw [distance, List.reverse_append, List.reverse_singleton, List.singleton_append, trace]
  split
  · rw [List.length_append, List.length_singleton, distance]
  · rfl

theorem distance_append (found : List JoinStep) {e : String}
    (other : e ∉ more.map (·.toEntity)) : distance (found ++ more) e = distance found e := by
  induction more using List.reverseRecOn with
  | nil => rw [List.append_nil]
  | append_singleton more s ih =>
    simp only [List.map_append, List.map_singleton, List.mem_append, List.mem_singleton,
      not_or] at other
    rw [← List.append_assoc, distance_snoc, if_neg (Ne.symm other.2), ih other.1]

-- What is found next to one entity is one step further than it.
theorem distance_beside {a e : String} (leave : ∀ s ∈ more, s.fromEntity = a)
    (back : a ∉ more.map (·.toEntity)) (enter : e ∈ more.map (·.toEntity)) :
    distance (found ++ more) e = distance found a + 1 := by
  induction more using List.reverseRecOn with
  | nil => cases enter
  | append_singleton more s ih =>
    obtain ⟨leave, last⟩ := List.forall_mem_append.mp leave
    simp only [List.map_append, List.map_singleton, List.mem_append, List.mem_singleton,
      not_or] at back enter
    rw [← List.append_assoc, distance_snoc, List.forall_mem_singleton.mp last]
    split
    · rw [distance_append found back.1]
    · next other => exact ih leave back.1 (enter.resolve_right (Ne.symm other))

theorem mem_of_mem_discover {steps : List JoinStep} {s : JoinStep} (h : s ∈ discover pool steps) :
    s ∈ steps := by
  induction steps generalizing pool with
  | nil => cases h
  | cons t rest ih =>
    unfold discover at h
    split at h
    · rcases List.mem_cons.mp h with rfl | h
      · exact List.mem_cons_self
      · exact List.mem_cons_of_mem _ (ih h)
    · exact List.mem_cons_of_mem _ (ih h)

theorem fresh_without (fresh : ∀ x ∈ pool, x ∉ known) (more : List JoinStep) :
    ∀ x ∈ without pool more, x ∉ known ++ more.map (·.toEntity) := by
  intro x hx
  obtain ⟨hx, other⟩ := List.mem_filter.mp hx
  exact List.not_mem_append (fresh x hx) (of_decide_eq_true other)

-- What waits does so in the order of its distance, and nothing that is known is more than a step
-- beyond what waits.
structure Frontier (found : List JoinStep) (known queue : List String) : Prop where
  waiting : ∀ q ∈ queue, q ∈ known
  ordered : queue.Pairwise fun a b => distance found a ≤ distance found b
  near : ∀ x ∈ known, ∀ q ∈ queue, distance found x ≤ distance found q + 1

-- The entity that waits first makes room for those that are found next to it.
theorem Frontier.advance {e : String} (frontier : Frontier found known (e :: queue))
    (discovered : discover pool (g.stepsFrom e) = more) (fresh : ∀ x ∈ pool, x ∉ known) :
    Frontier (found ++ more) (known ++ more.map (·.toEntity)) (queue ++ more.map (·.toEntity)) ∧
      ∀ s ∈ g.stepsFrom e, s.toEntity ∈ known ++ pool →
        s.toEntity ∈ known ++ more.map (·.toEntity) ∧
          distance (found ++ more) s.toEntity ≤ distance (found ++ more) e + 1 := by
  obtain ⟨here, waiting⟩ := List.forall_mem_cons.mp frontier.waiting
  obtain ⟨ahead, ordered⟩ := List.pairwise_cons.mp frontier.ordered
  have leave : ∀ s ∈ more, s.fromEntity = e := fun s hs =>
    (mem_stepsFrom.mp (mem_of_mem_discover (discovered ▸ hs))).2
  have apart : ∀ x ∈ known, x ∉ more.map (·.toEntity) := by
    intro x hx mem
    obtain ⟨t, ht, rfl⟩ := List.mem_map.mp mem
    exact fresh _ (mem_pool_of_mem_discover (discovered ▸ ht)) hx
  have old : ∀ x ∈ known, distance (found ++ more) x = distance found x :=
    fun x hx => distance_append found (apart x hx)
  have new : ∀ x ∈ more.map (·.toEntity), distance (found ++ more) x = distance found e + 1 :=
    fun x hx => distance_beside leave (apart e here) hx
  have beyond : ∀ x ∈ known, distance found x ≤ distance found e + 1 :=
    fun x hx => frontier.near x hx e List.mem_cons_self
  refine ⟨⟨?_, ?_, ?_⟩, ?_⟩
  · intro q hq
    rcases List.mem_append.mp hq with hq | hq
    · exact List.mem_append_left _ (waiting q hq)
    · exact List.mem_append_right _ hq
  · refine List.pairwise_append.mpr ⟨?_, ?_, ?_⟩
    · refine ordered.imp_of_mem fun {a b} ha hb le => ?_
      rwa [old a (waiting a ha), old b (waiting b hb)]
    · exact List.pairwise_of_forall_mem_list fun a ha b hb =>
        Nat.le_of_eq ((new a ha).trans (new b hb).symm)
    · intro a ha b hb
      rw [old a (waiting a ha), new b hb]
      exact beyond a (waiting a ha)
  · intro x hx q hq
    rcases List.mem_append.mp hx with hx | hx <;> rcases List.mem_append.mp hq with hq | hq
    · rw [old x hx, old q (waiting q hq)]
      exact frontier.near x hx q (List.mem_cons_of_mem _ hq)
    · rw [old x hx, new q hq]
      exact Nat.le_succ_of_le (beyond x hx)
    · rw [new x hx, old q (waiting q hq)]
      exact Nat.succ_le_succ (ahead q hq)
    · rw [new x hx, new q hq]
      exact Nat.le_succ _
  · intro s edge enters
    rw [old e here]
    rcases List.mem_append.mp enters with known | missing
    · rw [old _ known]
      exact ⟨List.mem_append_left _ known, beyond _ known⟩
    · have first : s.toEntity ∈ more.map (·.toEntity) := discovered ▸ discover_complete edge missing
      rw [new _ first]
      exact ⟨List.mem_append_right _ first, Nat.le_refl _⟩

theorem distance_spread (found : List JoinStep) (fresh : ∀ x ∈ pool, x ∉ known) {x : String}
    (hx : x ∈ known) :
    distance (found ++ g.spread pool queue) x = distance found x := by
  apply distance_append
  intro mem
  obtain ⟨s, hs, rfl⟩ := List.mem_map.mp mem
  exact fresh _ (mem_pool_of_mem_spread hs) hx

theorem spread_near (frontier : Frontier found known queue) (fresh : ∀ x ∈ pool, x ∉ known)
    {s : JoinStep} (edge : s ∈ g.steps)
    (leaves : s.fromEntity ∈ queue ++ (g.spread pool queue).map (·.toEntity))
    (enters : s.toEntity ∈ known ++ pool) :
    distance (found ++ g.spread pool queue) s.toEntity ≤
      distance (found ++ g.spread pool queue) s.fromEntity + 1 := by
  induction pool, queue using spread.induct (g := g) generalizing found known with
  | case1 pool =>
    rw [spread] at leaves
    cases leaves
  | case2 pool e queue none ih =>
    rw [spread_cons_empty none] at leaves ⊢
    obtain ⟨next, nears⟩ := frontier.advance none fresh
    simp only [List.map_nil, List.append_nil] at next nears
    rcases List.mem_cons.mp leaves with here | leaves
    · obtain ⟨there, near⟩ := nears s (mem_stepsFrom.mpr ⟨edge, here⟩) enters
      have start : e ∈ known := frontier.waiting e List.mem_cons_self
      rwa [here, distance_spread _ fresh there, distance_spread _ fresh start]
    · exact ih next fresh leaves enters
  | case3 pool e queue t more some ih =>
    rw [spread_cons_found some] at leaves ⊢
    obtain ⟨next, nears⟩ := frontier.advance some fresh
    have later := fresh_without fresh (t :: more)
    rw [← List.append_assoc]
    by_cases here : s.fromEntity = e
    · obtain ⟨there, near⟩ := nears s (mem_stepsFrom.mpr ⟨edge, here⟩) enters
      have start : e ∈ known ++ (t :: more).map (·.toEntity) :=
        List.mem_append_left _ (frontier.waiting e List.mem_cons_self)
      rwa [here, distance_spread _ later there, distance_spread _ later start]
    · refine ih next later ?_ ?_
      · simpa [here, or_assoc] using leaves
      · by_cases now : s.toEntity ∈ (t :: more).map (·.toEntity)
        · exact List.mem_append_left _ (List.mem_append_right _ now)
        · rcases List.mem_append.mp enters with old | missing
          · exact List.mem_append_left _ (List.mem_append_left _ old)
          · exact List.mem_append_right _ (List.mem_filter.mpr ⟨missing, by simpa using now⟩)

theorem spread_shortest (apart : ∀ x ∈ pool, x ∉ starts) {a e : String} {steps : List JoinStep}
    (start : a ∈ starts)
    (walk : Walk (fun s => s ∈ g.steps ∧ s.toEntity ∈ starts ++ pool) a steps e) :
    e ∈ starts ++ (g.spread pool starts).map (·.toEntity) ∧
      distance (g.spread pool starts) e ≤ steps.length := by
  have frontier : Frontier [] starts starts :=
    ⟨fun _ hq => hq, List.pairwise_of_forall fun _ _ => Nat.le_refl 0, fun _ _ _ _ => Nat.zero_le _⟩
  have none : distance (g.spread pool starts) a = 0 :=
    distance_spread [] apart start
  rw [← Nat.zero_add steps.length, ← none]
  refine walk.climbs (distance (g.spread pool starts)) (List.mem_append_left _ start) ?_
  rintro s ⟨edge, inside⟩ leaves
  refine ⟨?_, spread_near frontier apart edge leaves inside⟩
  rcases List.mem_append.mp inside with old | missing
  · exact List.mem_append_left _ old
  · exact List.mem_append_right _ (spread_complete edge leaves missing)

variable {rs : List Relationship} {joined : List String} {target : String} {way : List JoinStep}

-- What a search for a bridge may come to.
def unjoined (g : JoinGraph) (joined : List String) : List String := g.entities.filter (· ∉ joined)

theorem not_mem_of_mem_unjoined : ∀ x ∈ g.unjoined joined, x ∉ joined :=
  fun _ hx => of_decide_eq_true (List.mem_filter.mp hx).2

theorem mem_unjoined {s : JoinStep} (edge : s ∈ g.steps) :
    s.toEntity ∈ joined ++ g.unjoined joined := by
  by_cases here : s.toEntity ∈ joined
  · exact List.mem_append_left _ here
  · have listed : s.toEntity ∈ g.entities := List.mem_map_of_mem edge
    exact List.mem_append_right _ (List.mem_filter.mpr ⟨listed, by simpa using here⟩)

theorem bridge_eq_some (bridged : g.bridge? joined target = some way) :
    target ∈ (g.spread (g.unjoined joined) joined).map (·.toEntity) ∧
      way = trace (g.spread (g.unjoined joined) joined).reverse target := by
  simp only [bridge?] at bridged
  split at bridged
  · next found => exact ⟨found, (Option.some.inj bridged).symm⟩
  · cases bridged

theorem bridge_walk (bridged : (ofRelationships rs).bridge? joined target = some way) :
    ∃ k ∈ joined, Walk (Declares rs) k way target := by
  obtain ⟨found, rfl⟩ := bridge_eq_some bridged
  have grown : Growth (ofRelationships rs) joined
      ((ofRelationships rs).spread ((ofRelationships rs).unjoined joined) joined) :=
    spread_growth (fun _ hx => hx) not_mem_of_mem_unjoined
  obtain ⟨k, hk, walk⟩ := trace_walk grown (List.mem_append_right _ found)
  exact ⟨k, hk, walk.imp fun s hs => declares_iff.mpr (grown.edge s hs)⟩

theorem not_walk_of_bridge_eq_none (missing : target ∉ joined)
    (bridged : (ofRelationships rs).bridge? joined target = none) :
    ¬∃ k ∈ joined, ∃ way, Walk (Declares rs) k way target := by
  rintro ⟨k, hk, way, walk⟩
  obtain ⟨known, starts, ends, closed⟩ := bridge_closed bridged
  have inside := walk.climbs (fun _ => 0) (starts k hk) fun s step leaves =>
    ⟨closed s (declares_iff.mp step) leaves, Nat.zero_le _⟩
  exact missing (ends inside.1)

theorem bridge_least (bridged : (ofRelationships rs).bridge? joined target = some way) {k : String}
    (hk : k ∈ joined) {other : List JoinStep} (walk : Walk (Declares rs) k other target) :
    way.length ≤ other.length := by
  obtain ⟨-, rfl⟩ := bridge_eq_some bridged
  refine (spread_shortest not_mem_of_mem_unjoined hk (walk.imp fun s step => ?_)).2
  have edge := declares_iff.mp step
  exact ⟨edge, mem_unjoined edge⟩

theorem bridge_shortest (rs : List Relationship) {joined : List String} {target : String}
    (missing : target ∉ joined) :
    ((ofRelationships rs).bridge? joined target = none ↔
        ¬∃ k ∈ joined, ∃ way, Walk (Declares rs) k way target) ∧
      ∀ way, (ofRelationships rs).bridge? joined target = some way →
        IsShortestBridge rs joined target way := by
  refine ⟨⟨not_walk_of_bridge_eq_none missing, fun unreached => ?_⟩, fun way bridged => ?_⟩
  · cases bridged : (ofRelationships rs).bridge? joined target with
    | none => rfl
    | some way =>
      obtain ⟨k, hk, walk⟩ := bridge_walk bridged
      exact absurd ⟨k, hk, way, walk⟩ unreached
  · have grown := (bridge_growth bridged).1
    exact ⟨bridge_walk bridged, grown.nodup, grown.fresh, fun _ hk _ => bridge_least bridged hk⟩

-- Two ways lead from the orders to the products: by their items, and by the favourites of their
-- customer, which takes a step more.
def shopRoutes : List Relationship :=
  [⟨"orders", "customer_id", "customers", "id"⟩, ⟨"favourites", "customer_id", "customers", "id"⟩,
    ⟨"favourites", "product_id", "products", "id"⟩, ⟨"products", "parent_id", "products", "id"⟩,
    ⟨"order_items", "order_id", "orders", "id"⟩, ⟨"order_items", "product_id", "products", "id"⟩]

theorem orders_products_bridged :
    "products" ∉ ["orders"] ∧
      ∃ way, (ofRelationships shopRoutes).bridge? ["orders"] "products" = some way ∧
        IsShortestBridge shopRoutes ["orders"] "products" way ∧ way.length ≤ 2 := by
  have missing : "products" ∉ ["orders"] := by decide
  have shortest := bridge_shortest shopRoutes missing
  have items : Walk (Declares shopRoutes) "orders"
      [⟨"orders", "id", "order_items", "order_id"⟩,
        ⟨"order_items", "product_id", "products", "id"⟩] "products" := by
    simp [Walk, Declares, shopRoutes, Relationship.ReadsAs]
  have start : "orders" ∈ ["orders"] := by decide
  refine ⟨missing, ?_⟩
  cases bridged : (ofRelationships shopRoutes).bridge? ["orders"] "products" with
  | none => exact absurd ⟨"orders", start, _, items⟩ (shortest.1.mp bridged)
  | some way =>
    have least := shortest.2 way bridged
    exact ⟨way, rfl, least, least.least "orders" start _ items⟩

end JoinGraph

end QueryBuilder
