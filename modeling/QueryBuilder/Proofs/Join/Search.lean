import QueryBuilder.Join.Graph

set_option autoImplicit false

namespace QueryBuilder

namespace JoinGraph

variable {g : JoinGraph}

-- Every edge leaves an entity that is known by the time it is taken, and enters one that is not.
inductive Growth (g : JoinGraph) (known : List String) : List JoinStep → Prop
  | nil : Growth g known []
  | snoc {steps : List JoinStep} {s : JoinStep} (grown : Growth g known steps)
      (edge : s ∈ g.steps) (leaves : s.fromEntity ∈ known ++ steps.map (·.toEntity))
      (enters : s.toEntity ∉ known ++ steps.map (·.toEntity)) : Growth g known (steps ++ [s])

namespace Growth

theorem single {known : List String} {s : JoinStep} (edge : s ∈ g.steps)
    (leaves : s.fromEntity ∈ known) (enters : s.toEntity ∉ known) : Growth g known [s] := by
  have start : Growth g known [] := .nil
  exact start.snoc edge (by simpa using leaves) (by simpa using enters)

theorem append {known : List String} {xs ys : List JoinStep} (hx : Growth g known xs)
    (hy : Growth g (known ++ xs.map (·.toEntity)) ys) : Growth g known (xs ++ ys) := by
  induction hy with
  | nil => simpa using hx
  | snoc _ edge leaves enters ih =>
    rw [← List.append_assoc]
    refine .snoc ih edge ?_ ?_
    · simpa only [List.map_append, List.append_assoc] using leaves
    · simpa only [List.map_append, List.append_assoc] using enters

end Growth

theorem mem_stepsFrom {e : String} {s : JoinStep} :
    s ∈ g.stepsFrom e ↔ s ∈ g.steps ∧ s.fromEntity = e := by
  simp [stepsFrom]

theorem discover_growth {e : String} {pool known : List String} {steps : List JoinStep}
    (fromE : ∀ s ∈ steps, s ∈ g.steps ∧ s.fromEntity = e) (present : e ∈ known)
    (fresh : ∀ x ∈ pool, x ∉ known) : Growth g known (discover pool steps) := by
  induction steps generalizing pool known with
  | nil => exact .nil
  | cons s rest ih =>
    have later : ∀ t ∈ rest, t ∈ g.steps ∧ t.fromEntity = e :=
      fun t ht => fromE t (List.mem_cons_of_mem _ ht)
    obtain ⟨edge, hs⟩ := fromE s List.mem_cons_self
    by_cases ht : s.toEntity ∈ pool
    · rw [discover, if_pos ht]
      have first : Growth g known [s] := .single edge (hs ▸ present) (fresh _ ht)
      refine first.append (ih later ?_ ?_)
      · exact List.mem_append_left _ present
      · intro x hx
        obtain ⟨hx, hne⟩ := List.mem_filter.mp hx
        simpa [fresh x hx] using hne
    · rw [discover, if_neg ht]
      exact ih later present fresh

theorem discover_empty (steps : List JoinStep) : discover [] steps = [] := by
  induction steps with
  | nil => rfl
  | cons s steps ih => simp [discover, ih]

theorem spread_cons_empty {pool queue : List String} {e : String}
    (h : discover pool (g.stepsFrom e) = []) :
    g.spread pool (e :: queue) = g.spread pool queue := by
  rw [spread]
  split
  · rfl
  · next h' => rw [h] at h'; cases h'

theorem spread_cons_found {pool queue : List String} {e : String} {s : JoinStep}
    {found : List JoinStep} (h : discover pool (g.stepsFrom e) = s :: found) :
    g.spread pool (e :: queue) =
      (s :: found) ++ g.spread (without pool (s :: found))
        (queue ++ (s :: found).map (·.toEntity)) := by
  rw [spread]
  split
  · next h' => rw [h] at h'; cases h'
  · next h' => rw [h] at h'; cases h'; rfl

theorem spread_empty (g : JoinGraph) (queue : List String) : g.spread [] queue = [] := by
  induction queue with
  | nil => rw [spread]
  | cons e queue ih => rw [spread_cons_empty (discover_empty _), ih]

theorem spread_growth {pool queue known : List String} (present : ∀ x ∈ queue, x ∈ known)
    (fresh : ∀ x ∈ pool, x ∉ known) : Growth g known (g.spread pool queue) := by
  induction pool, queue using spread.induct (g := g) generalizing known with
  | case1 pool =>
    rw [spread]
    exact .nil
  | case2 pool e queue h ih =>
    rw [spread_cons_empty h]
    exact ih (fun x hx => present x (List.mem_cons_of_mem _ hx)) fresh
  | case3 pool e queue s found h ih =>
    rw [spread_cons_found h]
    have here : Growth g known (s :: found) := h ▸ discover_growth
      (fun t ht => mem_stepsFrom.mp ht) (present e List.mem_cons_self) fresh
    refine here.append (ih ?_ ?_)
    · intro x hx
      rcases List.mem_append.mp hx with hx | hx
      · exact List.mem_append_left _ (present x (List.mem_cons_of_mem _ hx))
      · exact List.mem_append_right _ hx
    · intro x hx
      obtain ⟨hx, hne⟩ := List.mem_filter.mp hx
      simp only [List.mem_append, not_or]
      exact ⟨fresh x hx, of_decide_eq_true hne⟩

theorem mem_pool_of_mem_discover {pool : List String} {steps : List JoinStep} {s : JoinStep}
    (h : s ∈ discover pool steps) : s.toEntity ∈ pool := by
  induction steps generalizing pool with
  | nil => cases h
  | cons t rest ih =>
    by_cases known : t.toEntity ∈ pool
    · rw [discover, if_pos known] at h
      rcases List.mem_cons.mp h with rfl | h
      · exact known
      · exact (List.mem_filter.mp (ih h)).1
    · rw [discover, if_neg known] at h
      exact ih h

theorem discover_complete {pool : List String} {steps : List JoinStep} {s : JoinStep}
    (hs : s ∈ steps) (wanted : s.toEntity ∈ pool) :
    s.toEntity ∈ (discover pool steps).map (·.toEntity) := by
  induction steps generalizing pool with
  | nil => cases hs
  | cons t rest ih =>
    by_cases known : t.toEntity ∈ pool
    · rw [discover, if_pos known, List.map_cons, List.mem_cons]
      by_cases same : s.toEntity = t.toEntity
      · exact .inl same
      · rcases List.mem_cons.mp hs with rfl | hs
        · exact absurd rfl same
        · exact .inr (ih hs (List.mem_filter.mpr ⟨wanted, by simpa using same⟩))
    · rw [discover, if_neg known]
      rcases List.mem_cons.mp hs with rfl | hs
      · exact absurd wanted known
      · exact ih hs wanted

theorem mem_pool_of_mem_spread {pool queue : List String} {s : JoinStep}
    (h : s ∈ g.spread pool queue) : s.toEntity ∈ pool := by
  induction pool, queue using spread.induct (g := g) with
  | case1 pool =>
    rw [spread] at h
    cases h
  | case2 pool e queue none ih =>
    rw [spread_cons_empty none] at h
    exact ih h
  | case3 pool e queue t found some ih =>
    rw [spread_cons_found some] at h
    rcases List.mem_append.mp h with h | h
    · exact mem_pool_of_mem_discover (some ▸ h)
    · exact (List.mem_filter.mp (ih h)).1

-- What is found is closed: no step leads from it to an entity of the pool that was missed.
theorem spread_complete {pool queue : List String} {s : JoinStep} (edge : s ∈ g.steps)
    (leaves : s.fromEntity ∈ queue ++ (g.spread pool queue).map (·.toEntity))
    (wanted : s.toEntity ∈ pool) : s.toEntity ∈ (g.spread pool queue).map (·.toEntity) := by
  induction pool, queue using spread.induct (g := g) with
  | case1 pool =>
    rw [spread] at leaves
    cases leaves
  | case2 pool e queue none ih =>
    rw [spread_cons_empty none] at leaves ⊢
    rcases List.mem_cons.mp leaves with here | leaves
    · have found := discover_complete (mem_stepsFrom.mpr ⟨edge, here⟩) wanted
      rw [none] at found
      cases found
    · exact ih leaves wanted
  | case3 pool e queue t found some ih =>
    rw [spread_cons_found some] at leaves ⊢
    rw [List.map_append] at leaves ⊢
    by_cases now : s.toEntity ∈ (t :: found).map (·.toEntity)
    · exact List.mem_append_left _ now
    · refine List.mem_append_right _ (ih ?_ (List.mem_filter.mpr ⟨wanted, by simpa using now⟩))
      rcases List.mem_cons.mp leaves with here | leaves
      · exact absurd (some ▸ discover_complete (mem_stepsFrom.mpr ⟨edge, here⟩) wanted) now
      · rwa [List.append_assoc]

theorem mem_of_mem_trace {steps : List JoinStep} {target : String} {s : JoinStep}
    (h : s ∈ trace steps target) : s ∈ steps := by
  induction steps generalizing target with
  | nil => cases h
  | cons t earlier ih =>
    by_cases ht : t.toEntity = target
    · rw [trace, if_pos ht] at h
      rcases List.mem_append.mp h with h | h
      · exact List.mem_cons_of_mem _ (ih h)
      · exact List.mem_singleton.mp h ▸ List.mem_cons_self
    · rw [trace, if_neg ht] at h
      exact List.mem_cons_of_mem _ (ih h)

-- A way back is a growth of its own: it leaves out edges, but never one that a later edge needs.
theorem trace_growth {known : List String} {found : List JoinStep} (grown : Growth g known found)
    {target : String} (ht : target ∈ known ++ found.map (·.toEntity)) :
    Growth g known (trace found.reverse target) ∧
      target ∈ known ++ (trace found.reverse target).map (·.toEntity) := by
  induction grown generalizing target with
  | nil => exact ⟨.nil, ht⟩
  | @snoc steps s grown edge leaves enters ih =>
    rw [List.reverse_append, List.reverse_singleton, List.singleton_append, trace]
    by_cases hs : s.toEntity = target
    · rw [if_pos hs]
      obtain ⟨way, reaches⟩ := ih leaves
      refine ⟨.snoc way edge reaches ?_, by simp [hs]⟩
      intro h
      apply enters
      rcases List.mem_append.mp h with h | h
      · exact List.mem_append_left _ h
      · obtain ⟨t, ht, he⟩ := List.mem_map.mp h
        refine List.mem_append_right _ (List.mem_map.mpr ⟨t, ?_, he⟩)
        exact List.mem_reverse.mp (mem_of_mem_trace ht)
    · rw [if_neg hs]
      apply ih
      simpa [Ne.symm hs] using ht

theorem bridge_growth {joined : List String} {target : String} {way : List JoinStep}
    (h : g.bridge? joined target = some way) :
    Growth g joined way ∧ target ∈ joined ++ way.map (·.toEntity) := by
  simp only [bridge?] at h
  split at h
  · next ht =>
    cases h
    refine trace_growth (spread_growth (fun _ hx => hx) ?_) (List.mem_append_right _ ht)
    intro x hx
    exact of_decide_eq_true (List.mem_filter.mp hx).2
  · cases h

theorem bridge_closed {joined : List String} {target : String}
    (h : g.bridge? joined target = none) :
    ∃ known : List String, (∀ x ∈ joined, x ∈ known) ∧ (target ∈ known → target ∈ joined) ∧
      ∀ s ∈ g.steps, s.fromEntity ∈ known → s.toEntity ∈ known := by
  simp only [bridge?] at h
  split at h
  · cases h
  · next missed =>
    refine ⟨joined ++ (g.spread (g.entities.filter (· ∉ joined)) joined).map (·.toEntity),
      fun x hx => List.mem_append_left _ hx, ?_, ?_⟩
    · intro ht
      exact (List.mem_append.mp ht).resolve_right missed
    · intro s edge leaves
      by_cases here : s.toEntity ∈ joined
      · exact List.mem_append_left _ here
      · refine List.mem_append_right _ (spread_complete edge leaves ?_)
        have listed : s.toEntity ∈ g.entities := List.mem_map_of_mem edge
        exact List.mem_filter.mpr ⟨listed, by simpa using here⟩

end JoinGraph

end QueryBuilder
