import Mathlib.Logic.Relation
import QueryBuilder.Proofs.Join.Order

set_option autoImplicit false

namespace QueryBuilder

def Connected (rs : List Relationship) : String → String → Prop :=
  Relation.EqvGen fun a b => ∃ r ∈ rs, r.sourceEntity = a ∧ r.targetEntity = b

def FirstOfComponent (rs : List Relationship) (referenced : List String) (e : String) : Prop :=
  ∃ before after, referenced = before ++ e :: after ∧ ∀ x ∈ before, ¬Connected rs x e

def Join.crossed? : Join → Option String
  | .on _ => none
  | .cross entity => some entity

structure JoinPlan.IsNecessary (rs : List Relationship) (referenced : List String)
    (p : JoinPlan) : Prop where
  crosses : p.disconnected = p.joins.filterMap Join.crossed?
  ordered : p.disconnected.Sublist referenced.eraseDups
  disconnects : ∀ e, e ∈ p.disconnected ↔
    FirstOfComponent rs referenced e ∧ ∀ root, p.root = some root → ¬Connected rs root e
  bridges : p.bridged = (p.joins.map Join.entity).filter (· ∉ referenced)
  nodup : p.bridged.Nodup

variable {rs : List Relationship}

namespace Connected

protected theorem refl (e : String) : Connected rs e e := Relation.EqvGen.refl e

protected theorem symm {a b : String} (h : Connected rs a b) : Connected rs b a :=
  Relation.EqvGen.symm a b h

protected theorem trans {a b c : String} (h : Connected rs a b) (k : Connected rs b c) :
    Connected rs a c :=
  Relation.EqvGen.trans a b c h k

theorem of_step {s : JoinStep} (edge : s ∈ (JoinGraph.ofRelationships rs).steps) :
    Connected rs s.fromEntity s.toEntity := by
  obtain ⟨r, hr, -, reads⟩ := JoinGraph.mem_steps_ofRelationships.mp edge
  have forward : Connected rs r.sourceEntity r.targetEntity := .rel _ _ ⟨r, hr, rfl, rfl⟩
  rcases reads with rfl | rfl
  · exact forward
  · exact forward.symm

-- Every relationship can be walked both ways, so a closed set takes in whole components.
theorem mem_iff {known : List String}
    (closed : ∀ s ∈ (JoinGraph.ofRelationships rs).steps, s.fromEntity ∈ known → s.toEntity ∈ known)
    {a b : String} (h : Connected rs a b) : a ∈ known ↔ b ∈ known := by
  induction h with
  | rel a b edge =>
    obtain ⟨r, hr, rfl, rfl⟩ := edge
    by_cases self : r.sourceEntity = r.targetEntity
    · rw [self]
    · have walk : ∀ s, r.ReadsAs s → s.fromEntity ∈ known → s.toEntity ∈ known :=
        fun s reads => closed s (JoinGraph.mem_steps_ofRelationships.mpr ⟨r, hr, self, reads⟩)
      exact ⟨walk _ (.inl rfl), walk _ (.inr rfl)⟩
  | refl a => exact Iff.rfl
  | symm a b _ ih => exact ih.symm
  | trans a b c _ _ first second => exact first.trans second

end Connected

namespace JoinGraph

theorem Growth.connected {known : List String} {steps : List JoinStep}
    (grown : (ofRelationships rs).Growth known steps) {x : String}
    (hx : x ∈ known ++ steps.map (·.toEntity)) : ∃ k ∈ known, Connected rs k x := by
  induction grown generalizing x with
  | nil => exact ⟨x, by simpa using hx, .refl x⟩
  | @snoc steps s _ edge leaves _ ih =>
    rw [List.map_append, ← List.append_assoc] at hx
    rcases List.mem_append.mp hx with hx | hx
    · exact ih hx
    · obtain rfl : x = s.toEntity := List.mem_singleton.mp hx
      obtain ⟨k, hk, way⟩ := ih leaves
      exact ⟨k, hk, way.trans (.of_step edge)⟩

theorem bridge_isSome_iff {joined : List String} {target : String} (missing : target ∉ joined) :
    ((ofRelationships rs).bridge? joined target).isSome = true ↔
      ∃ k ∈ joined, Connected rs k target := by
  constructor
  · intro h
    obtain ⟨way, h⟩ := Option.isSome_iff_exists.mp h
    obtain ⟨grown, reached⟩ := bridge_growth h
    exact grown.connected reached
  · rintro ⟨k, hk, connected⟩
    cases h : (ofRelationships rs).bridge? joined target with
    | some way => rfl
    | none =>
      obtain ⟨known, starts, ends, closed⟩ := bridge_closed h
      exact absurd (ends ((connected.mem_iff closed).mp (starts k hk))) missing

end JoinGraph

theorem firstOfComponent_cons {xs : List String} {d e : String} :
    FirstOfComponent rs (d :: xs) e ↔ e = d ∨ ¬Connected rs d e ∧ FirstOfComponent rs xs e := by
  constructor
  · rintro ⟨before, after, split, apart⟩
    cases before with
    | nil =>
      cases split
      exact .inl rfl
    | cons x before =>
      cases split
      obtain ⟨here, earlier⟩ := List.forall_mem_cons.mp apart
      exact .inr ⟨here, before, after, rfl, earlier⟩
  · rintro (rfl | ⟨here, before, after, rfl, apart⟩)
    · exact ⟨[], xs, rfl, by simp⟩
    · exact ⟨d :: before, after, rfl, List.forall_mem_cons.mpr ⟨here, apart⟩⟩

theorem firstOfComponent_filter {xs : List String} {d e : String} (apart : ¬Connected rs d e) :
    FirstOfComponent rs (xs.filter fun x => !x == d) e ↔ FirstOfComponent rs xs e := by
  have other : e ≠ d := fun same => apart (same ▸ .refl e)
  induction xs with
  | nil => rfl
  | cons x xs ih =>
    by_cases same : x = d
    · subst same
      simp [firstOfComponent_cons, ih, apart, other]
    · simp [firstOfComponent_cons, ih, same]

theorem firstOfComponent_eraseDups (xs : List String) {e : String} :
    FirstOfComponent rs xs.eraseDups e ↔ FirstOfComponent rs xs e := by
  match xs with
  | [] => rfl
  | d :: xs =>
    have shorter : (xs.filter fun x => !x == d).length ≤ xs.length := List.length_filter_le _ xs
    rw [List.eraseDups_cons, firstOfComponent_cons, firstOfComponent_cons]
    refine or_congr_right (and_congr_right fun apart => ?_)
    rw [firstOfComponent_eraseDups, firstOfComponent_filter apart]
termination_by xs.length

theorem exists_firstOfComponent {xs : List String} {e : String} (h : e ∈ xs) :
    ∃ f, FirstOfComponent rs xs f ∧ Connected rs f e := by
  induction xs with
  | nil => cases h
  | cons d xs ih =>
    by_cases here : Connected rs d e
    · exact ⟨d, firstOfComponent_cons.mpr (.inl rfl), here⟩
    · have later : e ∈ xs := by
        rcases List.mem_cons.mp h with rfl | h
        · exact absurd (.refl e) here
        · exact h
      obtain ⟨f, first, way⟩ := ih later
      have apart : ¬Connected rs d f := fun earlier => here (earlier.trans way)
      exact ⟨f, firstOfComponent_cons.mpr (.inr ⟨apart, first⟩), way⟩

-- Of `es`, in order, those that are connected neither to what was seen before nor to each other.
inductive Firsts (rs : List Relationship) : List String → List String → List String → Prop
  | nil {seen : List String} : Firsts rs seen [] []
  | known {seen es firsts : List String} {e : String} (before : ∃ x ∈ seen, Connected rs x e)
      (rest : Firsts rs (seen ++ [e]) es firsts) : Firsts rs seen (e :: es) firsts
  | new {seen es firsts : List String} {e : String} (before : ∀ x ∈ seen, ¬Connected rs x e)
      (rest : Firsts rs (seen ++ [e]) es firsts) : Firsts rs seen (e :: es) (e :: firsts)

namespace Firsts

variable {seen es firsts : List String}

theorem sublist (h : Firsts rs seen es firsts) : firsts.Sublist es := by
  induction h with
  | nil => exact .slnil
  | known _ _ ih => exact .cons _ ih
  | new _ _ ih => exact .cons_cons _ ih

theorem mem_iff (h : Firsts rs seen es firsts) {e : String} :
    e ∈ firsts ↔ FirstOfComponent rs es e ∧ ∀ x ∈ seen, ¬Connected rs x e := by
  induction h with
  | nil => simp [FirstOfComponent]
  | @known seen es firsts d before rest ih =>
    obtain ⟨x, hx, way⟩ := before
    have other (apart : ∀ x ∈ seen, ¬Connected rs x e) : e ≠ d := by
      rintro rfl
      exact apart x hx way
    rw [ih, firstOfComponent_cons, List.forall_mem_append, List.forall_mem_singleton]
    grind
  | @new seen es firsts d before rest ih =>
    rw [List.mem_cons, ih, firstOfComponent_cons, List.forall_mem_append,
      List.forall_mem_singleton]
    grind

theorem pairwise (h : Firsts rs seen es firsts) :
    firsts.Pairwise fun a b => ¬Connected rs a b := by
  induction h with
  | nil => exact .nil
  | known _ _ ih => exact ih
  | @new seen es firsts e _ rest ih =>
    refine .cons (fun f hf => ?_) ih
    exact (rest.mem_iff.mp hf).2 e (List.mem_append_right _ List.mem_cons_self)

end Firsts

theorem length_le_of_connected {xs ys : List String}
    (apart : xs.Pairwise fun a b => ¬Connected rs a b)
    (covered : ∀ x ∈ xs, ∃ y ∈ ys, Connected rs y x) : xs.length ≤ ys.length := by
  induction xs generalizing ys with
  | nil => exact Nat.zero_le _
  | cons x xs ih =>
    obtain ⟨apartX, apart⟩ := List.pairwise_cons.mp apart
    obtain ⟨⟨y, hy, way⟩, covered⟩ := List.forall_mem_cons.mp covered
    have fewer : xs.length ≤ (ys.erase y).length := by
      refine ih apart fun z hz => ?_
      obtain ⟨y', hy', way'⟩ := covered z hz
      refine ⟨y', (List.mem_erase_of_ne ?_).mpr hy', way'⟩
      rintro rfl
      exact apartX z hz (way.symm.trans way')
    have positive : 0 < ys.length := List.length_pos_of_mem hy
    rw [List.length_erase_of_mem hy] at fewer
    rw [List.length_cons]
    omega

namespace JoinPlan

open JoinGraph (ofRelationships)

variable {p : JoinPlan} {wanted seen : List String} {e : String}

-- A plan on its way: everything that was seen is joined, and nothing out of reach of it is.
structure Spans (rs : List Relationship) (seen : List String) (p : JoinPlan) : Prop where
  joined : ∀ x ∈ seen, x ∈ p.entities
  reached : ∀ x ∈ p.entities, ∃ y ∈ seen, Connected rs y x

theorem Spans.append (spans : p.Spans rs seen) {q : JoinPlan} {steps : List JoinStep}
    (grown : (ofRelationships rs).Growth p.entities steps)
    (more : q.entities = p.entities ++ steps.map (·.toEntity)) : q.Spans rs seen := by
  refine ⟨fun x hx => more ▸ List.mem_append_left _ (spans.joined x hx), fun x hx => ?_⟩
  obtain ⟨k, hk, way⟩ := grown.connected (more ▸ hx)
  obtain ⟨y, hy, earlier⟩ := spans.reached k hk
  exact ⟨y, hy, earlier.trans way⟩

theorem Spans.snoc (spans : p.Spans rs seen) (here : e ∈ p.entities) :
    p.Spans rs (seen ++ [e]) := by
  constructor
  · intro x hx
    rcases List.mem_append.mp hx with hx | hx
    · exact spans.joined x hx
    · exact List.mem_singleton.mp hx ▸ here
  · intro x hx
    obtain ⟨y, hy, way⟩ := spans.reached x hx
    exact ⟨y, List.mem_append_left _ hy, way⟩

theorem expand_spans (spans : p.Spans rs seen) :
    (p.expand (ofRelationships rs) wanted).Spans rs seen := by
  refine spans.append (JoinGraph.spread_growth (fun _ hx => hx) ?_) (entities_append p _)
  intro x hx
  exact of_decide_eq_true (List.mem_filter.mp hx).2

theorem connect_spans (spans : p.Spans rs seen) :
    (p.connect (ofRelationships rs) wanted e).Spans rs (seen ++ [e]) := by
  cases h : (ofRelationships rs).bridge? p.entities e with
  | some way =>
    obtain ⟨grown, here⟩ := JoinGraph.bridge_growth h
    have more : (p.connect (ofRelationships rs) wanted e).entities =
        p.entities ++ way.map (·.toEntity) := by
      simp only [connect, h]
      exact entities_append p way
    exact (spans.append grown more).snoc (more ▸ here)
  | none =>
    have more : (p.connect (ofRelationships rs) wanted e).entities = p.entities ++ [e] := by
      simp only [connect, h]
      simp [entities, Join.entity]
    constructor
    · intro x hx
      rw [more]
      exact (List.mem_append.mp hx).elim
        (fun hx => List.mem_append_left _ (spans.joined x hx)) (List.mem_append_right _)
    · intro x hx
      rw [more] at hx
      rcases List.mem_append.mp hx with hx | hx
      · obtain ⟨y, hy, way⟩ := spans.reached x hx
        exact ⟨y, List.mem_append_left _ hy, way⟩
      · exact ⟨x, List.mem_append_right _ hx, .refl x⟩

theorem ensure_spans (spans : p.Spans rs seen) :
    (p.ensure (ofRelationships rs) wanted e).Spans rs (seen ++ [e]) := by
  unfold ensure
  split
  · next here => exact spans.snoc here
  · exact expand_spans (connect_spans spans)

-- An entity is crossed just if nothing that was seen before is in its component.
theorem disconnected_ensure (spans : p.Spans rs seen) (wanted : List String) (e : String) :
    (∃ x ∈ seen, Connected rs x e) ∧
        (p.ensure (ofRelationships rs) wanted e).disconnected = p.disconnected ∨
      (∀ x ∈ seen, ¬Connected rs x e) ∧
        (p.ensure (ofRelationships rs) wanted e).disconnected = p.disconnected ++ [e] := by
  by_cases here : e ∈ p.entities
  · rw [ensure, if_pos here]
    exact .inl ⟨spans.reached e here, rfl⟩
  · rw [ensure, if_neg here]
    have bridged : ((ofRelationships rs).bridge? p.entities e).isSome = true ↔ _ :=
      JoinGraph.bridge_isSome_iff here
    cases h : (ofRelationships rs).bridge? p.entities e with
    | some way =>
      obtain ⟨k, hk, last⟩ := bridged.mp (by rw [h]; rfl)
      obtain ⟨y, hy, first⟩ := spans.reached k hk
      exact .inl ⟨⟨y, hy, first.trans last⟩, by simp [expand, connect, h]⟩
    | none =>
      refine .inr ⟨fun x hx way => ?_, by simp [expand, connect, h]⟩
      have found := bridged.mpr ⟨x, spans.joined x hx, way⟩
      rw [h] at found
      cases found

-- What a plan reports of its joins.
structure Accounts (wanted : List String) (p : JoinPlan) : Prop where
  crosses : p.disconnected = p.joins.filterMap Join.crossed?
  bridges : p.bridged = (p.joins.map Join.entity).filter (· ∉ wanted)

theorem filterMap_crossed_on (steps : List JoinStep) :
    (steps.map Join.on).filterMap Join.crossed? = [] := by
  simp [Join.crossed?]

theorem expand_accounts {g : JoinGraph} (accounts : p.Accounts wanted) :
    (p.expand g wanted).Accounts wanted := by
  constructor
  · simp only [expand, List.filterMap_append, filterMap_crossed_on, accounts.crosses,
      List.append_nil]
  · have asked : ((g.spread (wanted.filter (· ∉ p.entities)) p.entities).map (·.toEntity)).filter
        (· ∉ wanted) = [] := by
      simp only [List.filter_eq_nil_iff, List.mem_map]
      rintro x ⟨s, hs, rfl⟩
      have hs := (List.mem_filter.mp (JoinGraph.mem_pool_of_mem_spread hs)).1
      simpa using hs
    simp only [expand, List.map_append, InOrder.entity_on, List.filter_append, asked,
      List.append_nil, accounts.bridges]

theorem connect_accounts {g : JoinGraph} (accounts : p.Accounts wanted) (asked : e ∈ wanted) :
    (p.connect g wanted e).Accounts wanted := by
  cases h : g.bridge? p.entities e with
  | some way =>
    have other : ((way.map (·.toEntity)).filter fun x => x ≠ e ∧ x ∉ wanted) =
        (way.map (·.toEntity)).filter (· ∉ wanted) := by
      refine List.filter_congr fun x _ => ?_
      by_cases hx : x ∈ wanted
      · simp [hx]
      · simp [hx, show x ≠ e from fun same => hx (same ▸ asked)]
    simp only [connect, h]
    constructor
    · simp only [List.filterMap_append, filterMap_crossed_on, accounts.crosses, List.append_nil]
    · rw [List.map_append, InOrder.entity_on, List.filter_append, ← accounts.bridges, ← other]
  | none =>
    simp only [connect, h]
    constructor
    · simp [List.filterMap_append, Join.crossed?, accounts.crosses]
    · simp [List.filter_append, Join.entity, asked, accounts.bridges]

theorem ensure_accounts {g : JoinGraph} (accounts : p.Accounts wanted) (asked : e ∈ wanted) :
    (p.ensure g wanted e).Accounts wanted := by
  unfold ensure
  split
  · exact accounts
  · exact expand_accounts (connect_accounts accounts asked)

-- The entities that a plan comes to without a step.
def starts (p : JoinPlan) : List String := p.root.toList ++ p.disconnected

theorem foldl_ensure_firsts (es : List String) (spans : p.Spans rs seen) :
    ∃ firsts, Firsts rs seen es firsts ∧
      (es.foldl (ensure (ofRelationships rs) wanted) p).disconnected =
        p.disconnected ++ firsts := by
  induction es generalizing p seen with
  | nil => exact ⟨[], .nil, by simp⟩
  | cons e es ih =>
    have next : (p.ensure (ofRelationships rs) wanted e).Spans rs (seen ++ [e]) :=
      ensure_spans spans
    obtain ⟨firsts, rest, eq⟩ := ih next
    rcases disconnected_ensure spans wanted e with ⟨before, same⟩ | ⟨before, more⟩
    · exact ⟨firsts, .known before rest, by rw [List.foldl_cons, eq, same]⟩
    · exact ⟨e :: firsts, .new before rest, by rw [List.foldl_cons, eq, more]; simp⟩

theorem foldl_ensure_accounts {g : JoinGraph} {es : List String} (accounts : p.Accounts wanted)
    (asked : ∀ e ∈ es, e ∈ wanted) : (es.foldl (ensure g wanted) p).Accounts wanted := by
  induction es generalizing p with
  | nil => exact accounts
  | cons e es ih =>
    obtain ⟨here, later⟩ := List.forall_mem_cons.mp asked
    exact ih (ensure_accounts accounts here) later

end JoinPlan

namespace JoinGraph

open JoinPlan

variable {referenced : List String}

theorem plan_firsts {root : String} {others : List String}
    (h : referenced.eraseDups = root :: others) :
    Firsts rs [root] others ((ofRelationships rs).plan referenced).disconnected := by
  have start : Spans rs [root] ⟨some root, [], [], []⟩ := by
    constructor
    · simp [JoinPlan.entities]
    · intro x hx
      exact ⟨x, by simpa [JoinPlan.entities] using hx, .refl x⟩
  have expanded : (expand (ofRelationships rs) (root :: others) ⟨some root, [], [], []⟩).Spans
      rs [root] := expand_spans start
  obtain ⟨firsts, split, eq⟩ := foldl_ensure_firsts others expanded
  simp only [plan, h]
  rw [eq]
  exact split

theorem plan_accounts (g : JoinGraph) (referenced : List String) :
    (g.plan referenced).Accounts referenced.eraseDups := by
  unfold plan
  split
  · exact ⟨rfl, rfl⟩
  · next root others h =>
    rw [h]
    refine foldl_ensure_accounts (expand_accounts ⟨rfl, rfl⟩) ?_
    exact fun e he => List.mem_cons_of_mem _ he

theorem mem_disconnected_plan {e : String} :
    e ∈ ((ofRelationships rs).plan referenced).disconnected ↔
      FirstOfComponent rs referenced e ∧
        ∀ root, ((ofRelationships rs).plan referenced).root = some root → ¬Connected rs root e := by
  rw [plan_root]
  cases referenced with
  | nil => simp [plan, JoinPlan.empty, FirstOfComponent]
  | cons root others =>
    have other (apart : ¬Connected rs root e) : e ≠ root := by
      rintro rfl
      exact apart (.refl e)
    rw [(plan_firsts List.eraseDups_cons).mem_iff, ← firstOfComponent_eraseDups (root :: others),
      List.eraseDups_cons, firstOfComponent_cons, List.forall_mem_singleton]
    simp only [List.head?_cons, Option.some.injEq, forall_eq']
    grind

theorem plan_starts_pairwise (rs : List Relationship) (referenced : List String) :
    ((ofRelationships rs).plan referenced).starts.Pairwise fun a b => ¬Connected rs a b := by
  cases referenced with
  | nil => exact .nil
  | cons root others =>
    have firsts : Firsts rs [root] (others.filter fun x => !x == root).eraseDups _ :=
      plan_firsts List.eraseDups_cons
    rw [starts, plan_root]
    refine .cons (fun e he => ?_) firsts.pairwise
    exact (firsts.mem_iff.mp he).2 root List.mem_cons_self

theorem mem_of_mem_starts {e : String}
    (h : e ∈ ((ofRelationships rs).plan referenced).starts) : e ∈ referenced := by
  rcases List.mem_append.mp h with h | h
  · rw [plan_root, Option.mem_toList] at h
    exact List.mem_of_mem_head? h
  · obtain ⟨⟨before, after, rfl, -⟩, -⟩ := mem_disconnected_plan.mp h
    simp

theorem starts_cover {e : String} (h : e ∈ referenced) :
    ∃ x ∈ ((ofRelationships rs).plan referenced).starts, Connected rs x e := by
  obtain ⟨f, first, way⟩ : ∃ f, FirstOfComponent rs referenced f ∧ Connected rs f e :=
    exists_firstOfComponent h
  by_cases near : ∃ root, ((ofRelationships rs).plan referenced).root = some root ∧
      Connected rs root f
  · obtain ⟨root, hr, start⟩ := near
    exact ⟨root, List.mem_append_left _ (by simp [hr]), start.trans way⟩
  · simp only [not_exists, not_and] at near
    exact ⟨f, List.mem_append_right _ (mem_disconnected_plan.mpr ⟨first, near⟩), way⟩

theorem length_starts_le {xs ys : List String} (sub : ∀ x ∈ xs, x ∈ ys) :
    ((ofRelationships rs).plan xs).starts.length ≤ ((ofRelationships rs).plan ys).starts.length :=
  length_le_of_connected (plan_starts_pairwise rs xs)
    fun x hx => starts_cover (sub x (mem_of_mem_starts hx))

theorem length_crosses_perm {xs ys : List String} (perm : xs.Perm ys) :
    (((ofRelationships rs).plan xs).joins.filterMap Join.crossed?).length =
      (((ofRelationships rs).plan ys).joins.filterMap Join.crossed?).length := by
  have same : ((ofRelationships rs).plan xs).starts.length =
      ((ofRelationships rs).plan ys).starts.length :=
    Nat.le_antisymm (length_starts_le fun _ => perm.mem_iff.mp)
      (length_starts_le fun _ => perm.mem_iff.mpr)
  have root (zs : List String) : zs.head?.toList.length = min 1 zs.length := by
    cases zs <;> simp
  rw [starts, starts, List.length_append, List.length_append, plan_root, plan_root, root, root,
    perm.length_eq] at same
  rw [← (plan_accounts _ xs).crosses, ← (plan_accounts _ ys).crosses]
  exact Nat.add_left_cancel same

theorem plan_isNecessary (rs : List Relationship) (referenced : List String) :
    ((ofRelationships rs).plan referenced).IsNecessary rs referenced ∧
      ∀ permuted : List String, permuted.Perm referenced →
        (((ofRelationships rs).plan permuted).joins.filterMap Join.crossed?).length =
          (((ofRelationships rs).plan referenced).joins.filterMap Join.crossed?).length := by
  have accounts := plan_accounts (ofRelationships rs) referenced
  have bridges : ((ofRelationships rs).plan referenced).bridged =
      (((ofRelationships rs).plan referenced).joins.map Join.entity).filter (· ∉ referenced) := by
    simpa only [List.mem_eraseDups] using accounts.bridges
  refine ⟨⟨accounts.crosses, ?_, fun e => mem_disconnected_plan, bridges, ?_⟩,
    fun permuted => length_crosses_perm⟩
  · cases referenced with
    | nil => exact .slnil
    | cons root others =>
      rw [List.eraseDups_cons]
      exact .cons _ (plan_firsts List.eraseDups_cons).sublist
  · have distinct : ((ofRelationships rs).plan referenced).entities.Nodup := by
      refine (plan_inOrder _ referenced).nodup ?_
      cases ((ofRelationships rs).plan referenced).root <;> simp
    rw [bridges]
    exact (List.filter_sublist.trans (List.sublist_append_right _ _)).nodup distinct

def trade : List Relationship :=
  [⟨"employees", "department_id", "departments", "id"⟩,
    ⟨"invoices", "vendor_id", "vendors", "id"⟩]

theorem trade_crosses_reordered :
    ["invoices", "departments", "employees", "vendors"].Perm
        ["employees", "vendors", "departments", "invoices"] ∧
      (((ofRelationships trade).plan
          ["invoices", "departments", "employees", "vendors"]).joins.filterMap
            Join.crossed?).length =
        (((ofRelationships trade).plan
          ["employees", "vendors", "departments", "invoices"]).joins.filterMap
            Join.crossed?).length := by
  have perm : ["invoices", "departments", "employees", "vendors"].Perm
      ["employees", "vendors", "departments", "invoices"] := by decide
  exact ⟨perm, (plan_isNecessary trade _).2 _ perm⟩

end JoinGraph

end QueryBuilder
