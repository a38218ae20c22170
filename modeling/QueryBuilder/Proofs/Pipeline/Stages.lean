import Mathlib.Data.List.Nodup
import QueryBuilder.Pipeline.Build
import QueryBuilder.Proofs.Join.Order

set_option autoImplicit false

namespace QueryBuilder.Pipeline

inductive Place where
  | lookup
  | filter
  | window
  | group
  | sizes
  | having
  | sort
  | skip
  | limit
  | project
  | union
  deriving DecidableEq

def Place.all : List Place :=
  [.lookup, .filter, .window, .group, .sizes, .having, .sort, .skip, .limit, .project, .union]

def Place.rank (place : Place) : Nat := place.ctorIdx

def Stage.place? : Stage → Option Place
  | .lookup .. | .lookupAll _ | .unwind .. => some .lookup
  | .filter _ => some .filter
  | .window _ => some .window
  | .group .. => some .group
  | .sizes _ => some .sizes
  | .having _ => some .having
  | .sort _ => some .sort
  | .skip _ => some .skip
  | .limit _ => some .limit
  | .project _ => some .project
  | .custom _ => none
  | .union .. => some .union

def stagesAt (place : Place) (stages : List Stage) : List Stage :=
  stages.filter (·.place? = some place)

structure Ascends (first last : Place) (stages : List Stage) : Prop where
  le : first.rank ≤ last.rank
  between : ∀ stage ∈ stages, ∀ place, stage.place? = some place →
    first.rank ≤ place.rank ∧ place.rank ≤ last.rank
  sorted : (stages.filterMap Stage.place?).Pairwise (·.rank ≤ ·.rank)

namespace Ascends

theorem of_forall {place : Place} {stages : List Stage}
    (only : ∀ stage ∈ stages, ∀ p, stage.place? = some p → p = place) :
    Ascends place place stages where
  le := Nat.le_refl _
  between := by
    intro stage mem p hp
    rw [only stage mem p hp]
    exact ⟨Nat.le_refl _, Nat.le_refl _⟩
  sorted := by
    have same : ∀ p ∈ stages.filterMap Stage.place?, p = place := by
      intro p hp
      obtain ⟨stage, mem, hp⟩ := List.mem_filterMap.mp hp
      exact only stage mem p hp
    rw [List.eq_replicate_iff.mpr ⟨rfl, same⟩, List.pairwise_replicate]
    exact .inr (Nat.le_refl _)

theorem append {a b c d : Place} {xs ys : List Stage} (hx : Ascends a b xs)
    (hy : Ascends c d ys) (next : b.rank ≤ c.rank) : Ascends a d (xs ++ ys) where
  le := Nat.le_trans hx.le (Nat.le_trans next hy.le)
  between := by
    intro stage mem place hp
    rcases List.mem_append.mp mem with mem | mem
    · obtain ⟨low, high⟩ := hx.between stage mem place hp
      exact ⟨low, Nat.le_trans high (Nat.le_trans next hy.le)⟩
    · obtain ⟨low, high⟩ := hy.between stage mem place hp
      exact ⟨Nat.le_trans hx.le (Nat.le_trans next low), high⟩
  sorted := by
    rw [List.filterMap_append, List.pairwise_append]
    refine ⟨hx.sorted, hy.sorted, ?_⟩
    intro p hp r hr
    obtain ⟨x, memx, hp⟩ := List.mem_filterMap.mp hp
    obtain ⟨y, memy, hr⟩ := List.mem_filterMap.mp hr
    exact Nat.le_trans (hx.between x memx p hp).2 (Nat.le_trans next (hy.between y memy r hr).1)

theorem rank_le {a b m n : Place} {before after : List Stage} {x y : Stage}
    (h : Ascends a b (before ++ y :: after)) (mem : x ∈ before) (hx : x.place? = some m)
    (hy : y.place? = some n) : m.rank ≤ n.rank := by
  have sorted := h.sorted
  rw [List.filterMap_append, List.pairwise_append] at sorted
  apply sorted.2.2 m (List.mem_filterMap.mpr ⟨x, mem, hx⟩) n
  exact List.mem_filterMap.mpr ⟨y, List.mem_cons_self, hy⟩

theorem le_rank {a b m n : Place} {before after : List Stage} {x y : Stage}
    (h : Ascends a b (before ++ x :: after)) (mem : y ∈ after) (hx : x.place? = some m)
    (hy : y.place? = some n) : m.rank ≤ n.rank := by
  obtain ⟨front, back, rfl⟩ := List.append_of_mem mem
  have split : before ++ x :: (front ++ y :: back) = (before ++ x :: front) ++ y :: back := by simp
  rw [split] at h
  exact h.rank_le (by simp) hx hy

theorem mem_before {a b m n : Place} {before after : List Stage} {x y : Stage}
    (h : Ascends a b (before ++ x :: after)) (mem : y ∈ before ++ x :: after)
    (hx : x.place? = some m) (hy : y.place? = some n) (lower : n.rank < m.rank) : y ∈ before := by
  rcases List.mem_append.mp mem with earlier | later
  · exact earlier
  rcases List.mem_cons.mp later with rfl | later
  · obtain rfl : m = n := Option.some.inj (hx.symm.trans hy)
    exact absurd lower (Nat.lt_irrefl _)
  · exact absurd (h.le_rank later hx hy) (Nat.not_le_of_lt lower)

theorem mem_after {a b m n : Place} {before after : List Stage} {x y : Stage}
    (h : Ascends a b (before ++ x :: after)) (mem : y ∈ before ++ x :: after)
    (hx : x.place? = some m) (hy : y.place? = some n) (higher : m.rank < n.rank) : y ∈ after := by
  rcases List.mem_append.mp mem with earlier | later
  · exact absurd (h.rank_le earlier hy hx) (Nat.not_le_of_lt higher)
  rcases List.mem_cons.mp later with rfl | later
  · obtain rfl : m = n := Option.some.inj (hx.symm.trans hy)
    exact absurd higher (Nat.lt_irrefl _)
  · exact later

end Ascends

theorem mem_stagesAt {place : Place} {stages : List Stage} {stage : Stage} :
    stage ∈ stagesAt place stages ↔ stage ∈ stages ∧ stage.place? = some place := by
  simp [stagesAt]

section

variable (s : Schema) (root : String) (joins : List Join) (q : Query)

def generated : Place → List Stage
  | .lookup => joins.flatMap (lookupStages root q.options)
  | .filter => filterStages s root q
  | .window => (outputs root (isGrouped q) q).filterMap (windowStage? root)
  | .group =>
    if isGrouped q then
      [.group (groupId root (outputs root (isGrouped q) q))
        ((outputs root (isGrouped q) q).filterMap (reduction? root))]
    else []
  | .sizes =>
    if isGrouped q then sizesStages ((outputs root (isGrouped q) q).filterMap distinctCount?)
    else []
  | .having => havingStages s (isGrouped q) (outputs root (isGrouped q) q) q
  | .sort => sortStages (sortKeys root (isGrouped q) (outputs root (isGrouped q) q) q)
  | .skip => (q.options.offset.map Stage.skip).toList
  | .limit => (q.options.limit.map Stage.limit).toList
  | .project => projectStages (isGrouped q) (outputs root (isGrouped q) q) q
  | .union => unionStages s q.options.setOperations

variable {s root joins q}

theorem place_custom {position : StagePosition} {stage : Stage}
    (h : stage ∈ customStages q.options position) : stage.place? = none := by
  obtain ⟨body, -, rfl⟩ := List.mem_map.mp h
  rfl

theorem place_lookup {j : Join} {stage : Stage} (h : stage ∈ lookupStages root q.options j) :
    stage.place? = some .lookup := by
  unfold lookupStages at h
  rcases List.mem_cons.mp h with rfl | h
  · cases j <;> rfl
  · split at h
    · cases h
    · rw [List.mem_singleton.mp h]
      rfl

theorem mem_matching {make : List Json.Object → Stage} {clauses : List Json.Object}
    {stage : Stage} (h : stage ∈ matching make clauses) : stage = make clauses := by
  unfold matching at h
  split at h
  · cases h
  · exact List.mem_singleton.mp h

theorem place_window {o : Output} {stage : Stage} (h : windowStage? root o = some stage) :
    stage.place? = some .window := by
  unfold windowStage? at h
  split at h
  · cases h
    rfl
  · cases h

theorem mem_unionStages_cons {operator : SetOperator} {all : Bool} {other : Query}
    {sets : List (SetOperation Query)} {stage : Stage}
    (h : stage ∈ unionStages s (⟨operator, all, other⟩ :: sets)) :
    (∃ p : Pipeline, stage = .union p.collection p.stages) ∨ stage ∈ unionStages s sets := by
  unfold unionStages at h
  split at h
  · exact (List.mem_cons.mp h).imp_left fun same => ⟨_, same⟩
  · exact .inr h

theorem place_union {sets : List (SetOperation Query)} {stage : Stage}
    (h : stage ∈ unionStages s sets) : stage.place? = some .union := by
  induction sets with
  | nil => simp [unionStages] at h
  | cons set sets ih =>
    obtain ⟨operator, all, other⟩ := set
    rcases mem_unionStages_cons h with ⟨p, rfl⟩ | h
    · rfl
    · exact ih h

theorem place_generated {place : Place} {stage : Stage}
    (h : stage ∈ generated s root joins q place) : stage.place? = some place := by
  cases place with
  | lookup =>
    obtain ⟨j, -, h⟩ := List.mem_flatMap.mp h
    exact place_lookup h
  | filter =>
    rw [mem_matching h]
    rfl
  | window =>
    obtain ⟨o, -, h⟩ := List.mem_filterMap.mp h
    exact place_window h
  | group =>
    simp only [generated] at h
    split at h
    · rw [List.mem_singleton.mp h]
      rfl
    · cases h
  | sizes =>
    simp only [generated, sizesStages] at h
    split at h
    · split at h
      · cases h
      · rw [List.mem_singleton.mp h]
        rfl
    · cases h
  | having =>
    simp only [generated, havingStages] at h
    split at h
    · rw [mem_matching h]
      rfl
    · cases h
  | sort =>
    simp only [generated, sortStages] at h
    split at h
    · cases h
    · rw [List.mem_singleton.mp h]
      rfl
  | skip | limit =>
    obtain ⟨n, -, rfl⟩ := Option.map_eq_some_iff.mp (Option.mem_toList.mp h)
    rfl
  | project =>
    simp only [generated, projectStages] at h
    split at h
    · rw [List.mem_singleton.mp h]
      rfl
    · cases h
  | union => exact place_union h

end

section

variable {s : Schema} {q : Query} {p : Pipeline}

theorem pipeline_eq (h : pipeline? s q = some p) :
    q.isEmpty = false ∧
      ((JoinGraph.ofSchema s).plan q.referencedEntities).root = some p.collection ∧
      p.stages =
        { parts s p.collection ((JoinGraph.ofSchema s).plan q.referencedEntities).joins q with
          unions := unionStages s q.options.setOperations }.assemble
            (customStages q.options) := by
  obtain ⟨columns, options⟩ := q
  rw [pipeline?] at h
  obtain ⟨⟨root, made⟩, ready, rfl⟩ := Option.map_eq_some_iff.mp h
  unfold parts? at ready
  split at ready
  · cases ready
  · next shown =>
    obtain ⟨root, rooted, same⟩ := Option.map_eq_some_iff.mp ready
    cases same
    exact ⟨by simpa using shown, rooted, rfl⟩

theorem head_referencedEntities (h : pipeline? s q = some p) :
    q.referencedEntities.head? = some p.collection := by
  rw [← JoinGraph.plan_root]
  exact (pipeline_eq h).2.1

theorem exists_pipeline (shown : q.isEmpty = false) (refers : q.referencedEntities ≠ []) :
    ∃ p, pipeline? s q = some p := by
  obtain ⟨first, others, h⟩ := List.exists_cons_of_ne_nil refers
  have rooted : ((JoinGraph.ofSchema s).plan q.referencedEntities).root = some first := by
    rw [JoinGraph.plan_root, h, List.head?_cons]
  obtain ⟨columns, options⟩ := q
  simp [pipeline?, parts?, shown, rooted]

theorem stages_eq (h : pipeline? s q = some p) :
    let custom := customStages q.options
    let own := generated s p.collection
      ((JoinGraph.ofSchema s).plan q.referencedEntities).joins q
    p.stages =
      custom .start ++ own .lookup ++ custom .afterLookup ++ own .filter ++
        custom .afterMatch ++ (own .window ++ (own .group ++ own .sizes)) ++
        custom .afterGroup ++ own .having ++ custom .beforeSort ++
        (own .sort ++ (own .skip ++ own .limit)) ++ custom .beforeProject ++ own .project ++
        custom .atEnd ++ own .union := by
  obtain ⟨-, -, stages⟩ := pipeline_eq h
  rw [stages]
  cases grouped : isGrouped q <;>
    simp [Parts.assemble, parts, generated, groupStages, pagingStages, grouped]

theorem stages_ascend (h : pipeline? s q = some p) : Ascends .lookup .union p.stages := by
  have custom (place : Place) (position : StagePosition) :
      Ascends place place (customStages q.options position) :=
    .of_forall fun stage mem p hp => by
      rw [place_custom mem] at hp
      cases hp
  have own (place : Place) : Ascends place place (generated s p.collection
      ((JoinGraph.ofSchema s).plan q.referencedEntities).joins q place) :=
    .of_forall fun stage mem p hp => by
      rw [place_generated mem] at hp
      exact (Option.some.inj hp).symm
  have groups := (own .window).append ((own .group).append (own .sizes) (by decide)) (by decide)
  have sorts := (own .sort).append ((own .skip).append (own .limit) (by decide)) (by decide)
  have matched := (((custom .lookup .start).append (own .lookup) (by decide)).append
    (custom .lookup .afterLookup) (by decide)).append (own .filter) (by decide)
  have grouped := (((matched.append (custom .filter .afterMatch) (by decide)).append groups
    (by decide)).append (custom .sizes .afterGroup) (by decide)).append (own .having) (by decide)
  have paged := (grouped.append (custom .having .beforeSort) (by decide)).append sorts (by decide)
  have shown := (paged.append (custom .limit .beforeProject) (by decide)).append (own .project)
    (by decide)
  rw [stages_eq h]
  exact (shown.append (custom .project .atEnd) (by decide)).append (own .union) (by decide)

theorem filter_stages (h : pipeline? s q = some p) (here : Place → Bool) :
    p.stages.filter (·.place?.any here) =
      Place.all.flatMap fun place =>
        if here place then generated s p.collection
          ((JoinGraph.ofSchema s).plan q.referencedEntities).joins q place
        else [] := by
  have custom (position : StagePosition) :
      (customStages q.options position).filter (·.place?.any here) = [] := by
    apply List.filter_eq_nil_iff.mpr
    intro stage mem
    simp [place_custom mem]
  have own (place : Place) : (generated s p.collection
      ((JoinGraph.ofSchema s).plan q.referencedEntities).joins q place).filter
        (·.place?.any here) =
      if here place then generated s p.collection
        ((JoinGraph.ofSchema s).plan q.referencedEntities).joins q place
      else [] := by
    split
    · next kept =>
      apply List.filter_eq_self.mpr
      intro stage mem
      simp [place_generated mem, kept]
    · next dropped =>
      apply List.filter_eq_nil_iff.mpr
      intro stage mem
      simp [place_generated mem, dropped]
  rw [stages_eq h]
  simp only [List.filter_append, custom, own, Place.all, List.flatMap_cons, List.flatMap_nil,
    List.nil_append, List.append_nil, List.append_assoc]

theorem stagesAt_stages (h : pipeline? s q = some p) (place : Place) :
    stagesAt place p.stages = generated s p.collection
      ((JoinGraph.ofSchema s).plan q.referencedEntities).joins q place := by
  have same : stagesAt place p.stages =
      p.stages.filter (·.place?.any fun other => decide (other = place)) := by
    apply List.filter_congr
    intro stage _
    cases stage.place? <;> simp
  rw [same, filter_stages h]
  cases place <;> simp [Place.all]

theorem mem_stages_iff (h : pipeline? s q = some p) (place : Place) {stage : Stage}
    (here : stage.place? = some place) :
    stage ∈ p.stages ↔ stage ∈ generated s p.collection
      ((JoinGraph.ofSchema s).plan q.referencedEntities).joins q place := by
  rw [← stagesAt_stages h, mem_stagesAt]
  exact ⟨fun mem => ⟨mem, here⟩, And.left⟩

end

section

variable {root : String} {grouped : Bool} {q : Query} {c : Column} {o : Output}

theorem column_list (names : Names) (cs : List Column) :
    (Output.list root grouped names cs).map (·.column) = cs := by
  induction cs generalizing names with
  | nil => rfl
  | cons c rest ih => exact congrArg (c :: ·) (ih _)

theorem column_outputs (root : String) (grouped : Bool) (q : Query) :
    (outputs root grouped q).map (·.column) = q.selected :=
  column_list _ _

theorem column_mem_selected (h : o ∈ outputs root grouped q) : o.column ∈ q.selected := by
  rw [← column_outputs root grouped q]
  exact List.mem_map_of_mem h

theorem exists_output (root : String) (grouped : Bool) (h : c ∈ q.selected) :
    ∃ o ∈ outputs root grouped q, o.column = c := by
  rw [← column_outputs root grouped q] at h
  exact List.mem_map.mp h

variable (distinct : (q.columns.map (·.key)).Nodup) (mem : c ∈ q.columns)
include distinct mem

-- The search is by key alone, so it finds the column's own output only if no key stands twice.
theorem column_outputOf (found : outputOf? (outputs root grouped q) c.key = some o) :
    o.column = c := by
  have shown := (List.mem_filter.mp (column_mem_selected (List.mem_of_find?_eq_some found))).1
  have same : o.column.key = c.key := by simpa using List.find?_some found
  exact List.inj_on_of_nodup_map distinct shown mem same

theorem outputOf_isSome_iff (root : String) (grouped : Bool) :
    (outputOf? (outputs root grouped q) c.key).isSome = true ↔ c.selected = true := by
  constructor
  · intro found
    obtain ⟨o, found⟩ := Option.isSome_iff_exists.mp found
    have shown := column_mem_selected (List.mem_of_find?_eq_some found)
    rw [column_outputOf distinct mem found] at shown
    exact (List.mem_filter.mp shown).2
  · intro shown
    obtain ⟨o, ho, rfl⟩ := exists_output root grouped (List.mem_filter.mpr ⟨mem, shown⟩)
    exact List.find?_isSome.mpr ⟨o, ho, by simp⟩

end

end QueryBuilder.Pipeline
