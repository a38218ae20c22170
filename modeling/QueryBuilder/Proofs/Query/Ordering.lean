import QueryBuilder.Proofs.Query.Locality

set_option autoImplicit false

namespace QueryBuilder

section

variable {α : Type} (k : α → Nat)

def sortBy (l : List α) : List α := l.mergeSort fun a b => k a ≤ k b

theorem sortBy_pairwise (l : List α) : (sortBy k l).Pairwise (k · ≤ k ·) := by
  have sorted : (sortBy k l).Pairwise fun a b => decide (k a ≤ k b) = true :=
    List.pairwise_mergeSort (fun a b c => by simpa using Nat.le_trans)
      (fun a b => by simpa using Nat.le_total _ _) l
  simpa using sorted

theorem sortBy_perm (l : List α) : (sortBy k l).Perm l := List.mergeSort_perm l _

theorem filter_sortBy (l : List α) (n : Nat) :
    (sortBy k l).filter (k · = n) = l.filter (k · = n) := by
  have level : (l.filter (k · = n)).Pairwise fun a b => decide (k a ≤ k b) = true := by
    refine List.pairwise_of_forall_mem_list fun a ha b hb => ?_
    simp only [List.mem_filter, decide_eq_true_eq] at ha hb
    simp [ha.2, hb.2]
  have part : (l.filter (k · = n)).Sublist (sortBy k l) :=
    List.sublist_mergeSort (fun a b c => by simpa using Nat.le_trans)
      (fun a b => by simpa using Nat.le_total _ _) level List.filter_sublist
  have part' := part.filter (k · = n)
  rw [List.filter_filter] at part'
  simp only [Bool.and_self] at part'
  exact (part'.eq_of_length ((sortBy_perm k l).filter _).length_eq.symm).symm

variable {k} in
theorem le_of_mem {xs : List α} {x y : α} (sorted : (x :: xs).Pairwise (k · ≤ k ·))
    (h : y ∈ x :: xs) : k x ≤ k y := by
  rcases List.mem_cons.mp h with rfl | h
  · exact Nat.le_refl _
  · exact List.rel_of_pairwise_cons sorted h

variable {k} in
theorem mem_iff_of_filter {xs ys : List α}
    (same : ∀ n, xs.filter (k · = n) = ys.filter (k · = n)) (a : α) : a ∈ xs ↔ a ∈ ys := by
  have here : a ∈ xs.filter (k · = k a) ↔ a ∈ ys.filter (k · = k a) := by rw [same]
  simpa using here

-- The numbers leave nothing open but the order among equal ones.
theorem eq_of_pairwise_of_filter {xs ys : List α} (hx : xs.Pairwise (k · ≤ k ·))
    (hy : ys.Pairwise (k · ≤ k ·)) (same : ∀ n, xs.filter (k · = n) = ys.filter (k · = n)) :
    xs = ys := by
  have mem := mem_iff_of_filter same
  induction xs generalizing ys with
  | nil => exact (List.eq_nil_iff_forall_not_mem.mpr fun a ha => by simpa using (mem a).mpr ha).symm
  | cons x xs ih =>
    cases ys with
    | nil => simpa using (mem x).mp List.mem_cons_self
    | cons y ys =>
      have level : k x = k y :=
        Nat.le_antisymm (le_of_mem hx ((mem y).mpr List.mem_cons_self))
          (le_of_mem hy ((mem x).mp List.mem_cons_self))
      have first := same (k x)
      rw [List.filter_cons_of_pos (by simp), List.filter_cons_of_pos (by simp [level])] at first
      obtain ⟨rfl, others⟩ := List.cons.inj first
      have same' (n : Nat) : xs.filter (k · = n) = ys.filter (k · = n) := by
        by_cases here : k x = n
        · rwa [here] at others
        · have later := same n
          rwa [List.filter_cons_of_neg (by simpa using here),
            List.filter_cons_of_neg (by simpa using here)] at later
      rw [ih hx.of_cons hy.of_cons same' (mem_iff_of_filter same')]

theorem filter_level (p : Nat → Prop) [DecidablePred p] (l : List α) (m : Nat) :
    (l.filter fun a => p (k a)).filter (k · = m) = if p m then l.filter (k · = m) else [] := by
  rw [List.filter_filter]
  split
  · next h => exact List.filter_congr fun a _ => by grind
  · next h => exact List.filter_eq_nil_iff.mpr fun a _ => by grind

theorem sortBy_split (l : List α) (n : Nat) :
    sortBy k l =
      sortBy k (l.filter (k · < n)) ++ (l.filter (k · = n) ++ sortBy k (l.filter (n < k ·))) := by
  have low {a : α} (h : a ∈ sortBy k (l.filter (k · < n))) : k a < n := by
    simpa using (List.mem_filter.mp ((sortBy_perm k _).subset h)).2
  have high {a : α} (h : a ∈ sortBy k (l.filter (n < k ·))) : n < k a := by
    simpa using (List.mem_filter.mp ((sortBy_perm k _).subset h)).2
  have level {a : α} (h : a ∈ l.filter (k · = n)) : k a = n := by
    simpa using (List.mem_filter.mp h).2
  refine eq_of_pairwise_of_filter k (sortBy_pairwise k l) ?_ fun m => ?_
  · refine List.pairwise_append.mpr ⟨sortBy_pairwise k _, List.pairwise_append.mpr
      ⟨?_, sortBy_pairwise k _, fun a ha b hb => ?_⟩, fun a ha b hb => ?_⟩
    · refine List.pairwise_of_forall_mem_list fun a ha b hb => ?_
      exact Nat.le_of_eq ((level ha).trans (level hb).symm)
    · rw [level ha]
      exact Nat.le_of_lt (high hb)
    · rcases List.mem_append.mp hb with hb | hb
      · rw [level hb]
        exact Nat.le_of_lt (low ha)
      · exact Nat.le_of_lt (Nat.lt_trans (low ha) (high hb))
  · simp only [List.filter_append, filter_sortBy, filter_level k (· < n), filter_level k (· = n),
      filter_level k (n < ·)]
    rcases Nat.lt_trichotomy m n with h | h | h
    · simp [h, Nat.ne_of_lt h, Nat.lt_asymm h]
    · simp [h]
    · simp [h, Nat.ne_of_gt h, Nat.lt_asymm h]

-- An element stands behind those with its number that come earlier in the list. Where it stands
-- depends on its number alone.
theorem sortBy_place (xs ys : List α) (n : Nat) :
    ∃ front back, sortBy k (xs ++ ys) = front ++ back ∧
      (∀ x, k x = n → sortBy k (xs ++ x :: ys) = front ++ x :: back) ∧
      (∀ x ∈ front, k x = n → x ∈ xs) ∧ ((∀ x ∈ xs ++ ys, k x < n) → back = []) := by
  refine ⟨sortBy k ((xs ++ ys).filter (k · < n)) ++ xs.filter (k · = n),
    ys.filter (k · = n) ++ sortBy k ((xs ++ ys).filter (n < k ·)), ?_, fun x hx => ?_,
    fun x hx here => ?_, fun low => ?_⟩
  · rw [sortBy_split k (xs ++ ys) n, List.filter_append (p := (k · = n))]
    simp only [List.append_assoc]
  · rw [sortBy_split k (xs ++ x :: ys) n]
    simp [List.filter_append, hx]
  · rcases List.mem_append.mp hx with hx | hx
    · have low := (List.mem_filter.mp ((sortBy_perm k _).subset hx)).2
      simp [here] at low
    · exact (List.mem_filter.mp hx).1
  · have level : ys.filter (k · = n) = [] := by
      refine List.filter_eq_nil_iff.mpr fun y hy => ?_
      have := low y (List.mem_append_right xs hy)
      simp only [decide_eq_true_eq]
      omega
    have high : (xs ++ ys).filter (n < k ·) = [] := by
      refine List.filter_eq_nil_iff.mpr fun y hy => ?_
      have := low y hy
      simp only [decide_eq_true_eq]
      omega
    rw [level, high]
    simp [sortBy]

end

namespace Query

variable {q q' : Query} {key : FieldKey} {c d : Column}

-- The sorted columns as they stand in the query.
def sortings (cs : List Column) : List (Column × Sorting) := cs.filterMap fun c => c.sort.map (c, ·)

def place (x : Column × Sorting) : Nat := x.2.order.toNat

theorem sortedColumns_eq (q : Query) : q.sortedColumns = sortBy place (sortings q.columns) := by
  unfold sortedColumns sortBy
  congr 1

theorem mem_sortings {cs : List Column} {x : Column × Sorting} :
    x ∈ sortings cs ↔ x.1 ∈ cs ∧ x.1.sort = some x.2 := by
  obtain ⟨c, s⟩ := x
  simp [sortings]

theorem sortings_of_unsorted (h : c.sort = none) (before after : List Column) :
    sortings (before ++ c :: after) = sortings before ++ sortings after := by
  rw [sortings, List.filterMap_append, List.filterMap_cons_none (by rw [h]; rfl)]
  rfl

theorem sortings_of_sorted {r : Sorting} (h : c.sort = some r) (before after : List Column) :
    sortings (before ++ c :: after) = sortings before ++ (c, r) :: sortings after := by
  rw [sortings, List.filterMap_append, List.filterMap_cons_some (by rw [h]; rfl)]
  rfl

theorem lawfulMax_uint64 : Std.LawfulOrderLeftLeaningMax UInt64 where
  max_eq_left a b h := by
    show (if a ≤ b then b else a) = a
    split
    · next h' => exact UInt64.le_antisymm h h'
    · rfl
  max_eq_right a b h := if_pos ((UInt64.le_total a b).resolve_right h)

theorem lt_nextSortOrder (room : ∀ c ∈ q.columns, ∀ s ∈ c.sort, s.order.toNat + 2 < UInt64.size)
    {x : Column × Sorting} (hx : x ∈ sortings q.columns) : place x < q.nextSortOrder.toNat := by
  obtain ⟨mem, sorted⟩ := mem_sortings.mp hx
  have listed : x.2.order ∈ q.columns.filterMap fun c => c.sort.map (·.order) :=
    List.mem_filterMap.mpr ⟨x.1, mem, by rw [sorted]; rfl⟩
  unfold nextSortOrder
  split
  · next none =>
    rw [List.max?_eq_none_iff.mp none] at listed
    cases listed
  · next n most =>
    have := lawfulMax_uint64
    obtain ⟨known, greatest⟩ := List.max?_eq_some_iff.mp most
    obtain ⟨b, hb, same⟩ := List.mem_filterMap.mp known
    obtain ⟨t, ht, rfl⟩ := Option.map_eq_some_iff.mp same
    have below : place x ≤ t.order.toNat := UInt64.le_iff_toNat_le.mp (greatest _ listed)
    have small := room b hb t ht
    rw [UInt64.toNat_add, Nat.mod_eq_of_lt]
    · exact Nat.lt_succ_of_le below
    · exact Nat.lt_trans (Nat.lt_succ_self _) small

/-- What comes of the sequence when `d` takes the place of `c`. A column that was not sorted goes to
the end, one that stays sorted keeps its place, and one that no longer is leaves it. -/
def Resequenced (c d : Column) (q q' : Query) : Prop :=
  match c.sort, d.sort with
  | none, none => q'.sortedColumns = q.sortedColumns
  | none, some s => q'.sortedColumns = q.sortedColumns ++ [(d, s)]
  | some r, none =>
    ∃ before after, (c, r) ∉ before ∧ q.sortedColumns = before ++ (c, r) :: after ∧
      q'.sortedColumns = before ++ after
  | some r, some s =>
    s.order = r.order ∧ ∃ before after, (c, r) ∉ before ∧
      q.sortedColumns = before ++ (c, r) :: after ∧ q'.sortedColumns = before ++ (d, s) :: after

theorem resequenced (exchanged : Exchanged key c d q q')
    (last : ∀ s ∈ d.sort, c.sort = none → ∀ x ∈ sortings q.columns, place x < s.order.toNat)
    (kept : ∀ s ∈ d.sort, ∀ r ∈ c.sort, s.order = r.order) : Resequenced c d q q' := by
  obtain ⟨before, after, fresh, split, split'⟩ := exchanged.columns
  unfold Resequenced
  simp only [sortedColumns_eq, split, split']
  cases hc : c.sort with
  | none =>
    have here := sortings_of_unsorted hc before after
    cases hd : d.sort with
    | none =>
      have there := sortings_of_unsorted hd before after
      simp only [here, there]
    | some s =>
      have there := sortings_of_sorted hd before after
      obtain ⟨front, back, old, new, -, behind⟩ :=
        sortBy_place place (sortings before) (sortings after) s.order.toNat
      have nothing : back = [] := behind (here ▸ split ▸ last s hd hc)
      simp only [here, there, old, new (d, s) rfl, nothing, List.append_nil]
  | some r =>
    have here := sortings_of_sorted hc before after
    obtain ⟨front, back, old, new, earlier, -⟩ :=
      sortBy_place place (sortings before) (sortings after) r.order.toNat
    have absent : (c, r) ∉ front := by
      intro present
      exact fresh c (mem_sortings.mp (earlier _ present rfl)).1 exchanged.keys.1
    cases hd : d.sort with
    | none =>
      have there := sortings_of_unsorted hd before after
      simp only [here, there]
      exact ⟨front, back, absent, new (c, r) rfl, old⟩
    | some s =>
      have there := sortings_of_sorted hd before after
      have same : s.order = r.order := kept s hd r hc
      simp only [here, there]
      exact ⟨same, front, back, absent, new (c, r) rfl, new (d, s) (by rw [place, same])⟩

theorem run_setSort (found : q.column? key = some c) (direction : Option SortDirection) :
    (setSort key direction).run q =
      .ok () (q.replace
        { c with sort := direction.map (⟨·, (c.sort.map (·.order)).getD q.nextSortOrder⟩) }) := by
  simp only [setSort, EStateM.run_bind, EStateM.run_get, run_column_some found]
  rfl

theorem run_toggleSort (found : q.column? key = some c) {direction : Option SortDirection}
    (turned : nextDirection (c.sort.map (·.direction)) = direction)
    (sorted : (setSort key direction).run q = .ok () q') :
    (toggleSort key).run q = .ok direction q' := by
  subst turned
  simp only [toggleSort, EStateM.run_bind, run_column_some found, sorted]
  rfl

/-- `c`, the first column with the key, sorts in the direction in `q'`, or not at all. No other
column differs, and the sequence follows. -/
def Resorted (key : FieldKey) (c : Column) (direction : Option SortDirection) (q q' : Query) :
    Prop :=
  ∃ d, d = { c with sort := d.sort } ∧ d.sort.map (·.direction) = direction ∧
    Exchanged key c d q q' ∧ Resequenced c d q q'

theorem setSort_resorted (room : ∀ c ∈ q.columns, ∀ s ∈ c.sort, s.order.toNat + 2 < UInt64.size)
    (found : q.column? key = some c) (direction : Option SortDirection) :
    ∃ q', (setSort key direction).run q = .ok () q' ∧ Resorted key c direction q q' := by
  have exchanged := exchanged_replace found (d := { c with
    sort := direction.map (⟨·, (c.sort.map (·.order)).getD q.nextSortOrder⟩) })
    (column?_eq_some found).2
  refine ⟨_, run_setSort found direction, _, rfl, ?_, exchanged, resequenced exchanged ?_ ?_⟩
  · cases direction <;> rfl
  · intro s hs unsorted x hx
    obtain ⟨_, -, rfl⟩ := Option.map_eq_some_iff.mp hs
    rw [unsorted]
    exact lt_nextSortOrder room hx
  · intro s hs r hr
    obtain ⟨_, -, rfl⟩ := Option.map_eq_some_iff.mp hs
    rw [Option.mem_def.mp hr]
    rfl

theorem toggleSort_of_split (before after : List Column) (options : Options Query)
    (fresh : ∀ x ∈ before, x.key ≠ key) (here : c.key = key)
    (direction : Option SortDirection)
    (turned : nextDirection (c.sort.map (·.direction)) = direction) :
    ∃ n, (toggleSort key).run ⟨before ++ c :: after, options⟩ =
      .ok direction ⟨before ++ { c with sort := direction.map (⟨·, n⟩) } :: after, options⟩ := by
  have found : (⟨before ++ c :: after, options⟩ : Query).column? key = some c :=
    List.find?_eq_some_iff_append.mpr
      ⟨decide_eq_true here, before, after, rfl, by simpa using fresh⟩
  have sorted := run_setSort found direction
  rw [replace_of_split before after options fresh here] at sorted
  · exact ⟨_, run_toggleSort found turned sorted⟩
  · exact here

theorem toggleSort_thrice (found : q.column? key = some c) (unsorted : c.sort = none) :
    ∃ q₁ q₂, (toggleSort key).run q = .ok (some .asc) q₁ ∧
      (toggleSort key).run q₁ = .ok (some .desc) q₂ ∧ (toggleSort key).run q₂ = .ok none q := by
  obtain ⟨here, before, after, fresh, split⟩ := exists_split_of_column? found
  obtain ⟨columns, options⟩ := q
  cases split
  have turn (d : Column) (same : d.key = key) := toggleSort_of_split before after options fresh same
  obtain ⟨n, first⟩ := turn c here (some .asc) (by rw [unsorted]; rfl)
  obtain ⟨m, second⟩ := turn { c with sort := some ⟨.asc, n⟩ } here (some .desc) rfl
  obtain ⟨k, third⟩ := turn { c with sort := some ⟨.desc, m⟩ } here none rfl
  have back : { c with sort := none } = c := by
    cases c
    cases unsorted
    rfl
  refine ⟨_, _, first, second, third.trans ?_⟩
  show EStateM.Result.ok none (⟨before ++ { c with sort := none } :: after, options⟩ : Query) = _
  rw [back]
  rfl

theorem sortedColumns_edits (q : Query)
    (room : ∀ c ∈ q.columns, ∀ s ∈ c.sort, s.order.toNat + 2 < UInt64.size) :
    (q.sortedColumns.Perm (sortings q.columns) ∧
        q.sortedColumns.Pairwise (·.2.order ≤ ·.2.order) ∧
        ∀ n, q.sortedColumns.filter (·.2.order = n) = (sortings q.columns).filter (·.2.order = n)) ∧
      ∀ key c, q.column? key = some c →
        (∀ direction, ∃ q',
          (setSort key direction).run q = .ok () q' ∧ Resorted key c direction q q') ∧
        (∃ direction q', (toggleSort key).run q = .ok direction q' ∧
          direction = nextDirection (c.sort.map (·.direction)) ∧ Resorted key c direction q q') ∧
        (c.sort = none → ∃ q₁ q₂, (toggleSort key).run q = .ok (some .asc) q₁ ∧
          (toggleSort key).run q₁ = .ok (some .desc) q₂ ∧
          (toggleSort key).run q₂ = .ok none q) := by
  refine ⟨⟨?_, ?_, fun n => ?_⟩, fun key c found => ⟨setSort_resorted room found, ?_,
    toggleSort_thrice found⟩⟩
  · exact sortedColumns_eq q ▸ sortBy_perm place _
  · exact sortedColumns_eq q ▸ (sortBy_pairwise place _).imp UInt64.le_iff_toNat_le.mpr
  · have level := filter_sortBy place (sortings q.columns) n.toNat
    simpa [sortedColumns_eq, place, UInt64.toNat_inj] using level
  · obtain ⟨q', done, resorted⟩ := setSort_resorted room found
      (nextDirection (c.sort.map (·.direction)))
    exact ⟨_, q', run_toggleSort found rfl done, rfl, resorted⟩

-- Numbers with a gap and one that two columns have.
def ranked : Query where
  columns :=
    [{ Column.ofKey ⟨"t", "a"⟩ with sort := some ⟨.desc, 7⟩ }, .ofKey ⟨"t", "b"⟩,
      { Column.ofKey ⟨"t", "c"⟩ with sort := some ⟨.asc, 3⟩ },
      { Column.ofKey ⟨"t", "d"⟩ with sort := some ⟨.asc, 7⟩ }]
  options := .default

theorem setSort_ranked :
    (∀ c ∈ ranked.columns, ∀ s ∈ c.sort, s.order.toNat + 2 < UInt64.size) ∧
      ranked.sortedColumns.map (·.1.key.field) = ["c", "a", "d"] ∧
      ∃ q', (setSort ⟨"t", "b"⟩ (some .asc)).run ranked = .ok () q' ∧
        Resorted ⟨"t", "b"⟩ (.ofKey ⟨"t", "b"⟩) (some .asc) ranked q' :=
  ⟨by decide, by simp [ranked, sortedColumns, Column.ofKey, List.mergeSort],
    ((sortedColumns_edits ranked (by decide)).2 ⟨"t", "b"⟩ _ rfl).1 (some .asc)⟩

end Query

end QueryBuilder
