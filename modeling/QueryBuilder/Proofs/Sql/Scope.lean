import QueryBuilder.Sql.Compile
import QueryBuilder.Proofs.Join.Order
import QueryBuilder.Proofs.Sql.Parts

set_option autoImplicit false

namespace QueryBuilder

-- A window that sorts without being shown: its keys are no part of what the query refers to.
def Query.hiddenSortWindows (q : Query) : List Window :=
  if q.needsGrouping then
    (q.columns.filter fun c => !c.selected && c.sort.isSome).filterMap (·.window?)
  else []

namespace Sql

def InScope (clauses : List Clause) : Prop :=
  ∀ c ∈ clauses, ∀ k ∈ c.keys, k.entity ∈ clauses.flatMap Clause.sources

variable {s : Schema} {d : Dialect} {q : Query}

theorem mem_nonempty {α : Type} {f : List α → Clause} {xs : List α} {c : Clause} :
    c ∈ nonempty f xs ↔ xs ≠ [] ∧ c = f xs := by
  cases xs <;> simp [nonempty]

theorem keys_operand {c : Column} {k : FieldKey} (h : k ∈ (Operand.ofColumn c).keys) :
    k = c.key := by
  unfold Operand.ofColumn at h
  split at h
  · cases h
  · exact List.mem_singleton.mp h

theorem keys_term {c : Column} {k : FieldKey} (h : k ∈ (Term.ofColumn c).keys) :
    k = c.key ∨ ∃ w, c.window? = some w ∧ k ∈ Query.windowKeys w := by
  cases ha : c.aggregation with
  | none | accumulator a =>
    simp only [Term.ofColumn, ha, Term.keys] at h
    exact .inl (keys_operand h)
  | window w =>
    simp only [Term.ofColumn, ha, Term.keys] at h
    rcases List.mem_append.mp h with h | h
    · split at h
      · exact .inl (keys_operand h)
      · cases h
    · exact .inr ⟨w, by simp [Column.window?, ha], h⟩

theorem keys_condition {t : Term} {p : Predicate} {type : Option SemanticType} {c : Condition}
    {k : FieldKey} (made : Condition.ofPredicate? t p type = some c) (h : k ∈ c.keys) :
    k ∈ t.keys := by
  unfold Condition.ofPredicate? at made
  split at made
  · cases made
    cases hop : p.operator <;> simp only [hop] at h
    case «exists» =>
      split at h
      · exact h
      · cases h
    all_goals exact h
  · cases made

theorem key_mem_keys {c : Column} (h : c ∈ q.columns) : c.key ∈ q.keys :=
  List.mem_append_left _ (List.mem_map_of_mem h)

theorem term_mem_keys {c : Column} {k : FieldKey} (hc : c ∈ q.columns) (shown : c.selected = true)
    (h : k ∈ (Term.ofColumn c).keys) : k ∈ q.keys := by
  rcases keys_term h with rfl | ⟨w, hw, hk⟩
  · exact key_mem_keys hc
  · refine List.mem_append_right _ (List.mem_flatMap.mpr ⟨w, ?_, hk⟩)
    exact List.mem_filterMap.mpr ⟨c, List.mem_filter.mpr ⟨hc, shown⟩, hw⟩

theorem keys_items {k : FieldKey} (h : k ∈ (items q).flatMap (·.term.keys)) : k ∈ q.keys := by
  obtain ⟨i, hi, hk⟩ := List.mem_flatMap.mp h
  obtain ⟨c, hc, rfl⟩ := List.mem_map.mp hi
  obtain ⟨hc, shown⟩ := List.mem_filter.mp hc
  exact term_mem_keys hc shown hk

theorem keys_filters {k : FieldKey} (h : k ∈ (filters s q).flatMap Condition.keys) :
    k ∈ q.keys := by
  have own : ∀ c ∈ q.columns.filterMap (columnFilter? s), k ∈ c.keys → k ∈ q.keys := by
    intro c hc hk
    obtain ⟨column, mem, made⟩ := List.mem_filterMap.mp hc
    obtain ⟨p, -, made⟩ := Option.bind_eq_some_iff.mp made
    rw [keys_operand (keys_condition made hk)]
    exact key_mem_keys mem
  obtain ⟨c, hc, hk⟩ := List.mem_flatMap.mp h
  unfold filters withCustom at hc
  split at hc
  · exact own c hc hk
  · split at hc
    · rw [List.mem_singleton.mp hc] at hk
      cases hk
    · rcases List.mem_append.mp hc with hc | hc
      · exact own c hc hk
      · rw [List.mem_singleton.mp hc] at hk
        cases hk

theorem keys_havings {k : FieldKey} (h : k ∈ (havings s q).flatMap Condition.keys) :
    k ∈ q.keys := by
  obtain ⟨c, hc, hk⟩ := List.mem_flatMap.mp h
  obtain ⟨column, mem, made⟩ := List.mem_filterMap.mp hc
  unfold columnHaving? at made
  split at made
  · obtain ⟨a, -, made⟩ := Option.bind_eq_some_iff.mp made
    obtain ⟨p, -, made⟩ := Option.bind_eq_some_iff.mp made
    have hk : k ∈ (Operand.ofColumn column).keys := keys_condition made hk
    rw [keys_operand hk]
    exact key_mem_keys mem
  · cases made

theorem keys_groupKeys {k : FieldKey} (h : k ∈ q.groupKeys.map (·.key)) : k ∈ q.keys := by
  obtain ⟨c, hc, rfl⟩ := List.mem_map.mp h
  unfold Query.groupKeys at hc
  split at hc
  · exact key_mem_keys (List.mem_filter.mp (List.mem_filter.mp hc).1).1
  · cases hc

theorem mem_sortedColumns {c : Column} {sorting : Sorting} :
    (c, sorting) ∈ q.sortedColumns ↔ c ∈ q.columns ∧ c.sort = some sorting := by
  simp only [Query.sortedColumns, List.mem_mergeSort, List.mem_filterMap, Option.map_eq_some_iff]
  constructor
  · rintro ⟨c', hc, s', hs, h⟩
    cases h
    exact ⟨hc, hs⟩
  · rintro ⟨hc, hs⟩
    exact ⟨c, hc, sorting, hs, rfl⟩

theorem mem_hiddenSortWindows {w : Window} :
    w ∈ q.hiddenSortWindows ↔ q.needsGrouping = true ∧
      ∃ c ∈ q.columns, c.selected = false ∧ c.sort.isSome = true ∧ c.window? = some w := by
  unfold Query.hiddenSortWindows
  split
  · next grouped => simp [List.mem_filterMap, List.mem_filter, and_assoc, grouped]
  · next grouped => simp [grouped]

theorem keys_sortTarget {c : Column} {k : FieldKey} (hc : c ∈ q.columns)
    (sorted : c.sort.isSome = true) (h : k ∈ (sortTarget q.needsGrouping c).keys) :
    k ∈ q.keys ∨ ∃ w ∈ q.hiddenSortWindows, k ∈ Query.windowKeys w := by
  unfold sortTarget at h
  split at h
  · cases h
  · next shown _ => exact .inl (term_mem_keys hc shown h)
  · next hidden =>
    simp only [SortTarget.keys] at h
    split at h
    · next grouped =>
      rcases keys_term h with rfl | ⟨w, hw, hk⟩
      · exact .inl (key_mem_keys hc)
      · exact .inr ⟨w, mem_hiddenSortWindows.mpr ⟨grouped, c, hc, hidden, sorted, hw⟩, hk⟩
    · rw [keys_operand h]
      exact .inl (key_mem_keys hc)

theorem windowKeys_sortTarget {c : Column} {w : Window} {k : FieldKey}
    (grouped : q.needsGrouping = true) (hidden : c.selected = false) (hw : c.window? = some w)
    (hk : k ∈ Query.windowKeys w) : k ∈ (sortTarget q.needsGrouping c).keys := by
  have ha : c.aggregation = .window w := by
    unfold Column.window? at hw
    split at hw
    · next ha => cases hw; exact ha
    · cases hw
  simp [sortTarget, hidden, grouped, SortTarget.keys, Term.ofColumn, ha, Term.keys, hk]

theorem sources_joins (type : JoinType) (joins : List Join) :
    (joins.map (joinClause type)).flatMap Clause.sources = joins.map Join.entity := by
  induction joins with
  | nil => rfl
  | cons j joins ih => cases j <;> simp [joinClause, Clause.sources, Join.entity, ih]

theorem sources_nonempty {α : Type} (f : List α → Clause) (xs : List α)
    (none : (f xs).sources = []) : (nonempty f xs).flatMap Clause.sources = [] := by
  cases xs with
  | nil => rfl
  | cons x xs => simpa [nonempty] using none

theorem sources_grouping (q : Query) : (grouping q).flatMap Clause.sources = [] := by
  unfold grouping
  split
  · rfl
  · exact sources_nonempty _ _ rfl

theorem mem_paging {c : Clause} (h : c ∈ paging d q) : ∃ n, c = .limit n ∨ c = .offset n := by
  unfold paging limiting at h
  rcases List.mem_append.mp h with h | h
  · split at h
    · exact ⟨_, .inl (List.mem_singleton.mp h)⟩
    · split at h
      · exact ⟨_, .inl (List.mem_singleton.mp h)⟩
      · cases h
    · cases h
  · obtain ⟨n, -, rfl⟩ := Option.map_eq_some_iff.mp (Option.mem_toList.mp h)
    exact ⟨n, .inr rfl⟩

theorem sources_paging (d : Dialect) (q : Query) : (paging d q).flatMap Clause.sources = [] := by
  apply List.flatMap_eq_nil_iff.mpr
  intro c hc
  obtain ⟨n, rfl | rfl⟩ := mem_paging hc <;> rfl

theorem keys_paging {c : Clause} (h : c ∈ paging d q) : c.keys = [] := by
  obtain ⟨n, rfl | rfl⟩ := mem_paging h <;> rfl

theorem keys_grouping {c : Clause} {k : FieldKey} (h : c ∈ grouping q) (hk : k ∈ c.keys) :
    k ∈ q.keys := by
  unfold grouping at h
  split at h
  · rw [List.mem_singleton.mp h] at hk
    cases hk
  · obtain ⟨-, rfl⟩ := mem_nonempty.mp h
    exact keys_groupKeys hk

theorem keys_ordering {c : Clause} {k : FieldKey} (h : c ∈ ordering q) (hk : k ∈ c.keys) :
    k ∈ q.keys ∨ ∃ w ∈ q.hiddenSortWindows, k ∈ Query.windowKeys w := by
  obtain ⟨-, rfl⟩ := mem_nonempty.mp h
  obtain ⟨t, ht, hk⟩ := List.mem_flatMap.mp hk
  obtain ⟨⟨column, sorting⟩, mem, rfl⟩ := List.mem_map.mp ht
  obtain ⟨hc, hs⟩ := mem_sortedColumns.mp mem
  exact keys_sortTarget hc (by simp [hs]) hk

theorem windowKeys_ordering {w : Window} {k : FieldKey} (hw : w ∈ q.hiddenSortWindows)
    (hk : k ∈ Query.windowKeys w) : ∃ c ∈ ordering q, k ∈ c.keys := by
  obtain ⟨grouped, c, hc, hidden, sorted, window⟩ := mem_hiddenSortWindows.mp hw
  obtain ⟨sorting, hs⟩ := Option.isSome_iff_exists.mp sorted
  have mem := mem_sortedColumns.mpr ⟨hc, hs⟩
  refine ⟨_, mem_nonempty.mpr ⟨?_, rfl⟩, ?_⟩
  · exact List.ne_nil_of_mem (List.mem_map_of_mem mem)
  · refine List.mem_flatMap.mpr ⟨_, List.mem_map_of_mem mem, ?_⟩
    exact windowKeys_sortTarget grouped hidden window hk

theorem keys_joinClause {rs : List Relationship} {referenced : List String} {type : JoinType}
    {j : Join} {k : FieldKey}
    (h : j ∈ ((JoinGraph.ofRelationships rs).plan referenced).joins)
    (hk : k ∈ (joinClause type j).keys) :
    k.entity ∈ ((JoinGraph.ofRelationships rs).plan referenced).entities := by
  cases j with
  | cross e => cases hk
  | on step =>
    obtain ⟨before, after, split⟩ := List.append_of_mem h
    obtain ⟨-, leaves, -⟩ := (JoinGraph.plan_inOrder _ referenced).on_of_append split
    simp only [joinClause, Clause.keys, List.mem_cons, List.not_mem_nil, or_false] at hk
    rcases hk with rfl | rfl
    · rw [JoinPlan.entities, split, List.map_append, ← List.append_assoc]
      exact List.mem_append_left _ leaves
    · exact List.mem_append_right _ (List.mem_map.mpr ⟨_, h, rfl⟩)

def scope (s : Schema) (q : Query) : List String :=
  ((JoinGraph.ofSchema s).plan q.referencedEntities).entities

theorem entity_mem_scope {k : FieldKey} (h : k ∈ q.keys) : k.entity ∈ scope s q := by
  apply JoinGraph.mem_plan
  rw [Query.referencedEntities, List.mem_eraseDups]
  exact List.mem_map_of_mem h

theorem clauses_eq {clauses : List Clause} (h : clauses? s d q = some clauses) :
    ∃ root, ((JoinGraph.ofSchema s).plan q.referencedEntities).root = some root ∧
      clauses = [Clause.select q.options.distinct (items q), .source root] ++
        ((JoinGraph.ofSchema s).plan q.referencedEntities).joins.map
          (joinClause q.options.joinType) ++
        nonempty Clause.filter (filters s q) ++ grouping q ++
        nonempty Clause.having (havings s q) ++ ordering q ++ paging d q := by
  unfold clauses? at h
  split at h
  · cases h
  · obtain ⟨root, hr, rfl⟩ := Option.map_eq_some_iff.mp h
    exact ⟨root, hr, rfl⟩

theorem sources_clauses {clauses : List Clause} (h : clauses? s d q = some clauses) :
    clauses.flatMap Clause.sources = scope s q := by
  obtain ⟨root, hr, rfl⟩ := clauses_eq h
  have filter := sources_nonempty Clause.filter (filters s q) rfl
  have having' := sources_nonempty Clause.having (havings s q) rfl
  have order : (ordering q).flatMap Clause.sources = [] := sources_nonempty Clause.orderBy _ rfl
  simp only [List.flatMap_append, sources_joins, filter, having', order, sources_grouping,
    sources_paging, List.append_nil]
  rw [scope, JoinPlan.entities, hr]
  rfl

theorem keys_clauses {clauses : List Clause} (h : clauses? s d q = some clauses) {c : Clause}
    (hc : c ∈ clauses) {k : FieldKey} (hk : k ∈ c.keys) :
    k.entity ∈ scope s q ∨ ∃ w ∈ q.hiddenSortWindows, k ∈ Query.windowKeys w := by
  obtain ⟨root, -, rfl⟩ := clauses_eq h
  simp only [List.mem_append, List.mem_cons, List.not_mem_nil, or_false] at hc
  rcases hc with (((((hc | hc) | hc) | hc) | hc) | hc) | hc
  · rcases hc with rfl | rfl
    · exact .inl (entity_mem_scope (keys_items hk))
    · cases hk
  · obtain ⟨j, hj, rfl⟩ := List.mem_map.mp hc
    exact .inl (keys_joinClause hj hk)
  · obtain ⟨-, rfl⟩ := mem_nonempty.mp hc
    exact .inl (entity_mem_scope (keys_filters hk))
  · exact .inl (entity_mem_scope (keys_grouping hc hk))
  · obtain ⟨-, rfl⟩ := mem_nonempty.mp hc
    exact .inl (entity_mem_scope (keys_havings hk))
  · exact (keys_ordering hc hk).imp_left entity_mem_scope
  · rw [keys_paging hc] at hk
    cases hk

theorem ordering_subset {clauses : List Clause} (h : clauses? s d q = some clauses) {c : Clause}
    (hc : c ∈ ordering q) : c ∈ clauses := by
  obtain ⟨root, -, rfl⟩ := clauses_eq h
  simp [hc]

theorem clauses_inScope_iff {clauses : List Clause} (h : clauses? s d q = some clauses) :
    InScope clauses ↔
      ∀ w ∈ q.hiddenSortWindows, ∀ k ∈ Query.windowKeys w, k.entity ∈ scope s q := by
  unfold InScope
  rw [sources_clauses h]
  constructor
  · intro inScope w hw k hk
    obtain ⟨c, hc, hk⟩ := windowKeys_ordering hw hk
    exact inScope c (ordering_subset h hc) k hk
  · intro hidden c hc k hk
    rcases keys_clauses h hc hk with here | ⟨w, hw, hk⟩
    · exact here
    · exact hidden w hw k hk

theorem mem_operands {sets : List (SetOperation Query)} {o : SetOperator × Bool × Statement}
    (h : o ∈ operands s d sets) :
    ∃ set ∈ sets, statement? s d set.query = some o.2.2 := by
  induction sets with
  | nil => simp [operands] at h
  | cons set sets ih =>
    cases hs : statement? s d set.query with
    | none =>
      simp only [operands, hs] at h
      obtain ⟨set', mem, same⟩ := ih h
      exact ⟨set', List.mem_cons_of_mem _ mem, same⟩
    | some st =>
      simp only [operands, hs] at h
      rcases List.mem_cons.mp h with rfl | h
      · exact ⟨set, List.mem_cons_self, hs⟩
      · obtain ⟨set', mem, same⟩ := ih h
        exact ⟨set', List.mem_cons_of_mem _ mem, same⟩

theorem statement_eq {st : Statement} (h : statement? s d q = some st) :
    clauses? s d q = some st.clauses ∧ st.operands = operands s d q.options.setOperations := by
  obtain ⟨columns, options⟩ := q
  simp only [statement?] at h
  obtain ⟨clauses, made, rfl⟩ := Option.map_eq_some_iff.mp h
  exact ⟨made, rfl⟩

theorem statement_of_clauses {clauses : List Clause} (h : clauses? s d q = some clauses) :
    statement? s d q = some ⟨clauses, operands s d q.options.setOperations⟩ := by
  obtain ⟨columns, options⟩ := q
  simp only [statement?, h]
  rfl

theorem exists_statement (shown : q.isEmpty = false) (refers : q.referencedEntities ≠ []) :
    ∃ st, statement? s d q = some st := by
  obtain ⟨root, others, h⟩ := List.exists_cons_of_ne_nil refers
  have rooted : ((JoinGraph.ofSchema s).plan q.referencedEntities).root = some root := by
    rw [JoinGraph.plan_root, h, List.head?_cons]
  have made : (clauses? s d q).isSome = true := by
    simp [clauses?, shown, rooted]
  obtain ⟨clauses, hc⟩ := Option.isSome_iff_exists.mp made
  exact ⟨_, statement_of_clauses hc⟩

theorem compile_of_statement {st : Statement} (h : statement? s d q = some st) (pretty : Bool) :
    compile s ⟨d, pretty⟩ q = st.text d pretty := by
  rw [compile, h]

theorem clauses_alone {entity : String} (shown : q.isEmpty = false)
    (alone : q.referencedEntities = [entity]) (unsorted : ∀ c ∈ q.columns, c.sort = none) :
    clauses? s d q =
      some ([.select q.options.distinct (items q), .source entity] ++
        nonempty .filter (filters s q) ++ grouping q ++ nonempty .having (havings s q) ++
        paging d q) := by
  have sorted : q.sortedColumns = [] := by
    have none : q.columns.filterMap (fun c => c.sort.map (c, ·)) = [] :=
      List.filterMap_eq_nil_iff.mpr fun c mem => by rw [unsorted c mem, Option.map_none]
    rw [Query.sortedColumns, none, List.mergeSort_nil]
  rw [clauses?, shown, alone, JoinGraph.plan_singleton, ordering, sorted]
  simp [nonempty]

-- Each operand of a set operation is a statement of its own, to which the same condition applies.
theorem statement_inScope_iff {st : Statement} (h : statement? s d q = some st) :
    (InScope st.clauses ↔
      ∀ w ∈ q.hiddenSortWindows, ∀ k ∈ Query.windowKeys w,
        k.entity ∈ ((JoinGraph.ofSchema s).plan q.referencedEntities).entities) ∧
      (∀ o ∈ st.operands, ∃ set ∈ q.options.setOperations,
        statement? s d set.query = some o.2.2) ∧
      (∀ pretty, compile s ⟨d, pretty⟩ q =
        (if pretty then "\n" else " ").intercalate (st.flatten.map (·.text d))) ∧
      ∀ c ∈ st.flatten, c.text d = Part.join d (c.parts d) ∧
        (c.parts d).filterMap Part.field? = c.keys ∧
        (c.parts d).filterMap Part.entity? = c.sources := by
  obtain ⟨clauses, operands⟩ := statement_eq h
  refine ⟨clauses_inScope_iff clauses, ?_, compile_of_statement h, fun c _ => ?_⟩
  · rw [operands]
    exact fun o ho => mem_operands ho
  · exact ⟨c.join_parts.symm, c.fields_parts, c.entities_parts⟩

def staff : Schema :=
  { entities := []
    relationships := [⟨"employees", "department_id", "departments", "id"⟩] }

def byDepartment : Window := ⟨.rank, [⟨"departments", "name"⟩], [], none⟩

def salary (shown : Bool) : Column :=
  { Column.ofKey ⟨"employees", "salary"⟩ with
    selected := shown
    aggregation := .window byDepartment
    sort := some ⟨.asc, 1⟩ }

def ranking (shown : Bool) : Query :=
  { columns := [.ofKey ⟨"employees", "name"⟩, salary shown]
    options := { Query.empty.options with groupByAll := true } }

theorem shown_ranking_inScope :
    ∃ st, statement? staff .generic (ranking true) = some st ∧ InScope st.clauses := by
  obtain ⟨st, h⟩ : ∃ st, statement? staff .generic (ranking true) = some st :=
    exists_statement (by decide) (by decide)
  refine ⟨st, h, (statement_inScope_iff h).1.mpr ?_⟩
  intro w hw
  obtain ⟨-, c, hc, hidden, -⟩ := mem_hiddenSortWindows.mp hw
  simp only [ranking, List.mem_cons, List.not_mem_nil, or_false] at hc
  rcases hc with rfl | rfl <;> cases hidden

theorem hidden_ranking_not_inScope :
    ((ranking false).columns.map (·.key)).Nodup ∧
      compile staff .default (ranking false) =
        "SELECT employees.name FROM employees GROUP BY ALL " ++
          "ORDER BY RANK() OVER (PARTITION BY departments.name) ASC" ∧
      ∃ st, statement? staff .generic (ranking false) = some st ∧ ¬InScope st.clauses := by
  have alone : (JoinGraph.ofSchema staff).plan (ranking false).referencedEntities =
      ⟨some "employees", [], [], []⟩ :=
    JoinGraph.plan_singleton _ "employees"
  have sorted : (ranking false).sortedColumns = [(salary false, ⟨.asc, 1⟩)] :=
    List.mergeSort_singleton _
  have made : clauses? staff .generic (ranking false) =
      some [.select false [⟨.operand (.field ⟨"employees", "name"⟩), none⟩], .source "employees",
        .groupByAll,
        .orderBy [(.term (.window byDepartment (.field ⟨"employees", "salary"⟩)), .asc)]] := by
    rw [clauses?, alone, ordering, sorted]
    rfl
  have built := statement_of_clauses made
  refine ⟨by decide, ?_, _, built, ?_⟩
  · have text : compile staff .default (ranking false) = Statement.text .generic false _ :=
      congrArg (fun st => st.elim placeholder (Statement.text .generic false)) built
    rw [text]
    decide +kernel
  · intro inScope
    have window : byDepartment ∈ (ranking false).hiddenSortWindows := by decide
    have member := (clauses_inScope_iff made).mp inScope byDepartment window
      ⟨"departments", "name"⟩ List.mem_cons_self
    rw [scope, alone] at member
    simp [JoinPlan.entities] at member

end Sql

end QueryBuilder
