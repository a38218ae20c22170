import QueryBuilder.Pipeline.Shell
import QueryBuilder.Proofs.Agreement.Filters

set_option autoImplicit false

namespace QueryBuilder

namespace Column

-- A filter on a result counts only if the column has the result and shows it.
def withoutStaleHaving (c : Column) : Column :=
  if c.selected && c.accumulator?.isSome then c else { c with having := none }

def withoutHiddenAggregation (c : Column) : Column :=
  if c.selected then c else { c with aggregation := .none }

-- What a change to columns may not touch. In a query that groups an aggregation that is not shown
-- can still sort.
structure Keeps (grouping : Bool) (f : Column → Column) : Prop where
  key : ∀ c, (f c).key = c.key
  selected : ∀ c, (f c).selected = c.selected
  sort : ∀ c, (f c).sort = c.sort
  filter : ∀ c, (f c).filter = c.filter
  name : ∀ c, (f c).rawAlias = c.rawAlias
  expression : ∀ c, (f c).rawExpression = c.rawExpression
  aggregation : ∀ c, c.selected = true ∨ grouping = true → (f c).aggregation = c.aggregation
  having : ∀ c, c.selected = true → c.accumulator?.isSome = true → (f c).having = c.having

theorem keeps_withoutStaleHaving (grouping : Bool) : Keeps grouping withoutStaleHaving := by
  constructor
  case having =>
    intro c shown accumulates
    simp [withoutStaleHaving, shown, accumulates]
  all_goals
    intro c
    unfold withoutStaleHaving
    split <;> simp

theorem keeps_withoutHiddenAggregation : Keeps false withoutHiddenAggregation := by
  constructor
  case aggregation =>
    intro c shown
    have shown : c.selected = true := by simpa using shown
    simp [withoutHiddenAggregation, shown]
  all_goals
    intro c
    unfold withoutHiddenAggregation
    split <;> simp

namespace Keeps

variable {grouping : Bool} {f g : Column → Column} {c : Column}

theorem comp (second : Keeps grouping g) (first : Keeps grouping f) : Keeps grouping (g ∘ f) where
  key c := (second.key _).trans (first.key c)
  selected c := (second.selected _).trans (first.selected c)
  sort c := (second.sort _).trans (first.sort c)
  filter c := (second.filter _).trans (first.filter c)
  name c := (second.name _).trans (first.name c)
  expression c := (second.expression _).trans (first.expression c)
  aggregation c seen := by
    have first' := first.aggregation c seen
    rw [← first.selected] at seen
    exact (second.aggregation _ seen).trans first'
  having c shown accumulates := by
    have same := first.aggregation c (.inl shown)
    have first' := first.having c shown accumulates
    rw [← first.selected] at shown
    have accumulates' : (f c).accumulator?.isSome = true := by
      rwa [accumulator?, same]
    exact (second.having _ shown accumulates').trans first'

variable (keeps : Keeps grouping f)
include keeps

theorem alias? (c : Column) : (f c).alias? = c.alias? := by
  rw [Column.alias?, keeps.name, Column.alias?]

theorem expression? (c : Column) : (f c).expression? = c.expression? := by
  rw [Column.expression?, keeps.expression, Column.expression?]

theorem accumulator? (seen : c.selected = true ∨ grouping = true) :
    (f c).accumulator? = c.accumulator? := by
  rw [Column.accumulator?, keeps.aggregation c seen, Column.accumulator?]

theorem window? (seen : c.selected = true ∨ grouping = true) : (f c).window? = c.window? := by
  rw [Column.window?, keeps.aggregation c seen, Column.window?]

theorem isGroupCandidate (c : Column) : (f c).isGroupCandidate = c.isGroupCandidate := by
  cases shown : c.selected with
  | true =>
    simp only [Column.isGroupCandidate, keeps.selected, keeps.aggregation c (.inl shown),
      keeps.expression?]
  | false => simp only [Column.isGroupCandidate, keeps.selected, shown, Bool.false_and]

theorem effectiveHaving? (shown : c.selected = true) :
    (f c).effectiveHaving? = c.effectiveHaving? := by
  unfold Column.effectiveHaving?
  rw [keeps.accumulator? (.inl shown)]
  cases accumulates : c.accumulator? with
  | none => rfl
  | some a => exact keeps.having c shown (by simp [accumulates])

end Keeps

end Column

namespace Query

def retouched (f : Column → Column) (sets : List (SetOperation Query)) (q : Query) : Query :=
  ⟨q.columns.map f, { q.options with setOperations := sets }⟩

variable {f : Column → Column} {q : Query} (keeps : Column.Keeps q.needsGrouping f)
  (sets : List (SetOperation Query))
include keeps

theorem selected_retouched : (q.retouched f sets).selected = q.selected.map f := by
  simp only [selected, retouched, List.filter_map, Function.comp_def, keeps.selected]

theorem hasAccumulator_retouched : (q.retouched f sets).hasAccumulator = q.hasAccumulator := by
  rw [hasAccumulator, selected_retouched keeps, List.any_map, hasAccumulator, Bool.eq_iff_iff,
    List.any_eq_true, List.any_eq_true]
  refine exists_congr fun c => and_congr_right fun mem => ?_
  rw [Function.comp_apply, keeps.accumulator? (.inl (List.mem_filter.mp mem).2)]

theorem needsGrouping_retouched : (q.retouched f sets).needsGrouping = q.needsGrouping := by
  rw [needsGrouping, hasAccumulator_retouched keeps]
  rfl

theorem groupKeys_retouched :
    (q.retouched f sets).groupKeys.map (·.key) = q.groupKeys.map (·.key) := by
  rw [groupKeys, groupKeys, needsGrouping_retouched keeps]
  split
  · simp only [selected_retouched keeps, List.filter_map, Function.comp_def, List.map_map,
      keeps.isGroupCandidate, keeps.key]
  · rfl

theorem sortedColumns_retouched :
    (q.retouched f sets).sortedColumns = q.sortedColumns.map fun c => (f c.1, c.2) := by
  have sorted : ((q.retouched f sets).columns.filterMap fun c => c.sort.map (c, ·)) =
      (q.columns.filterMap fun c => c.sort.map (c, ·)).map fun c => (f c.1, c.2) := by
    rw [retouched, List.filterMap_map, List.map_filterMap]
    refine List.filterMap_congr fun c _ => ?_
    rw [Function.comp_apply, keeps.sort, Option.map_map]
    rfl
  rw [sortedColumns, sorted, sortedColumns]
  symm
  apply List.map_mergeSort
  exact fun _ _ _ _ => rfl

theorem keys_retouched : (q.retouched f sets).keys = q.keys := by
  have windows : (q.retouched f sets).selected.filterMap (·.window?) =
      q.selected.filterMap (·.window?) := by
    rw [selected_retouched keeps, List.filterMap_map]
    exact List.filterMap_congr fun c mem => keeps.window? (.inl (List.mem_filter.mp mem).2)
  rw [keys, keys, windows]
  simp only [retouched, List.map_map, Function.comp_def, keeps.key]

theorem referencedEntities_retouched :
    (q.retouched f sets).referencedEntities = q.referencedEntities := by
  rw [referencedEntities, keys_retouched keeps, referencedEntities]

theorem isEmpty_retouched : (q.retouched f sets).isEmpty = q.isEmpty := by
  rw [isEmpty, selected_retouched keeps, isEmpty, List.isEmpty_map]
  simp only [retouched, List.all_map, Function.comp_def, keeps.filter]
  rfl

end Query

namespace Sql

variable {s : Schema} {d : Dialect} {f : Column → Column} {q : Query} {c : Column}

section

variable {grouping : Bool} (keeps : Column.Keeps grouping f)
include keeps

theorem operand_keeps (c : Column) : Operand.ofColumn (f c) = Operand.ofColumn c := by
  rw [Operand.ofColumn, keeps.expression?, keeps.key, Operand.ofColumn]

theorem term_keeps (seen : c.selected = true ∨ grouping = true) :
    Term.ofColumn (f c) = Term.ofColumn c := by
  rw [Term.ofColumn, keeps.aggregation c seen, operand_keeps keeps, Term.ofColumn]

theorem columnFilter_keeps (s : Schema) (c : Column) :
    columnFilter? s (f c) = columnFilter? s c := by
  rw [columnFilter?, keeps.filter, operand_keeps keeps, keeps.key, columnFilter?]

theorem sortTarget_keeps (c : Column) : sortTarget grouping (f c) = sortTarget grouping c := by
  unfold sortTarget
  rw [keeps.selected, keeps.alias?, operand_keeps keeps]
  cases shown : c.selected with
  | true => rw [term_keeps keeps (.inl shown)]
  | false =>
    cases grouped : grouping with
    | true => rw [term_keeps keeps (.inr grouped)]
    | false => rfl

end

variable (keeps : Column.Keeps q.needsGrouping f) (sets : List (SetOperation Query))
include keeps

theorem items_retouched : items (q.retouched f sets) = items q := by
  rw [items, Query.selected_retouched keeps, List.map_map, items]
  apply List.map_congr_left
  intro c mem
  rw [Function.comp_apply, term_keeps keeps (.inl (List.mem_filter.mp mem).2), keeps.alias?]

theorem filters_retouched (s : Schema) : filters s (q.retouched f sets) = filters s q := by
  unfold filters Query.retouched
  rw [List.filterMap_map, Function.comp_def]
  simp only [columnFilter_keeps keeps]
  rfl

theorem havings_retouched (s : Schema) : havings s (q.retouched f sets) = havings s q := by
  have own (c : Column) : columnHaving? s (q.retouched f sets) (f c) = columnHaving? s q c := by
    unfold columnHaving?
    rw [keeps.selected, Query.needsGrouping_retouched keeps]
    cases shown : c.selected with
    | false => rfl
    | true =>
      rw [keeps.accumulator? (.inl shown), keeps.effectiveHaving? shown, operand_keeps keeps,
        keeps.key]
  unfold havings
  conv => lhs; arg 2; rw [Query.retouched]
  rw [List.filterMap_map]
  exact List.filterMap_congr fun c _ => own c

theorem grouping_retouched : grouping (q.retouched f sets) = grouping q := by
  rw [grouping, Query.groupKeys_retouched keeps, grouping]
  rfl

theorem ordering_retouched : ordering (q.retouched f sets) = ordering q := by
  rw [ordering, Query.sortedColumns_retouched keeps, Query.needsGrouping_retouched keeps,
    List.map_map, ordering]
  simp only [Function.comp_def, sortTarget_keeps keeps]

theorem clauses_retouched (s : Schema) (d : Dialect) :
    clauses? s d (q.retouched f sets) = clauses? s d q := by
  unfold clauses?
  rw [Query.isEmpty_retouched keeps, Query.referencedEntities_retouched keeps,
    items_retouched keeps, filters_retouched keeps, grouping_retouched keeps,
    havings_retouched keeps, ordering_retouched keeps]
  rfl

end Sql

namespace Pipeline

variable {s : Schema} {f : Column → Column} {q : Query}

def Output.onColumn (f : Column → Column) (o : Output) : Output := { o with column := f o.column }

section

variable {grouping : Bool} (keeps : Column.Keeps grouping f)
include keeps

theorem operand_keeps (root : String) (c : Column) :
    Operand.ofColumn root (f c) = Operand.ofColumn root c := by
  rw [Operand.ofColumn, keeps.expression?, keeps.key, Operand.ofColumn]

theorem columnClause_keeps (s : Schema) (root : String) (c : Column) :
    columnClause? s root (f c) = columnClause? s root c := by
  rw [columnClause?, keeps.filter, keeps.key, columnClause?]

theorem output_keeps (root : String) (grouped : Bool) (names : Names) {c : Column}
    (shown : c.selected = true) :
    Output.of root grouped names (f c) =
      ((Output.of root grouped names c).1.onColumn f, (Output.of root grouped names c).2) := by
  have role : Role.of grouped (f c) = Role.of grouped c := by
    rw [Role.of, keeps.aggregation c (.inl shown), keeps.expression?, Role.of]
  have alias? : Output.trimmedAlias? (f c) = Output.trimmedAlias? c := by
    rw [Output.trimmedAlias?, keeps.alias?, Output.trimmedAlias?]
  have name (names : Names) (role : Role) :
      Output.claimName root names (f c) role = Output.claimName root names c role := by
    unfold Output.claimName
    rw [alias?, keeps.key]
  have shownAs (names : Names) (role : Role) (name : String) :
      Output.claimShown names (f c) role name = Output.claimShown names c role name := by
    unfold Output.claimShown
    rw [alias?]
  simp only [Output.of, role, name, shownAs, Output.onColumn]

theorem list_keeps (root : String) (grouped : Bool) (names : Names) {columns : List Column}
    (shown : ∀ c ∈ columns, c.selected = true) :
    Output.list root grouped names (columns.map f) =
      (Output.list root grouped names columns).map (Output.onColumn f) := by
  induction columns generalizing names with
  | nil => rfl
  | cons c rest ih =>
    rw [List.forall_mem_cons] at shown
    simp only [List.map_cons, Output.list, output_keeps keeps root grouped names shown.1,
      ih _ shown.2]

theorem outputOf_keeps (outputs : List Output) (key : FieldKey) :
    outputOf? (outputs.map (Output.onColumn f)) key =
      (outputOf? outputs key).map (Output.onColumn f) := by
  rw [outputOf?, List.find?_map, outputOf?]
  simp only [Function.comp_def, Output.onColumn, keeps.key]

omit keeps in
theorem groupKeyOutputs_onColumn (outputs : List Output) :
    groupKeyOutputs (outputs.map (Output.onColumn f)) =
      (groupKeyOutputs outputs).map (Output.onColumn f) := by
  rw [groupKeyOutputs, List.filter_map, groupKeyOutputs]
  rfl

omit keeps in
theorem groupKeyPath_onColumn (outputs : List Output) (name : String) :
    groupKeyPath (outputs.map (Output.onColumn f)) name = groupKeyPath outputs name := by
  rw [groupKeyPath, groupKeyOutputs_onColumn, groupKeyPath]
  rcases groupKeyOutputs outputs with _ | ⟨_, _ | ⟨_, _⟩⟩ <;> rfl

theorem windowStage_keeps (root : String) (o : Output) :
    windowStage? root (o.onColumn f) = windowStage? root o := by
  unfold windowStage? Output.onColumn
  simp only [operand_keeps keeps]

theorem groupId_keeps (root : String) (outputs : List Output) :
    groupId root (outputs.map (Output.onColumn f)) = groupId root outputs := by
  unfold groupId
  rw [groupKeyOutputs_onColumn]
  rcases groupKeyOutputs outputs with _ | ⟨_, _ | ⟨_, _⟩⟩ <;>
    simp [Output.onColumn, keeps.key, Function.comp_def]

theorem reduction_keeps (root : String) (o : Output) :
    reduction? root (o.onColumn f) = reduction? root o := by
  unfold reduction? Output.onColumn
  simp only [operand_keeps keeps]

theorem groupStages_keeps (root : String) (grouped : Bool) (outputs : List Output) :
    groupStages root grouped (outputs.map (Output.onColumn f)) =
      groupStages root grouped outputs := by
  have sizes : (outputs.map (Output.onColumn f)).filterMap distinctCount? =
      outputs.filterMap distinctCount? := by
    rw [List.filterMap_map]
    rfl
  rw [groupStages, groupId_keeps keeps, sizes, List.filterMap_map, groupStages]
  simp only [Function.comp_def, reduction_keeps keeps]

theorem sortPath_keeps (root : String) (grouped : Bool) (outputs : List Output) (c : Column) :
    sortPath? root grouped (outputs.map (Output.onColumn f)) (f c) =
      sortPath? root grouped outputs c := by
  unfold sortPath?
  rw [keeps.key, outputOf_keeps keeps]
  cases outputOf? outputs c.key with
  | none => rfl
  | some o =>
    simp only [Option.map_some, Output.onColumn, groupKeyPath_onColumn]

omit keeps in
theorem projectEntries_onColumn (grouped : Bool) (outputs : List Output) :
    projectEntries grouped (outputs.map (Output.onColumn f)) = projectEntries grouped outputs := by
  have own (o : Output) :
      projected grouped (outputs.map (Output.onColumn f)) (o.onColumn f) =
        projected grouped outputs o := by
    unfold projected
    simp only [groupKeyPath_onColumn]
    rfl
  rw [projectEntries, List.map_map, projectEntries]
  simp only [Function.comp_def, own]
  rfl

end

variable (keeps : Column.Keeps q.needsGrouping f) (sets : List (SetOperation Query))
include keeps

theorem isGrouped_retouched : isGrouped (q.retouched f sets) = isGrouped q := by
  rw [isGrouped, Query.hasAccumulator_retouched keeps, isGrouped]
  rfl

theorem isReshaped_retouched : isReshaped (q.retouched f sets) = isReshaped q := by
  rw [isReshaped, Query.selected_retouched keeps, List.any_map, isReshaped]
  simp only [Function.comp_def, keeps.alias?, keeps.expression?]

theorem outputs_retouched (root : String) (grouped : Bool) :
    outputs root grouped (q.retouched f sets) =
      (outputs root grouped q).map (Output.onColumn f) := by
  rw [outputs, Query.selected_retouched keeps]
  exact list_keeps keeps root grouped _ fun c mem => (List.mem_filter.mp mem).2

theorem filterStages_retouched (s : Schema) (root : String) :
    filterStages s root (q.retouched f sets) = filterStages s root q := by
  have clauses : (q.retouched f sets).columns.filterMap (columnClause? s root) =
      q.columns.filterMap (columnClause? s root) := by
    rw [Query.retouched, List.filterMap_map]
    exact List.filterMap_congr fun c _ => columnClause_keeps keeps s root c
  rw [filterStages, clauses, filterStages]
  rfl

theorem havingStages_retouched (distinct : (q.columns.map (·.key)).Nodup) (s : Schema)
    (root : String) (grouped : Bool) :
    havingStages s grouped ((outputs root grouped q).map (Output.onColumn f))
        (q.retouched f sets) =
      havingStages s grouped (outputs root grouped q) q := by
  have own : ∀ c ∈ q.columns,
      havingClause? s ((outputs root grouped q).map (Output.onColumn f)) (f c) =
        havingClause? s (outputs root grouped q) c := by
    intro c mem
    unfold havingClause?
    rw [keeps.key, outputOf_keeps keeps]
    -- With distinct keys only a shown column is found, and of that the filter is kept.
    have shown := outputOf_isSome_iff distinct mem root grouped
    cases found : outputOf? (outputs root grouped q) c.key with
    | none =>
      cases (f c).effectiveHaving? <;> cases (f c).accumulator? <;>
        cases c.effectiveHaving? <;> cases c.accumulator? <;> rfl
    | some o =>
      have shown : c.selected = true := shown.mp (by rw [found, Option.isSome_some])
      rw [keeps.effectiveHaving? shown, keeps.accumulator? (.inl shown)]
      rfl
  have clauses : (q.retouched f sets).columns.filterMap
        (havingClause? s ((outputs root grouped q).map (Output.onColumn f))) =
      q.columns.filterMap (havingClause? s (outputs root grouped q)) := by
    rw [Query.retouched, List.filterMap_map]
    exact List.filterMap_congr own
  rw [havingStages, clauses, havingStages]

theorem sortKeys_retouched (root : String) (grouped : Bool) :
    sortKeys root grouped ((outputs root grouped q).map (Output.onColumn f))
        (q.retouched f sets) =
      sortKeys root grouped (outputs root grouped q) q := by
  rw [sortKeys, Query.sortedColumns_retouched keeps, List.filterMap_map, sortKeys]
  simp only [Function.comp_def, sortPath_keeps keeps]

theorem projectStages_retouched (grouped : Bool) (outputs : List Output) :
    projectStages grouped (outputs.map (Output.onColumn f)) (q.retouched f sets) =
      projectStages grouped outputs q := by
  rw [projectStages, isReshaped_retouched keeps, projectEntries_onColumn, List.isEmpty_map,
    projectStages]

theorem parts_retouched (distinct : (q.columns.map (·.key)).Nodup) (s : Schema) (root : String)
    (joins : List Join) :
    parts s root joins (q.retouched f sets) = parts s root joins q := by
  have windows (outputs : List Output) :
      (outputs.map (Output.onColumn f)).filterMap (windowStage? root) =
        outputs.filterMap (windowStage? root) := by
    rw [List.filterMap_map]
    exact List.filterMap_congr fun o _ => windowStage_keeps keeps root o
  simp only [parts, isGrouped_retouched keeps, outputs_retouched keeps,
    filterStages_retouched keeps, windows, groupStages_keeps keeps,
    havingStages_retouched keeps sets distinct, sortKeys_retouched keeps,
    projectStages_retouched keeps]
  rfl

theorem parts?_retouched (distinct : (q.columns.map (·.key)).Nodup) (s : Schema) :
    parts? s (q.retouched f sets) = parts? s q := by
  unfold parts?
  rw [Query.isEmpty_retouched keeps, Query.referencedEntities_retouched keeps]
  simp only [parts_retouched keeps sets distinct]

end Pipeline

namespace Sql

def Term.aggregate? : Term → Option Accumulator
  | .aggregate a _ => some a
  | .operand _ | .window _ _ => none

def Condition.aggregate? : Condition → Option Accumulator
  | .compare t _ _ | .like t _ _ | .among t _ _ | .range t _ _ _ | .test t _ => t.aggregate?
  | .subquery _ | .raw _ => none

def SortTarget.aggregate? : SortTarget → Option Accumulator
  | .named _ => none
  | .term t => t.aggregate?

def Clause.aggregates : Clause → List Accumulator
  | .select _ items => items.filterMap (·.term.aggregate?)
  | .filter conditions | .having conditions => conditions.filterMap Condition.aggregate?
  | .orderBy targets => targets.filterMap (·.1.aggregate?)
  | .source _ | .join _ _ | .crossJoin _ | .groupByAll | .groupBy _ | .limit _ | .offset _
  | .combine _ _ => []

variable {s : Schema} {d : Dialect} {q : Query}

theorem aggregate_condition {t : Term} {p : Predicate} {type : Option SemanticType}
    {c : Condition} (plain : t.aggregate? = none)
    (made : Condition.ofPredicate? t p type = some c) : c.aggregate? = none := by
  unfold Condition.ofPredicate? at made
  split at made
  · cases made
    cases p.operator <;> try exact plain
    -- What is left is a test for existence, of a value or of a query.
    dsimp only
    split
    · exact plain
    · rfl
  · cases made

theorem aggregate_term {c : Column} (single : q.needsGrouping = false) (mem : c ∈ q.selected) :
    (Term.ofColumn c).aggregate? = none := by
  have plain : c.accumulator? = none := by
    have none : q.hasAccumulator = false := (Bool.or_eq_false_iff.mp single).1
    simpa using List.any_eq_false.mp none c mem
  unfold Column.accumulator? at plain
  unfold Term.ofColumn
  split at plain
  · cases plain
  · cases kind : c.aggregation <;> simp_all [Term.aggregate?]

theorem aggregates_filters (s : Schema) (q : Query) :
    (filters s q).filterMap Condition.aggregate? = [] := by
  rw [List.filterMap_eq_nil_iff]
  have own : ∀ c ∈ q.columns.filterMap (columnFilter? s), c.aggregate? = none := by
    intro c mem
    obtain ⟨column, -, made⟩ := List.mem_filterMap.mp mem
    obtain ⟨p, -, made⟩ := Option.bind_eq_some_iff.mp made
    exact aggregate_condition rfl made
  intro c mem
  unfold filters withCustom at mem
  split at mem
  · exact own c mem
  · split at mem
    · rw [List.mem_singleton.mp mem]
      rfl
    · rcases List.mem_append.mp mem with mem | mem
      · exact own c mem
      · rw [List.mem_singleton.mp mem]
        rfl

theorem havings_single (single : q.needsGrouping = false) (s : Schema) : havings s q = [] := by
  rw [havings, List.filterMap_eq_nil_iff]
  intro c _
  rw [columnHaving?, single, Bool.and_false]
  rfl

theorem aggregate_sortTarget {c : Column} (single : q.needsGrouping = false)
    (mem : c ∈ q.columns) : (sortTarget q.needsGrouping c).aggregate? = none := by
  unfold sortTarget
  split
  · rfl
  · exact aggregate_term single (List.mem_filter.mpr ⟨mem, by assumption⟩)
  · rw [single]
    rfl

theorem aggregates_clauses {clauses : List Clause} (h : clauses? s d q = some clauses)
    (single : q.needsGrouping = false) : ∀ c ∈ clauses, c.aggregates = [] := by
  obtain ⟨root, -, rfl⟩ := clauses_eq h
  intro c mem
  simp only [List.mem_append, List.mem_cons, List.not_mem_nil, or_false] at mem
  rcases mem with (((((mem | mem) | mem) | mem) | mem) | mem) | mem
  · rcases mem with rfl | rfl
    · refine List.filterMap_eq_nil_iff.mpr fun i item => ?_
      obtain ⟨c, shown, rfl⟩ := List.mem_map.mp item
      exact aggregate_term single shown
    · rfl
  · obtain ⟨j, -, rfl⟩ := List.mem_map.mp mem
    cases j <;> rfl
  · obtain ⟨-, rfl⟩ := mem_nonempty.mp mem
    exact aggregates_filters s q
  · unfold grouping at mem
    split at mem
    · rw [List.mem_singleton.mp mem]
      rfl
    · obtain ⟨-, rfl⟩ := mem_nonempty.mp mem
      rfl
  · exact absurd (havings_single single s) (mem_nonempty.mp mem).1
  · obtain ⟨-, rfl⟩ := mem_nonempty.mp mem
    refine List.filterMap_eq_nil_iff.mpr fun t target => ?_
    obtain ⟨⟨c, sorting⟩, sorted, rfl⟩ := List.mem_map.mp target
    exact aggregate_sortTarget single (mem_sortedColumns.mp sorted).1
  · obtain ⟨n, rfl | rfl⟩ := mem_paging mem <;> rfl

end Sql

namespace Query

def mapColumns (f : Column → Column) (q : Query) : Query := ⟨q.columns.map f, q.options⟩

def cleanColumn (q : Query) : Column → Column :=
  if q.needsGrouping then Column.withoutStaleHaving
  else Column.withoutHiddenAggregation ∘ Column.withoutStaleHaving

theorem keeps_cleanColumn (q : Query) : Column.Keeps q.needsGrouping q.cleanColumn := by
  unfold cleanColumn
  cases q.needsGrouping with
  | true => exact Column.keeps_withoutStaleHaving true
  | false =>
    exact Column.keeps_withoutHiddenAggregation.comp (Column.keeps_withoutStaleHaving false)

mutual

def cleaned : Query → Query
  | q@⟨_, { setOperations := sets, .. }⟩ => q.retouched q.cleanColumn (cleanedSets sets)

def cleanedSets : List (SetOperation Query) → List (SetOperation Query)
  | [] => []
  | ⟨operator, all, q⟩ :: rest => ⟨operator, all, q.cleaned⟩ :: cleanedSets rest

end

inductive KeysDistinct : Query → Prop
  | intro (q : Query) (own : (q.columns.map (·.key)).Nodup)
    (operands : ∀ o ∈ q.options.setOperations, o.query.KeysDistinct) : KeysDistinct q

end Query

section

variable {f : Column → Column} {q : Query} (keeps : Column.Keeps q.needsGrouping f)
  {sets : List (SetOperation Query)}
include keeps

theorem Sql.statement_retouched {s : Schema} {d : Dialect}
    (same : operands s d sets = operands s d q.options.setOperations) :
    statement? s d (q.retouched f sets) = statement? s d q := by
  obtain ⟨columns, options⟩ := q
  have clauses := clauses_retouched keeps sets s d
  simp only [Query.retouched] at clauses same ⊢
  simp only [statement?, clauses, same]

theorem Pipeline.pipeline_retouched {s : Schema} (distinct : (q.columns.map (·.key)).Nodup)
    (same : unionStages s sets = unionStages s q.options.setOperations) :
    pipeline? s (q.retouched f sets) = pipeline? s q := by
  obtain ⟨columns, options⟩ := q
  have parts := parts?_retouched keeps sets distinct s
  simp only [Query.retouched] at parts same ⊢
  simp only [pipeline?, parts, same]
  rfl

end

theorem Query.cleaned_eq (q : Query) :
    q.cleaned = q.retouched q.cleanColumn (cleanedSets q.options.setOperations) := by
  obtain ⟨columns, options⟩ := q
  rw [cleaned]

theorem Sql.statement_cleaned (s : Schema) (d : Dialect) (q : Query) :
    statement? s d q.cleaned = statement? s d q := by
  induction q using Query.induction with
  | step q ih =>
    rw [Query.cleaned_eq]
    refine statement_retouched q.keeps_cleanColumn ?_
    -- What is left are the operands, each with the same statement as before.
    generalize q.options.setOperations = sets at ih
    induction sets with
    | nil => rw [Query.cleanedSets]
    | cons o rest tail =>
      rw [List.forall_mem_cons] at ih
      rw [Query.cleanedSets, operands, operands, ih.1, tail ih.2]

theorem Pipeline.pipeline_cleaned (s : Schema) {q : Query} (distinct : q.KeysDistinct) :
    pipeline? s q.cleaned = pipeline? s q := by
  induction q using Query.induction with
  | step q ih =>
    obtain ⟨_, own, operands⟩ := distinct
    rw [Query.cleaned_eq]
    refine pipeline_retouched q.keeps_cleanColumn own ?_
    have ih := fun o mem => ih o mem (operands o mem)
    generalize q.options.setOperations = sets at ih
    induction sets with
    | nil => rw [Query.cleanedSets]
    | cons o rest tail =>
      rw [List.forall_mem_cons] at ih
      simp only [Query.cleanedSets, unionStages, ih.1, tail ih.2]

structure SameTexts (s : Schema) (sql : Sql.Options) (shell : Pipeline.Options) (q q' : Query) :
    Prop where
  statement : Sql.compile s sql q = Sql.compile s sql q'
  pipeline : Pipeline.compile s shell q = Pipeline.compile s shell q'

/-- What is left over in a query changes nothing, on its own and in the queries that it is combined
with. -/
structure Inert (s : Schema) (sql : Sql.Options) (shell : Pipeline.Options) (q : Query) : Prop where
  havings : SameTexts s sql shell (q.mapColumns Column.withoutStaleHaving) q
  aggregations : q.needsGrouping = false →
    SameTexts s sql shell
      (q.mapColumns (Column.withoutHiddenAggregation ∘ Column.withoutStaleHaving)) q
  plain : q.needsGrouping = false → ∀ clauses, Sql.clauses? s sql.dialect q = some clauses →
    ∀ c ∈ clauses, c.aggregates = []
  throughout : q.KeysDistinct → SameTexts s sql shell q.cleaned q

theorem sameTexts {s : Schema} {sql : Sql.Options} {shell : Pipeline.Options} {q q' : Query}
    (statement : Sql.statement? s sql.dialect q = Sql.statement? s sql.dialect q')
    (pipeline : Pipeline.pipeline? s q = Pipeline.pipeline? s q') : SameTexts s sql shell q q' where
  statement := by rw [Sql.compile, statement, Sql.compile]
  pipeline := by rw [Pipeline.compile, pipeline, Pipeline.compile]

theorem sameTexts_mapColumns {f : Column → Column} {s : Schema} {sql : Sql.Options}
    {shell : Pipeline.Options} {q : Query} (distinct : (q.columns.map (·.key)).Nodup)
    (keeps : Column.Keeps q.needsGrouping f) : SameTexts s sql shell (q.mapColumns f) q :=
  sameTexts (Sql.statement_retouched keeps rfl) (Pipeline.pipeline_retouched keeps distinct rfl)

theorem compile_inert (s : Schema) (sql : Sql.Options) (shell : Pipeline.Options) {q : Query}
    (distinct : (q.columns.map (·.key)).Nodup) : Inert s sql shell q where
  havings := sameTexts_mapColumns distinct (Column.keeps_withoutStaleHaving _)
  aggregations single := by
    refine sameTexts_mapColumns distinct ?_
    rw [single]
    exact Column.keeps_withoutHiddenAggregation.comp (Column.keeps_withoutStaleHaving false)
  plain single _ h := Sql.aggregates_clauses h single
  throughout all := sameTexts (Sql.statement_cleaned _ _ _) (Pipeline.pipeline_cleaned _ all)

-- Both columns carry what their query does not compute: a filter on a count that is no longer
-- asked for, and a sum that is not shown.
def settled : Query :=
  { columns :=
      [{ Column.ofKey ⟨"employees", "name"⟩ with having := some ⟨.gt, "5", none⟩ },
        { Column.ofKey ⟨"employees", "salary"⟩ with
          selected := false, aggregation := .accumulator .sum, sort := some ⟨.desc, 1⟩,
          having := some ⟨.gt, "10", none⟩ }]
    options := .default }

theorem settled_inert :
    (settled.columns.map (·.key)).Nodup ∧ settled.needsGrouping = false ∧
      (settled.columns.map settled.cleanColumn).map (·.having) = [none, none] ∧
      (settled.columns.map settled.cleanColumn).map (·.aggregation) = [.none, .none] ∧
      Inert Sql.staff .default .default settled :=
  ⟨by decide, by decide, by decide, by decide, compile_inert _ _ _ (by decide)⟩

end QueryBuilder
