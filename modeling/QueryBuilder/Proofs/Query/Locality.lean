import QueryBuilder.Proofs.Query.Edit

set_option autoImplicit false

namespace QueryBuilder

namespace Query

variable {q : Query} {key : FieldKey} {c d : Column}

/-- `d` stands in `q'` where `c` is the first column with the key in `q`. All else is the same. -/
structure Exchanged (key : FieldKey) (c d : Column) (q q' : Query) : Prop where
  options : q'.options = q.options
  keys : c.key = key ∧ d.key = key
  columns : ∃ before after, (∀ x ∈ before, x.key ≠ key) ∧ q.columns = before ++ c :: after ∧
    q'.columns = before ++ d :: after

theorem exists_split_of_column? (found : q.column? key = some c) :
    c.key = key ∧
      ∃ before after, (∀ x ∈ before, x.key ≠ key) ∧ q.columns = before ++ c :: after := by
  obtain ⟨same, before, after, split, fresh⟩ := List.find?_eq_some_iff_append.mp found
  exact ⟨by simpa using same, before, after, by simpa using fresh, split⟩

theorem replaceFirst_append {before after : List Column} (fresh : ∀ x ∈ before, x.key ≠ d.key)
    (same : c.key = d.key) : replaceFirst d (before ++ c :: after) = before ++ d :: after := by
  induction before with
  | nil => rw [List.nil_append, replaceFirst, if_pos same, List.nil_append]
  | cons x before ih =>
    obtain ⟨other, fresh⟩ := List.forall_mem_cons.mp fresh
    rw [List.cons_append, replaceFirst, if_neg other, ih fresh, List.cons_append]

theorem replace_of_split (before after : List Column) (options : Options Query)
    (fresh : ∀ x ∈ before, x.key ≠ key) (here : c.key = key) (same : d.key = key) :
    (⟨before ++ c :: after, options⟩ : Query).replace d = ⟨before ++ d :: after, options⟩ := by
  subst same
  rw [replace, replaceFirst_append fresh here]

theorem exchanged_replace (found : q.column? key = some c) (same : d.key = key) :
    Exchanged key c d q (q.replace d) := by
  obtain ⟨here, before, after, fresh, split⟩ := exists_split_of_column? found
  obtain ⟨columns, options⟩ := q
  cases split
  refine ⟨rfl, ⟨here, same⟩, before, after, fresh, rfl, ?_⟩
  exact congrArg columns (replace_of_split before after options fresh here same)

end Query

namespace Edit

/-- What such an edit makes of the column: the annotation is as it is asked for, and the rest of the
column as it was. An accumulator and a window stand in the same place, and the filter on a result
goes with them. -/
def Makes : Edit → Column → Column → Prop
  | setAccumulator _ a, c, d =>
    d = { c with aggregation := d.aggregation, having := d.having } ∧ d.accumulator? = a ∧
      d.having = if a.isSome then c.having else none
  | setWindow _ w, c, d =>
    d = { c with aggregation := d.aggregation, having := d.having } ∧ d.window? = w ∧
      d.having = if w.isSome then none else c.having
  | setSort _ direction, c, d =>
    d = { c with sort := d.sort } ∧ d.sort.map (·.direction) = direction
  | toggleSort _, c, d =>
    d = { c with sort := d.sort } ∧
      d.sort.map (·.direction) = Query.nextDirection (c.sort.map (·.direction))
  | setFilter _ filter, c, d => d = { c with filter := filter }
  | setHaving _ having, c, d => d = { c with having := having }
  | setAlias _ name, c, d => d = { c with rawAlias := name.filter Column.saysSomething }
  | setExpression _ expression, c, d =>
    d = { c with rawExpression := expression.filter Column.saysSomething }
  | _, c, d => d = c

variable {s : Schema} {e : Edit} {key : FieldKey} {c d : Column}

theorem Revises.makes (revised : Revises s e c d) (aimed : e.target? = some key) : e.Makes c d := by
  cases revised with
  | upsert | select => cases aimed
  | accumulate => exact ⟨rfl, rfl, rfl⟩
  | dropAccumulator =>
    refine ⟨rfl, ?_, rfl⟩
    cases h : c.aggregation <;> simp [Column.accumulator?, h]
  | overWindow => exact ⟨rfl, rfl, rfl⟩
  | dropWindow =>
    refine ⟨rfl, ?_, rfl⟩
    cases h : c.aggregation <;> simp [Column.window?, h]
  | @sort _ direction _ =>
    refine ⟨rfl, ?_⟩
    cases direction <;> rfl
  | turn =>
    refine ⟨rfl, ?_⟩
    cases Query.nextDirection (c.sort.map (·.direction)) <;> rfl
  | filter _ => rfl
  | having _ => rfl
  | rename => rfl
  | express => rfl

theorem outcome_local (s : Schema) (q : Query) (e : Edit) (key : FieldKey)
    (aimed : e.target? = some key) :
    (∀ err left, e.outcome s q = .error err left → left = q) ∧
      (∀ q', e.outcome s q = .ok () q' → ∃ c d, Query.Exchanged key c d q q' ∧ e.Makes c d) ∧
      (key ∉ q.columns.map (·.key) → ∃ err left, e.outcome s q = .error err left) ∧
      (key ∈ q.columns.map (·.key) → ∀ k left, e.outcome s q ≠ .error (.unknownColumn k) left) := by
  have ends := outcome_ends (q := q) (s := s) aimed
  generalize e.outcome s q = x at ends ⊢
  cases ends with
  | @fails err unknown =>
    refine ⟨?_, ?_, fun _ => ⟨err, q, rfl⟩, ?_⟩
    · rintro _ _ ⟨⟩
      rfl
    · rintro _ ⟨⟩
    · rintro present k _ ⟨⟩
      exact Query.column?_eq_none.mp (unknown k rfl) present
  | @revises c d found same revised =>
    refine ⟨?_, ?_, fun absent => ?_, ?_⟩
    · rintro _ _ ⟨⟩
    · rintro _ ⟨⟩
      exact ⟨c, d, Query.exchanged_replace found same, revised.makes aimed⟩
    · rw [Query.column?_eq_none.mpr absent] at found
      cases found
    · rintro _ _ _ ⟨⟩

-- A window on the first of two columns of one field, and a filter on the result of the second.
def twice : Query where
  columns :=
    [{ Column.ofKey ⟨"t", "x"⟩ with aggregation := .window ⟨.rank, [], [], none⟩ },
      { Column.ofKey ⟨"t", "x"⟩ with
        aggregation := .accumulator .sum
        having := some ⟨.gt, "5", none⟩ }]
  options := .default

theorem setWindow_twice :
    (setWindow ⟨"t", "x"⟩ none).target? = some ⟨"t", "x"⟩ ∧
      ((setWindow ⟨"t", "x"⟩ none).apply .empty twice).columns.map (·.aggregation) =
        [.none, .accumulator .sum] ∧
      ∃ c d, Query.Exchanged ⟨"t", "x"⟩ c d twice ((setWindow ⟨"t", "x"⟩ none).apply .empty twice) ∧
        (setWindow ⟨"t", "x"⟩ none).Makes c d :=
  ⟨rfl, by decide, (outcome_local .empty twice _ ⟨"t", "x"⟩ rfl).2.1 _ rfl⟩

end Edit

end QueryBuilder
