import QueryBuilder.Query.Edit

set_option autoImplicit false

namespace QueryBuilder

def FieldKey.typeIn (s : Schema) (k : FieldKey) : Option SemanticType :=
  s.fieldType? k.entity k.field

def Predicate.Suits (type : SemanticType) (p : Predicate) : Prop := p.validate type = .ok ()

inductive Edit where
  | upsert (c : Column)
  | select (key : FieldKey)
  | remove (key : FieldKey)
  | clearAll
  | setOptions (options : Options Query)
  | setAccumulator (key : FieldKey) (a : Option Accumulator)
  | setWindow (key : FieldKey) (w : Option Window)
  | setSort (key : FieldKey) (direction : Option SortDirection)
  | toggleSort (key : FieldKey)
  | setFilter (key : FieldKey) (filter : Option Predicate)
  | setHaving (key : FieldKey) (having : Option Predicate)
  | setAlias (key : FieldKey) (name : Option String)
  | setExpression (key : FieldKey) (expression : Option String)

namespace Edit

def target? : Edit → Option FieldKey
  | setAccumulator key _ => some key
  | setWindow key _ => some key
  | setSort key _ => some key
  | toggleSort key => some key
  | setFilter key _ => some key
  | setHaving key _ => some key
  | setAlias key _ => some key
  | setExpression key _ => some key
  | upsert _ => none
  | select _ => none
  | remove _ => none
  | clearAll => none
  | setOptions _ => none

def perform (s : Schema) : Edit → Query.Editing Unit
  | upsert c => modify (·.upsert c)
  | select key => modify fun q => (q.select key).2
  | remove key => modify fun q => (q.remove key).2
  | clearAll => modify Query.clearAll
  | setOptions options => modify (·.setOptions options)
  | setAccumulator key a => Query.setAccumulator key a
  | setWindow key w => Query.setWindow key w
  | setSort key direction => Query.setSort key direction
  | toggleSort key => do let _ ← Query.toggleSort key
  | setFilter key filter => Query.setFilter key filter s
  | setHaving key having => Query.setHaving key having s
  | setAlias key name => Query.setAlias key name
  | setExpression key expression => Query.setExpression key expression

def outcome (s : Schema) (q : Query) (e : Edit) : EStateM.Result QueryError Query Unit :=
  (e.perform s).run q

-- What the edit leaves, whether it succeeds or fails.
def apply (s : Schema) (q : Query) (e : Edit) : Query :=
  match e.outcome s q with
  | .ok () left => left
  | .error _ left => left

def run (s : Schema) (es : List Edit) : Query := es.foldl (apply s) .empty

theorem run_snoc (s : Schema) (es : List Edit) (e : Edit) :
    run s (es ++ [e]) = e.apply s (run s es) := by
  simp [run]

inductive Revises (s : Schema) : Edit → Column → Column → Prop
  | upsert {c d : Column} : Revises s (.upsert d) c d
  | select {c : Column} : Revises s (.select c.key) c { c with selected := true }
  | accumulate {c : Column} {a : Accumulator} :
      Revises s (.setAccumulator c.key (some a)) c { c with aggregation := .accumulator a }
  | dropAccumulator {c : Column} :
      Revises s (.setAccumulator c.key none) c
        { c with
          aggregation := if c.accumulator?.isSome then .none else c.aggregation
          having := none }
  | overWindow {c : Column} {w : Window} :
      Revises s (.setWindow c.key (some w)) c { c with aggregation := .window w, having := none }
  | dropWindow {c : Column} :
      Revises s (.setWindow c.key none) c
        { c with aggregation := if c.window?.isSome then .none else c.aggregation }
  | sort {c : Column} {direction : Option SortDirection} {order : UInt64} :
      Revises s (.setSort c.key direction) c { c with sort := direction.map (⟨·, order⟩) }
  | turn {c : Column} {order : UInt64} :
      Revises s (.toggleSort c.key) c
        { c with sort := (Query.nextDirection (c.sort.map (·.direction))).map (⟨·, order⟩) }
  | filter {c : Column} {filter : Option Predicate}
      (suits : ∀ p, filter = some p → p.Suits ((c.key.typeIn s).getD .string)) :
      Revises s (.setFilter c.key filter) c { c with filter := filter }
  | having {c : Column} {having : Option Predicate}
      (suits : ∀ p, having = some p →
        ∃ a, c.accumulator? = some a ∧ p.Suits (a.resultType (c.key.typeIn s))) :
      Revises s (.setHaving c.key having) c { c with having := having }
  | rename {c : Column} {name : Option String} :
      Revises s (.setAlias c.key name) c
        { c with rawAlias := name.filter Column.saysSomething }
  | express {c : Column} {expression : Option String} :
      Revises s (.setExpression c.key expression) c
        { c with rawExpression := expression.filter Column.saysSomething }

-- How an edit ends that is about a column which has to be there.
inductive Ends (s : Schema) (q : Query) (e : Edit) (key : FieldKey) :
    EStateM.Result QueryError Query Unit → Prop
  | fails {err : QueryError} (unknown : ∀ k, err = .unknownColumn k → q.column? key = none) :
      Ends s q e key (.error err q)
  | revises {c d : Column} (found : q.column? key = some c) (same : d.key = key)
      (revised : Revises s e c d) : Ends s q e key (.ok () (q.replace d))

-- What any edit does to the columns. One that fails drops none.
inductive Step (s : Schema) (q : Query) : Edit → List Column → Prop
  | drop {e : Edit} {cs : List Column} (fewer : cs.Sublist q.columns) : Step s q e cs
  | insert {d : Column} (new : q.column? d.key = none) : Step s q (.upsert d) (q.columns ++ [d])
  | blank {key : FieldKey} (new : q.column? key = none) :
      Step s q (.select key) (q.columns ++ [.ofKey key])
  | revise {e : Edit} {c d : Column} (found : q.column? d.key = some c) (revised : Revises s e c d) :
      Step s q e (Query.replaceFirst d q.columns)

end Edit

namespace Query

variable {q : Query} {key : FieldKey} {c d : Column}

theorem column?_eq_some (h : q.column? key = some c) : c ∈ q.columns ∧ c.key = key :=
  ⟨List.mem_of_find?_eq_some h, by simpa using List.find?_some h⟩

theorem column?_eq_none : q.column? key = none ↔ key ∉ q.columns.map (·.key) := by
  simp [column?]

theorem mem_replaceFirst {cs : List Column} (h : c ∈ replaceFirst d cs) : c = d ∨ c ∈ cs := by
  induction cs with
  | nil => cases h
  | cons b rest ih =>
    unfold replaceFirst at h
    split at h
    · exact (List.mem_cons.mp h).imp_right (List.mem_cons_of_mem _)
    · rcases List.mem_cons.mp h with rfl | h
      · exact .inr List.mem_cons_self
      · exact (ih h).imp_right (List.mem_cons_of_mem _)

theorem mem_replaceFirst_self {cs : List Column} (h : d.key ∈ cs.map (·.key)) :
    d ∈ replaceFirst d cs := by
  induction cs with
  | nil => cases h
  | cons b rest ih =>
    unfold replaceFirst
    split
    · exact List.mem_cons_self
    · next other =>
      rcases List.mem_cons.mp h with same | h
      · exact absurd same.symm other
      · exact List.mem_cons_of_mem _ (ih h)

theorem upsert_step {s : Schema} {e : Edit}
    (new : q.column? d.key = none → Edit.Step s q e (q.columns ++ [d]))
    (revised : ∀ c, q.column? d.key = some c → Edit.Revises s e c d) :
    Edit.Step s q e (q.upsert d).columns := by
  unfold upsert has
  cases h : q.column? d.key with
  | none => exact new h
  | some c => exact .revise h (revised c h)

theorem run_column_none (absent : q.column? key = none) :
    (column key).run q = .error (.unknownColumn key) q := by
  simp only [column, EStateM.run_bind, EStateM.run_get, absent]
  rfl

theorem run_column_some (found : q.column? key = some c) : (column key).run q = .ok c q := by
  simp [column, found]

-- What comes of an action that only looks at the query.
inductive Checks (q : Query) (P : Prop) : EStateM.Result QueryError Query Unit → Prop
  | passes (holds : P) : Checks q P (.ok () q)
  | fails {err : QueryError} (known : ∀ k, err ≠ .unknownColumn k) : Checks q P (.error err q)

theorem Checks.imp {P P' : Prop} {x : EStateM.Result QueryError Query Unit} (h : P → P')
    (checks : Checks q P x) : Checks q P' x := by
  cases checks with
  | passes holds => exact .passes (h holds)
  | fails known => exact .fails known

theorem checks_check {type : SemanticType} {p : Predicate} :
    Checks q (p.Suits type) ((check key type p).run q) := by
  unfold check
  cases h : p.validate type with
  | ok _ => exact .passes h
  | error e => exact .fails (by simp)

theorem checks_forM {o : Option Predicate} {P : Predicate → Prop} {g : Predicate → Editing Unit}
    (each : ∀ p, o = some p → Checks q (P p) ((g p).run q)) :
    Checks q (∀ p, o = some p → P p) ((o.forM g).run q) := by
  cases o with
  | none => exact .passes (by simp)
  | some p =>
    have checked := each p rfl
    rw [Option.forM]
    cases h : (g p).run q <;> rw [h] at checked
    · cases checked with
      | passes holds => exact .passes (by simpa using holds)
    · cases checked with
      | fails known => exact .fails known

end Query

namespace Edit

variable {s : Schema} {q : Query} {e : Edit} {key : FieldKey} {c d : Column}

theorem ends_column {f : Column → Query.Editing Unit}
    (here : ∀ c, q.column? key = some c → c.key = key → Ends s q e key ((f c).run q)) :
    Ends s q e key ((Query.column key >>= f).run q) := by
  rw [EStateM.run_bind]
  cases found : q.column? key with
  | none =>
    rw [Query.run_column_none found]
    exact .fails fun _ _ => found
  | some c =>
    rw [Query.run_column_some found]
    exact here c found (Query.column?_eq_some found).2

theorem ends_of_checks {P : Prop} {g : Query.Editing Unit} {f : Unit → Query.Editing Unit}
    (checks : Query.Checks q P (g.run q)) (passed : P → Ends s q e key ((f ()).run q)) :
    Ends s q e key ((g >>= f).run q) := by
  rw [EStateM.run_bind]
  cases h : g.run q <;> rw [h] at checks
  · cases checks with
    | passes holds => exact passed holds
  · cases checks with
    | fails known => exact .fails fun k unknown => absurd unknown (known k)

theorem ends_setSort {direction : Option SortDirection}
    (revised : ∀ c order, q.column? key = some c → c.key = key →
      Revises s e c { c with sort := direction.map (⟨·, order⟩) }) :
    Ends s q e key ((Query.setSort key direction).run q) := by
  refine ends_column fun c found same => ?_
  exact .revises found same (revised c _ found same)

theorem checks_having (s : Schema) (q : Query) (c : Column) (p : Predicate) :
    Query.Checks q (∃ a, c.accumulator? = some a ∧ p.Suits (a.resultType (c.key.typeIn s)))
      (EStateM.run (do
        let a ← c.accumulator?.getDM (throw (.havingWithoutAccumulator c.key))
        Query.check c.key (a.resultType (s.fieldType? c.key.entity c.key.field)) p) q) := by
  cases carried : c.accumulator? with
  | none => exact .fails (by simp)
  | some a => exact Query.checks_check.imp fun suits => ⟨a, rfl, suits⟩

theorem outcome_ends (aimed : e.target? = some key) : Ends s q e key (e.outcome s q) := by
  unfold outcome
  cases e with
  | upsert | select | remove | clearAll | setOptions => cases aimed
  | setAccumulator key a =>
    cases aimed
    refine ends_column fun c found same => ?_
    subst same
    cases a with
    | none => exact .revises found rfl .dropAccumulator
    | some a => exact .revises found rfl .accumulate
  | setWindow key w =>
    cases aimed
    refine ends_column fun c found same => ?_
    subst same
    cases w with
    | none => exact .revises found rfl .dropWindow
    | some w => exact .revises found rfl .overWindow
  | setSort key direction =>
    cases aimed
    refine ends_setSort fun c order found same => ?_
    subst same
    exact .sort
  | toggleSort key =>
    cases aimed
    simp only [perform, Query.toggleSort, bind_assoc, pure_bind, bind_pure_unit]
    refine ends_column fun c found same => ends_setSort fun c' order found' _ => ?_
    cases found.symm.trans found'
    subst same
    exact .turn
  | setFilter key filter =>
    cases aimed
    refine ends_of_checks (Query.checks_forM fun p _ => Query.checks_check) fun suits => ?_
    refine ends_column fun c found same => ?_
    subst same
    exact .revises found rfl (.filter suits)
  | setHaving key having =>
    cases aimed
    refine ends_column fun c found same => ?_
    subst same
    have checks := Query.checks_forM fun p (_ : having = some p) => checks_having s q c p
    refine ends_of_checks checks fun suits => ?_
    exact .revises found rfl (.having suits)
  | setAlias key name =>
    cases aimed
    refine ends_column fun c found same => ?_
    subst same
    exact .revises found rfl .rename
  | setExpression key expression =>
    cases aimed
    refine ends_column fun c found same => ?_
    subst same
    exact .revises found rfl .express

theorem Ends.step (ends : Ends s q e key (e.outcome s q)) : Step s q e (e.apply s q).columns := by
  unfold apply
  cases h : e.outcome s q <;> rw [h] at ends
  · cases ends with
    | revises found same revised => exact .revise (same ▸ found) revised
  · cases ends with
    | fails _ => exact .drop (List.Sublist.refl _)

theorem apply_step (s : Schema) (q : Query) (e : Edit) : Step s q e (e.apply s q).columns := by
  cases e with
  | upsert c => exact Query.upsert_step .insert fun _ _ => .upsert
  | select key =>
    show Step s q _ (q.select key).2.columns
    cases found : q.column? key with
    | none =>
      have blank : (q.select key).2 = q.upsert (.ofKey key) := by
        simp only [Query.select, found]
        rfl
      rw [blank]
      refine Query.upsert_step .blank fun c old => ?_
      rw [show (Column.ofKey key).key = key from rfl, found] at old
      cases old
    | some c =>
      have shown : (q.select key).2 = q.upsert { c with selected := true } := by
        simp only [Query.select, found, Option.getD_some]
      obtain ⟨-, rfl⟩ := Query.column?_eq_some found
      rw [shown]
      refine Query.upsert_step (fun new => ?_) fun c' old => ?_
      · rw [found] at new
        cases new
      · rw [found] at old
        cases old
        exact .select
  | remove key => exact .drop List.eraseP_sublist
  | clearAll => exact .drop (List.nil_sublist _)
  | setOptions options => exact .drop (List.Sublist.refl _)
  | setAccumulator | setWindow | setSort | toggleSort | setFilter | setHaving | setAlias
  | setExpression =>
    exact (outcome_ends rfl).step

namespace Step

variable {e : Edit} {cs : List Column}

theorem nodup (step : Step s q e cs) (distinct : (q.columns.map (·.key)).Nodup) :
    (cs.map (·.key)).Nodup := by
  have append {d : Column} (new : q.column? d.key = none) :
      ((q.columns ++ [d]).map (·.key)).Nodup := by
    rw [List.map_append, List.nodup_append]
    refine ⟨distinct, List.pairwise_singleton _ _, ?_⟩
    rintro k hk _ hd rfl
    obtain rfl := List.mem_singleton.mp hd
    exact Query.column?_eq_none.mp new hk
  cases step with
  | drop fewer => exact (fewer.map _).nodup distinct
  | insert new => exact append new
  | blank new => exact append new
  | revise _ _ => rwa [Query.map_key_replaceFirst]

theorem forall_mem {P : Column → Prop} (step : Step s q e cs) (all : ∀ c ∈ q.columns, P c)
    (given : ∀ d, e = .upsert d → P d) (empty : ∀ key, P (.ofKey key))
    (keeps : ∀ c d, q.column? c.key = some c → P c → Revises s e c d → P d) :
    ∀ d ∈ cs, P d := by
  cases step with
  | drop fewer => exact fun d hd => all d (fewer.subset hd)
  | @insert d new =>
    intro c hc
    rcases List.mem_append.mp hc with hc | hc
    · exact all c hc
    · exact List.mem_singleton.mp hc ▸ given d rfl
  | @blank key new =>
    intro c hc
    rcases List.mem_append.mp hc with hc | hc
    · exact all c hc
    · exact List.mem_singleton.mp hc ▸ empty key
  | @revise _ c d found revised =>
    intro b hb
    obtain ⟨mem, same⟩ := Query.column?_eq_some found
    rcases Query.mem_replaceFirst hb with rfl | hb
    · exact keeps c b (same ▸ found) (all c mem) revised
    · exact all b hb

end Step

end Edit

end QueryBuilder
