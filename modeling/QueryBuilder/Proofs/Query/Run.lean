import QueryBuilder.Proofs.Query.Edit

set_option autoImplicit false

namespace QueryBuilder

variable {s : Schema}

structure Column.Sound (s : Schema) (c : Column) : Prop where
  accumulates : c.having.isSome = true → c.accumulator?.isSome = true
  filters : ∀ p, c.filter = some p → p.Suits ((c.key.typeIn s).getD .string)

structure Query.Sound (s : Schema) (q : Query) : Prop where
  distinct : (q.columns.map (·.key)).Nodup
  columns : ∀ c ∈ q.columns, c.Sound s

theorem Column.window?_of_accumulator? {c : Column} (h : c.accumulator?.isSome = true) :
    c.window?.isSome = false := by
  cases ha : c.aggregation <;> simp_all [accumulator?, window?]

namespace Edit

theorem Revises.sound {e : Edit} {c d : Column} (revised : Revises s e c d)
    (given : ∀ b, e = .upsert b → b.Sound s) (sound : c.Sound s) : d.Sound s := by
  cases revised with
  | upsert => exact given d rfl
  | select | sort | turn | rename | express => exact ⟨sound.accumulates, sound.filters⟩
  | accumulate => exact ⟨fun _ => rfl, sound.filters⟩
  | dropAccumulator | overWindow => exact ⟨nofun, sound.filters⟩
  | dropWindow =>
    refine ⟨fun h => ?_, sound.filters⟩
    -- Where there is a filter on the result there is an accumulator, and so no window to drop.
    have carried := sound.accumulates h
    simpa [Column.accumulator?, Column.window?_of_accumulator? carried] using carried
  | filter suits => exact ⟨sound.accumulates, suits⟩
  | @having _ having suits =>
    refine ⟨fun h => ?_, sound.filters⟩
    obtain ⟨p, hp⟩ := Option.isSome_iff_exists.mp h
    obtain ⟨a, carried, -⟩ := suits p hp
    exact Option.isSome_iff_exists.mpr ⟨a, carried⟩

theorem apply_sound {q : Query} {e : Edit} (given : ∀ b, e = .upsert b → b.Sound s)
    (sound : q.Sound s) : (e.apply s q).Sound s := by
  have step := apply_step s q e
  have blank (key : FieldKey) : (Column.ofKey key).Sound s := ⟨nofun, nofun⟩
  refine ⟨step.nodup sound.distinct, step.forall_mem sound.columns given blank ?_⟩
  intro c d _ here revised
  exact revised.sound given here

theorem run_sound (s : Schema) (es : List Edit) (given : ∀ c, upsert c ∈ es → c.Sound s) :
    (run s es).Sound s := by
  have start : Query.empty.Sound s := ⟨.nil, List.forall_mem_nil _⟩
  unfold run
  generalize Query.empty = q at start ⊢
  induction es generalizing q with
  | nil => exact start
  | cons e es ih =>
    refine ih (fun c hc => given c (List.mem_cons_of_mem _ hc)) _ (apply_sound ?_ start)
    rintro b rfl
    exact given b List.mem_cons_self

def payroll : Schema :=
  { entities :=
      [{ name := "employees"
         fields := [⟨"name", .string, "string", false⟩, ⟨"salary", .number, "decimal", false⟩]
         metadata := [] }]
    relationships := [] }

def name : FieldKey := ⟨"employees", "name"⟩

def salary : FieldKey := ⟨"employees", "salary"⟩

-- The third edit fails for want of an accumulator, and the sixth on its value.
def payEdits : List Edit :=
  [.upsert { Column.ofKey salary with filter := some ⟨.gt, "1000", none⟩ }, .select name,
    .setHaving salary (some ⟨.gt, "5", none⟩), .setAccumulator salary (some .avg),
    .setHaving salary (some ⟨.gt, "2000", none⟩), .setFilter salary (some ⟨.lt, "lots", none⟩),
    .toggleSort salary, .remove name]

theorem payEdits_sound :
    (∀ c, upsert c ∈ payEdits → c.Sound payroll) ∧ (run payroll payEdits).Sound payroll := by
  have given : ∀ c, upsert c ∈ payEdits → c.Sound payroll := by
    intro c hc
    simp only [payEdits, List.mem_cons, List.not_mem_nil, reduceCtorEq, or_false,
      Edit.upsert.injEq] at hc
    subst hc
    refine ⟨nofun, ?_⟩
    rintro p ⟨⟩
    rfl
  exact ⟨given, run_sound payroll payEdits given⟩

end Edit

def Column.HavingSuits (s : Schema) (c : Column) : Prop :=
  ∀ p, c.having = some p →
    ∃ a, c.accumulator? = some a ∧ p.Suits (a.resultType (c.key.typeIn s))

def Query.HavingsSuit (s : Schema) (q : Query) : Prop := ∀ c ∈ q.columns, c.HavingSuits s

namespace Edit

variable {q : Query} {e : Edit} {c d : Column}

-- The accumulator goes to a column that keeps a filter on the result which does not suit it.
def Mismatches (s : Schema) (q : Query) : Edit → Prop
  | setAccumulator key (some a) =>
    ∃ c p, q.column? key = some c ∧ c.having = some p ∧ ¬p.Suits (a.resultType (key.typeIn s))
  | _ => False

theorem Revises.havingSuits (revised : Revises s e c d) (found : q.column? c.key = some c)
    (given : ∀ b, e = .upsert b → b.HavingSuits s) (fits : ¬e.Mismatches s q)
    (suits : c.HavingSuits s) : d.HavingSuits s := by
  cases revised with
  | upsert => exact given d rfl
  | select | sort | turn | filter _ | rename | express => exact suits
  | @accumulate _ a =>
    intro p hp
    refine ⟨a, rfl, Classical.byContradiction fun unsuited => ?_⟩
    exact fits ⟨c, p, found, hp, unsuited⟩
  | dropAccumulator | overWindow => exact nofun
  | dropWindow =>
    intro p hp
    obtain ⟨a, carried, ok⟩ := suits p hp
    have kept : c.window?.isSome = false := Column.window?_of_accumulator? (by rw [carried]; rfl)
    exact ⟨a, by simpa [Column.accumulator?, kept] using carried, ok⟩
  | having now => exact now

theorem apply_havingsSuit (given : ∀ b, e = .upsert b → b.HavingSuits s)
    (fits : ¬e.Mismatches s q) (suits : q.HavingsSuit s) : (e.apply s q).HavingsSuit s := by
  have blank (key : FieldKey) : (Column.ofKey key).HavingSuits s := nofun
  refine (apply_step s q e).forall_mem suits given blank ?_
  intro c d found here revised
  exact revised.havingSuits found given fits here

theorem not_havingsSuit_of_mismatches (h : e.Mismatches s q) :
    ¬(e.apply s q).HavingsSuit s := by
  unfold Mismatches at h
  split at h
  · next key a =>
    obtain ⟨c, p, found, hp, unsuited⟩ := h
    obtain ⟨mem, rfl⟩ := Query.column?_eq_some found
    have here : { c with aggregation := .accumulator a } ∈
        ((setAccumulator c.key (some a)).apply s q).columns := by
      have known : c.key ∈ q.columns.map (·.key) := List.mem_map_of_mem mem
      have left : (setAccumulator c.key (some a)).apply s q =
          q.replace { c with aggregation := .accumulator a } := by
        simp only [apply, outcome, perform, Query.setAccumulator, EStateM.run_bind,
          Query.run_column_some found]
        rfl
      rw [left]
      exact Query.mem_replaceFirst_self known
    intro suits
    obtain ⟨b, carried, ok⟩ := suits _ here p hp
    cases carried
    exact unsuited ok
  · exact h.elim

theorem foldl_apply_havingsSuit (es : List Edit) (suits : q.HavingsSuit s)
    (given : ∀ c, upsert c ∈ es → c.HavingSuits s)
    (fits : ∀ before e, before ++ [e] <+: es → ¬e.Mismatches s (before.foldl (apply s) q)) :
    (es.foldl (apply s) q).HavingsSuit s := by
  induction es generalizing q with
  | nil => exact suits
  | cons e es ih =>
    refine ih (apply_havingsSuit ?_ (fits [] e ?_) suits) ?_ ?_
    · rintro b rfl
      exact given b List.mem_cons_self
    · simp
    · exact fun c hc => given c (List.mem_cons_of_mem _ hc)
    · intro before e' pre
      exact fits (e :: before) e' (List.cons_prefix_cons.mpr ⟨rfl, pre⟩)

theorem run_havingsSuit_iff (s : Schema) (es : List Edit)
    (plain : ∀ c, upsert c ∈ es → c.having = none) :
    (∀ before, before <+: es → (run s before).HavingsSuit s) ↔
      ∀ before e, before ++ [e] <+: es → ¬e.Mismatches s (run s before) := by
  constructor
  · intro all before e pre wrong
    refine not_havingsSuit_of_mismatches wrong ?_
    rw [← run_snoc]
    exact all _ pre
  · intro fits before pre
    refine foldl_apply_havingsSuit before (List.forall_mem_nil _) ?_ ?_
    · intro c hc p hp
      rw [plain c (pre.subset hc)] at hp
      cases hp
    · exact fun start e here => fits start e (here.trans pre)

-- The filter is set on the greatest name, and kept when another accumulator takes its place.
def filteredName (other : Accumulator) : List Edit :=
  [.select name, .setAccumulator name (some .max), .setHaving name (some ⟨.eq, "abc", none⟩),
    .setAccumulator name (some other)]

theorem filteredName_havingsSuit :
    (∀ c, upsert c ∈ filteredName .min → c.having = none) ∧
      ∀ before, before <+: filteredName .min → (run payroll before).HavingsSuit payroll := by
  have plain : ∀ c, upsert c ∈ filteredName .min → c.having = none := by
    intro c hc
    simp [filteredName] at hc
  refine ⟨plain, (run_havingsSuit_iff payroll _ plain).mpr ?_⟩
  intro before e pre
  rcases before with _ | ⟨b₁, _ | ⟨b₂, _ | ⟨b₃, _ | ⟨b₄, rest⟩⟩⟩⟩ <;>
    simp only [filteredName, List.nil_append, List.cons_append, List.cons_prefix_cons] at pre
  · obtain ⟨rfl, -⟩ := pre
    exact id
  · obtain ⟨rfl, rfl, -⟩ := pre
    rintro ⟨c, p, found, hp, -⟩
    cases found
    cases hp
  · obtain ⟨rfl, rfl, rfl, -⟩ := pre
    exact id
  · obtain ⟨rfl, rfl, rfl, rfl, -⟩ := pre
    rintro ⟨c, p, found, hp, unsuited⟩
    cases found
    cases hp
    exact unsuited rfl
  · simp at pre

theorem countedName_not_suited :
    (∀ c, upsert c ∈ filteredName .count → c.having = none) ∧
      ∃ c ∈ (run payroll (filteredName .count)).columns, ∃ p,
        c.accumulator? = some .count ∧ c.having = some p ∧
          p.validate (Accumulator.count.resultType (c.key.typeIn payroll)) =
            .error (.unsuitable (.notANumber "abc")) := by
  refine ⟨?_, { Column.ofKey name with
    aggregation := .accumulator .count
    having := some ⟨.eq, "abc", none⟩ }, List.mem_cons_self, _, rfl, rfl, rfl⟩
  intro c hc
  simp [filteredName] at hc

end Edit

end QueryBuilder
