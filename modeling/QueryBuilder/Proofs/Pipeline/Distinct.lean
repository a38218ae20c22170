import QueryBuilder.Proofs.Agreement.Grouping

set_option autoImplicit false

namespace QueryBuilder

open Json (Value Object)

namespace Json

section

-- Whether an operator looks at the document by itself, beside its arguments.
variable (looks : String → Bool)

mutual

-- The references in a value, and `none` for an operator that looks at the document by itself.
def Value.reads : Value → List (Option String)
  | .null | .bool _ | .number _ => []
  | .string s => if Text.hasInitial '$' s then [some s] else []
  | .array items => itemsRead items
  | .object members => membersRead members

def itemsRead : List Value → List (Option String)
  | [] => []
  | v :: rest => v.reads ++ itemsRead rest

def membersRead : List (String × Value) → List (Option String)
  | [] => []
  | (key, v) :: rest => (if looks key then [none] else []) ++ v.reads ++ membersRead rest

end

end

-- Induction on the value, with a case for each list of parts.
theorem hasInitial_of_mem_reads {looks : String → Bool} {v : Value} {r : String}
    (mem : some r ∈ v.reads looks) : Text.hasInitial '$' r = true := by
  induction v using Value.induction with
  | null | bool | number => simp [Value.reads] at mem
  | string s =>
    rw [Value.reads] at mem
    split at mem
    · next initial =>
      cases List.mem_singleton.mp mem
      exact initial
    · cases mem
  | array items each =>
    rw [Value.reads] at mem
    induction items with
    | nil => simp [itemsRead] at mem
    | cons v rest ih =>
      obtain ⟨here, behind⟩ := List.forall_mem_cons.mp each
      rw [itemsRead] at mem
      exact (List.mem_append.mp mem).elim here (ih behind)
  | object members each =>
    rw [Value.reads] at mem
    induction members with
    | nil => simp [membersRead] at mem
    | cons m rest ih =>
      obtain ⟨here, behind⟩ := List.forall_mem_cons.mp each
      rw [membersRead, List.append_assoc] at mem
      rcases List.mem_append.mp mem with own | mem
      · split at own <;> simp at own
      · exact (List.mem_append.mp mem).elim here (ih behind)

end Json

namespace Pipeline

-- Whether what a reference stands for is a part of what another one stands for, or all of it.
def PartOf (whole part : String) : Prop :=
  part = whole ∨ (whole ++ ".").toList <+: part.toList

instance (whole part : String) : Decidable (PartOf whole part) :=
  inferInstanceAs (Decidable (_ ∨ _))

theorem PartOf.trans {a b c : String} (first : PartOf a b) (second : PartOf b c) : PartOf a c := by
  rcases second with rfl | second
  · exact first
  rcases first with rfl | first
  · exact .inr second
  · refine .inr (first.trans (.trans ?_ second))
    rw [String.toList_append]
    exact List.prefix_append _ _

theorem hasInitial_dollar (path : String) : Text.hasInitial '$' ("$" ++ path) = true := by
  simp [Text.hasInitial]

theorem PartOf.hasInitial {path r : String} (part : PartOf ("$" ++ path) r) :
    Text.hasInitial '$' r = true := by
  rcases part with rfl | ⟨rest, same⟩
  · exact hasInitial_dollar path
  · simp [Text.hasInitial, ← same]

def Covers (path : String) : Option String → Prop
  | none => False
  | some r => PartOf ("$" ++ path) r

instance (path : String) : DecidablePred (Covers path)
  | none => inferInstanceAs (Decidable False)
  | some r => inferInstanceAs (Decidable (PartOf ("$" ++ path) r))

/-- A way to compute values over documents: a value from what it reads, and a part from its
whole. -/
structure Evaluation (looks : String → Bool) (Doc Val : Type) where
  eval : Value → Doc → Val
  of_reads : ∀ v a b, none ∉ v.reads looks →
    (∀ r, some r ∈ v.reads looks → eval (.string r) a = eval (.string r) b) → eval v a = eval v b
  of_part : ∀ path r a b, PartOf ("$" ++ path) r →
    eval (.string ("$" ++ path)) a = eval (.string ("$" ++ path)) b →
    eval (.string r) a = eval (.string r) b

def Determined (looks : String → Bool) (paths : List String) (v : Value) : Prop :=
  ∀ (Doc Val : Type) (E : Evaluation looks Doc Val) (a b : Doc),
    (∀ path ∈ paths,
      E.eval (.string ("$" ++ path)) a = E.eval (.string ("$" ++ path)) b) →
    E.eval v a = E.eval v b

section

variable {looks : String → Bool} {paths : List String} {v : Value}

theorem reads_string {s : String} (initial : Text.hasInitial '$' s = true) :
    (Value.string s).reads looks = [some s] := by
  simp [Value.reads, initial]

def found (looks : String → Bool) (v : Value) (doc : Prop × (String → Prop)) :
    Prop × (String → Prop) :=
  (none ∈ v.reads looks ∧ doc.1, fun t => ∃ r, some r ∈ v.reads looks ∧ PartOf r t ∧ doc.2 t)

theorem found_string {s : String} (initial : Text.hasInitial '$' s = true)
    (doc : Prop × (String → Prop)) :
    found looks (.string s) doc = (False, fun t => PartOf s t ∧ doc.2 t) := by
  simp [found, reads_string initial]

-- The evaluation that keeps apart whatever may be kept apart.
def Evaluation.free (looks : String → Bool) :
    Evaluation looks (Prop × (String → Prop)) (Prop × (String → Prop)) where
  eval := found looks
  of_reads := by
    intro v a b alone agree
    have each (r t : String) (mem : some r ∈ v.reads looks) :
        (PartOf r t ∧ a.2 t) ↔ (PartOf r t ∧ b.2 t) := by
      have same := agree r mem
      rw [found_string (Json.hasInitial_of_mem_reads mem),
        found_string (Json.hasInitial_of_mem_reads mem)] at same
      exact iff_of_eq (congrFun (Prod.mk.inj same).2 t)
    refine Prod.ext ?_ ?_
    · simp [found, alone]
    · funext t
      exact propext (exists_congr fun r => and_congr_right fun mem => each r t mem)
  of_part := by
    intro path r a b part same
    rw [found_string (hasInitial_dollar path), found_string (hasInitial_dollar path)] at same
    rw [found_string part.hasInitial, found_string part.hasInitial]
    refine Prod.ext rfl (funext fun t => propext (and_congr_right fun inner => ?_))
    have whole := iff_of_eq (congrFun (Prod.mk.inj same).2 t)
    simpa [part.trans inner] using whole

theorem covered_of_determined (determined : Determined looks paths v) {r : Option String}
    (mem : r ∈ v.reads looks) : ∃ path ∈ paths, Covers path r := by
  -- An empty document, and one that holds nothing but `r`.
  have apart := determined _ _ (.free looks) (False, fun _ => False)
    (r = none, fun t => r = some t)
  by_contra missed
  have uncovered : ∀ path ∈ paths, ¬Covers path r := fun path here covers =>
    missed ⟨path, here, covers⟩
  have same : found looks v (False, fun _ => False) =
      found looks v (r = none, fun t => r = some t) := by
    refine apart fun path here => ?_
    have initial := hasInitial_dollar path
    refine (found_string initial _).trans (.trans ?_ (found_string initial _).symm)
    refine Prod.ext rfl (funext fun t => propext ?_)
    constructor
    · exact fun held => held.2.elim
    · rintro ⟨part, rfl⟩
      exact (uncovered path here part).elim
  cases r with
  | none =>
    have held := iff_of_eq (Prod.mk.inj same).1
    exact (held.mpr ⟨mem, rfl⟩).2
  | some r =>
    have held := iff_of_eq (congrFun (Prod.mk.inj same).2 r)
    obtain ⟨_, _, _, impossible⟩ := held.mpr ⟨r, mem, .inl rfl, rfl⟩
    exact impossible

theorem determined_iff :
    Determined looks paths v ↔ ∀ r ∈ v.reads looks, ∃ path ∈ paths, Covers path r := by
  constructor
  · exact fun determined r mem => covered_of_determined determined mem
  · intro covered Doc Val E a b agree
    apply E.of_reads
    · intro mem
      obtain ⟨path, -, none⟩ := covered none mem
      exact none
    · intro r mem
      obtain ⟨path, here, part⟩ := covered (some r) mem
      exact E.of_part path r a b part (agree path here)

theorem determined_dollar {path : String} (mem : path ∈ paths) :
    Determined looks paths (.string ("$" ++ path)) :=
  fun _ _ _ _ _ agree => agree path mem

end

def Output.source (root : String) (o : Output) : Operand :=
  match o.role with
  | .window _ => .path o.name
  | _ => .ofColumn root o.column

def plainPaths (root : String) (q : Query) : List String :=
  (q.selected.filter (·.isGroupCandidate)).map fun c => fieldPath root c.key

-- A statement compares whole rows, but a pipeline makes a group of all documents that agree in the
-- plain columns and takes its windows and expressions from one of them.
structure GroupsRows (looks : String → Bool) (q : Query) (p : Pipeline) (id : GroupId)
    (fields : List (String × Reduction)) : Prop where
  keyed : KeyedBy id.render (plainPaths p.collection q)
  carried : fields = ((outputs p.collection true q).filter (!·.isGroupKey)).map fun o =>
    (o.name, .first (o.source p.collection))
  computed : ∀ o ∈ outputs p.collection true q, ∀ w, o.role = .window w →
    ∃ stage, .window stage ∈ p.stages ∧ stage.window = w ∧ stage.name = o.name
  plain : ∀ o ∈ outputs p.collection true q, o.column.isGroupCandidate = true →
    Determined looks (plainPaths p.collection q) (o.source p.collection).render
  keeps_iff : (∀ o ∈ outputs p.collection true q,
      Determined looks (plainPaths p.collection q) (o.source p.collection).render) ↔
    ∀ o ∈ outputs p.collection true q, ∀ r ∈ (o.source p.collection).render.reads looks,
      ∃ path ∈ plainPaths p.collection q, Covers path r

section

variable {s : Schema} {q : Query} {p : Pipeline} {root : String} {o : Output}

theorem paths_groupKeyOutputs (root : String) (q : Query) :
    ((groupKeyOutputs (outputs root true q)).map fun o => fieldPath root o.column.key) =
      plainPaths root q := by
  have columns : (groupKeyOutputs (outputs root true q)).map (·.column) =
      q.selected.filter (·.isGroupCandidate) := by
    rw [← column_outputs root true q, List.filter_map, groupKeyOutputs,
      List.filter_congr fun o => isGroupKey_outputs]
    rfl
  rw [plainPaths, ← columns, List.map_map]
  rfl

theorem not_accumulator (plain : q.hasAccumulator = false) (h : o ∈ outputs root true q)
    (a : Accumulator) : o.role ≠ .accumulator a := by
  intro role
  have shown := column_mem_selected h
  have none := List.any_eq_false.mp plain o.column shown
  rw [role_outputs h, Role.of] at role
  split at role
  · next agg => simp [Column.accumulator?, agg] at none
  all_goals cases role

theorem reduction_eq (plain : q.hasAccumulator = false) (h : o ∈ outputs root true q) :
    reduction? root o =
      if o.isGroupKey then none else some (o.name, .first (o.source root)) := by
  rcases role_cases h with ⟨a, role, -⟩ | ⟨w, role, -⟩ | ⟨text, role, -, own⟩ | ⟨role, -, -⟩
  · exact absurd role (not_accumulator plain h a)
  · simp [reduction?, role, Output.isGroupKey, Output.source]
  · simp [reduction?, role, Output.isGroupKey, Output.source, Operand.ofColumn, own]
  · simp [reduction?, role, Output.isGroupKey]

theorem reductions_eq (plain : q.hasAccumulator = false) :
    (outputs root true q).filterMap (reduction? root) =
      ((outputs root true q).filter (!·.isGroupKey)).map fun o =>
        (o.name, .first (o.source root)) := by
  rw [List.filterMap_congr fun o mem => reduction_eq plain mem]
  generalize outputs root true q = os
  induction os with
  | nil => rfl
  | cons o os ih => cases key : o.isGroupKey <;> simp [key, ih]

theorem source_plain (h : o ∈ outputs root true q) (plain : o.column.isGroupCandidate = true) :
    (o.source root).render = .string ("$" ++ fieldPath root o.column.key) := by
  rcases role_cases h with ⟨a, -, agg⟩ | ⟨w, -, agg⟩ | ⟨text, -, -, own⟩ | ⟨role, -, own⟩
  · simp [Column.isGroupCandidate, agg] at plain
  · simp [Column.isGroupCandidate, agg] at plain
  · simp [Column.isGroupCandidate, own] at plain
  · simp [Output.source, role, Operand.ofColumn, own, Operand.render, reference]

theorem window_mem_stages (h : pipeline? s q = some p) (grouped : isGrouped q = true)
    (mem : o ∈ outputs p.collection true q) {w : Window} (role : o.role = .window w) :
    ∃ stage, .window stage ∈ p.stages ∧ stage.window = w ∧ stage.name = o.name := by
  refine ⟨⟨w, w.partitionBy.map (fieldPath p.collection),
    w.orderBy.map fun k => (fieldPath p.collection k.key, k.direction),
    .ofColumn p.collection o.column, o.name⟩, ?_, rfl, rfl⟩
  refine (mem_stages_iff h .window rfl).mpr ?_
  simp only [generated, grouped]
  exact List.mem_filterMap.mpr ⟨o, mem, by simp only [windowStage?, role]⟩

theorem group_groupsRows (looks : String → Bool) (h : pipeline? s q = some p)
    (distinct : q.options.distinct = true) (plain : q.hasAccumulator = false) :
    ∃ id fields, stagesAt .group p.stages = [.group id fields] ∧
      GroupsRows looks q p id fields := by
  have grouped : isGrouped q = true := by simp [isGrouped, distinct]
  have keyed := groupId_keyedBy p.collection (nodup_groupKeyNames p.collection q)
  rw [paths_groupKeyOutputs] at keyed
  refine ⟨_, (outputs p.collection true q).filterMap (reduction? p.collection), ?_, keyed,
    reductions_eq plain, ?_, ?_, ?_⟩
  · rw [stagesAt_stages h]
    simp only [generated, grouped, if_true]
  · exact fun o mem w role => window_mem_stages h grouped mem role
  · intro o mem candidate
    rw [source_plain mem candidate]
    refine determined_dollar (List.mem_map.mpr ⟨o.column, ?_, rfl⟩)
    exact List.mem_filter.mpr ⟨column_mem_selected mem, candidate⟩
  · exact forall₂_congr fun o _ => determined_iff

end

theorem distinct_groupsRows (looks : String → Bool) (s : Schema) {q : Query}
    (distinct : q.options.distinct = true) (shown : q.selected ≠ [])
    (plain : q.hasAccumulator = false) :
    ∃ p id fields, pipeline? s q = some p ∧ stagesAt .group p.stages = [.group id fields] ∧
      GroupsRows looks q p id fields := by
  obtain ⟨c, mem⟩ := List.exists_mem_of_ne_nil _ shown
  have columns : q.columns ≠ [] := List.ne_nil_of_mem (List.mem_filter.mp mem).1
  have nonempty : q.isEmpty = false := by simp [Query.isEmpty, shown]
  obtain ⟨p, h⟩ := exists_pipeline (s := s) nonempty (Query.referencedEntities_ne_nil columns)
  obtain ⟨id, fields, group, rows⟩ := group_groupsRows looks h distinct plain
  exact ⟨p, id, fields, h, group, rows⟩

-- Two plain columns, one that is computed from the first of them, and one that is always the same.
def roster : Query :=
  { columns :=
      [.ofKey ⟨"employees", "name"⟩, .ofKey ⟨"departments", "name"⟩,
        { Column.ofKey ⟨"employees", "title"⟩ with
          rawExpression := some "\x7b\"$toUpper\": \"$name\"\x7d" },
        { Column.ofKey ⟨"employees", "kind"⟩ with rawExpression := some "person" }]
    options := { Query.empty.options with distinct := true } }

theorem roster_keepsRows :
    ∃ p id fields, pipeline? ledger roster = some p ∧
      stagesAt .group p.stages = [.group id fields] ∧
      (∀ o ∈ outputs p.collection true roster,
        Determined (· == "$getField") (plainPaths p.collection roster)
          (o.source p.collection).render) ∧
      GroupsRows (· == "$getField") roster p id fields := by
  obtain ⟨p, id, fields, h, group, rows⟩ :=
    distinct_groupsRows (· == "$getField") ledger (q := roster) rfl (by decide) (by decide)
  have root : p.collection = "employees" := (Option.some.inj (head_referencedEntities h)).symm
  refine ⟨p, id, fields, h, group, rows.keeps_iff.mpr ?_, rows⟩
  rw [root]
  decide +kernel

def standing : Window := ⟨.rank, [], [⟨⟨"employees", "salary"⟩, .desc⟩], none⟩

-- Of employees with one name only one keeps the rank.
def standings : Query :=
  { columns :=
      [.ofKey ⟨"employees", "name"⟩,
        { Column.ofKey ⟨"employees", "salary"⟩ with aggregation := .window standing }]
    options := { Query.empty.options with distinct := true } }

theorem standings_losesRows :
    Sql.compile ⟨[], []⟩ ⟨.generic, false⟩ standings =
        "SELECT DISTINCT employees.name, RANK() OVER (ORDER BY employees.salary DESC) " ++
          "FROM employees" ∧
      (∃ p, pipeline? ⟨[], []⟩ standings = some p ∧
        (stagesAt .group p.stages).map Stage.render =
          [.single "$group" (.object [("_id", .string "$name"),
            ("rank_salary", .single "$first" (.string "$rank_salary"))])]) ∧
      ∃ o ∈ outputs "employees" true standings,
        (o.source "employees").render = .string "$rank_salary" ∧
        ∀ looks, ¬Determined looks ["name"] (o.source "employees").render := by
  refine ⟨?_, ?_, ?_⟩
  · have made : Sql.clauses? ⟨[], []⟩ .generic standings =
        some [.select true [⟨.operand (.field ⟨"employees", "name"⟩), none⟩,
          ⟨.window standing (.field ⟨"employees", "salary"⟩), none⟩], .source "employees"] :=
      Sql.clauses_alone rfl rfl (by simp [standings, Column.ofKey])
    rw [Sql.compile_of_statement (Sql.statement_of_clauses made)]
    decide +kernel
  · obtain ⟨p, h⟩ := exists_pipeline (s := ⟨[], []⟩) (q := standings) (by decide) (by decide)
    have root : p.collection = "employees" := (Option.some.inj (head_referencedEntities h)).symm
    refine ⟨p, h, ?_⟩
    rw [stagesAt_stages h, root]
    rfl
  · refine ⟨⟨standings.columns[1], .window standing, "rank_salary", "rank_salary"⟩,
      List.mem_cons_of_mem _ List.mem_cons_self, rfl, fun looks determined => ?_⟩
    obtain ⟨path, mem, covers⟩ := determined_iff.mp determined (some "$rank_salary")
      List.mem_cons_self
    cases List.mem_singleton.mp mem
    exact absurd covers (by decide +kernel)

end Pipeline

end QueryBuilder
