import QueryBuilder.Proofs.Agreement.Filters

set_option autoImplicit false

namespace QueryBuilder

open Json (Value Object)

namespace Json

variable {means : String → Value → Prop}

def Holds (means : String → Value → Prop) (o : Object) : Prop := ∀ m ∈ o, means m.1 m.2

-- Of the other keys that join conditions nothing is asked.
def ReadsAnd (means : String → Value → Prop) : Prop :=
  ∀ objects : List Object, (∀ o ∈ objects, (Object.keys o).Nodup) →
    (means "$and" (.array (objects.map .object)) ↔ ∀ o ∈ objects, Holds means o)

theorem holds_nil : Holds means [] := nofun

theorem holds_singleton {key : String} {v : Value} : Holds means [(key, v)] ↔ means key v := by
  simp [Holds]

theorem holds_flatten {clauses : List Object} :
    Holds means clauses.flatten ↔ ∀ clause ∈ clauses, Holds means clause := by
  constructor
  · exact fun all clause mem m inside => all m (List.mem_flatten.mpr ⟨clause, mem, inside⟩)
  · intro each m mem
    obtain ⟨clause, here, inside⟩ := List.mem_flatten.mp mem
    exact each clause here m inside

mutual

/-- Whether a document meets a condition. `passes` says of a path and of a test whether what the
document has at the path passes the test. -/
def meets (passes : String → Value → Bool) : List (String × Value) → Bool
  | [] => true
  | (key, v) :: rest => v.metUnder passes key && meets passes rest

def Value.metUnder (passes : String → Value → Bool) (key : String) : Value → Bool
  | .array items =>
    if key = "$and" then allMet passes items
    else if key = "$or" then anyMet passes items
    else passes key (.array items)
  | v => passes key v

def allMet (passes : String → Value → Bool) : List Value → Bool
  | [] => true
  | v :: rest => v.met passes && allMet passes rest

def anyMet (passes : String → Value → Bool) : List Value → Bool
  | [] => false
  | v :: rest => v.met passes || anyMet passes rest

def Value.met (passes : String → Value → Bool) : Value → Bool
  | .object members => meets passes members
  | _ => false

end

variable {passes : String → Value → Bool}

theorem holds_iff_meets {o : Object} :
    Holds (fun key v => v.metUnder passes key = true) o ↔ meets passes o = true := by
  induction o with
  | nil => simp [meets, holds_nil]
  | cons m rest ih =>
    rw [Holds] at ih ⊢
    rw [List.forall_mem_cons, ih, meets, Bool.and_eq_true]

theorem allMet_eq (items : List Value) : allMet passes items = items.all (Value.met passes) := by
  induction items with
  | nil => rfl
  | cons v rest ih => rw [allMet, ih, List.all_cons]

theorem anyMet_eq (items : List Value) : anyMet passes items = items.any (Value.met passes) := by
  induction items with
  | nil => rfl
  | cons v rest ih => rw [anyMet, ih, List.any_cons]

theorem readsAnd_metUnder (passes : String → Value → Bool) :
    ReadsAnd fun key v => v.metUnder passes key = true := by
  intro objects _
  simp [Value.metUnder, allMet_eq, holds_iff_meets, Value.met]

theorem meets_object {key : String} {o : Object} :
    meets passes [(key, .object o)] = passes key (.object o) := by
  simp [meets, Value.metUnder]

theorem meets_or {items : List Value} :
    meets passes [("$or", .array items)] = items.any (Value.met passes) := by
  simp [meets, Value.metUnder, anyMet_eq]

end Json

def Level.place : Level → Pipeline.Place
  | .rows => .filter
  | .groups => .having

namespace Pipeline

open Json (Holds ReadsAnd holds_nil holds_singleton holds_flatten)

section

variable {means : String → Value → Prop} {clauses : List Object}

theorem nodup_merge (clauses : List Object) : (Object.keys (merge clauses)).Nodup :=
  (conjoins_merge clauses).1

theorem holds_merge (reads : ReadsAnd means)
    (objects : ∀ clause ∈ clauses, (Object.keys clause).Nodup) :
    Holds means (merge clauses) ↔ ∀ clause ∈ clauses, Holds means clause := by
  rcases (conjoins_merge clauses).2 with flat | listed
  · rw [flat]
    exact holds_flatten
  · rw [listed, holds_singleton]
    exact reads clauses objects

-- A stage is left out where it would say nothing, and then no clause says anything.
theorem holds_matching (reads : ReadsAnd means)
    (objects : ∀ clause ∈ clauses, (Object.keys clause).Nodup) {make : List Object → Stage}
    {level : Level} (made : (make clauses).clauses level = clauses) :
    (∀ stage ∈ matching make clauses, Holds means (merge (stage.clauses level))) ↔
      ∀ clause ∈ clauses, Holds means clause := by
  unfold matching
  split
  · next empty =>
    have nothing : merge clauses = [] := List.isEmpty_iff.mp empty
    rw [← holds_merge reads objects, nothing]
    exact ⟨fun _ => holds_nil, fun _ => nofun⟩
  · rw [List.forall_mem_singleton, made]
    exact holds_merge reads objects

end

-- The members of a clause behind those that are there, up to the first key that is taken, and
-- whether none is.
def absorb (merged : Object) : Object → Object × Bool
  | [] => (merged, true)
  | (key, v) :: rest =>
    if key ∈ Object.keys merged then (merged, false) else absorb (merged ++ [(key, v)]) rest

def absorbNext (state : Object × Bool) (clause : Object) : Object × Bool :=
  ((absorb state.1 clause).1, state.2 && (absorb state.1 clause).2)

theorem absorb_of_nodup {merged clause : Object}
    (distinct : (Object.keys (merged ++ clause)).Nodup) :
    absorb merged clause = (merged ++ clause, true) := by
  induction clause generalizing merged with
  | nil => rw [absorb, List.append_nil]
  | cons m rest ih =>
    have new : m.1 ∉ Object.keys merged := by
      rw [Object.keys, List.map_append, List.nodup_append] at distinct
      exact fun mem => distinct.2.2 _ mem _ List.mem_cons_self rfl
    rw [absorb, if_neg new, ih (by simpa using distinct), List.append_assoc, List.singleton_append]

theorem absorb_of_taken {merged clause : Object} (own : (Object.keys merged).Nodup)
    (taken : ¬(Object.keys (merged ++ clause)).Nodup) : (absorb merged clause).2 = false := by
  induction clause generalizing merged with
  | nil => exact absurd (by rwa [List.append_nil]) taken
  | cons m rest ih =>
    rw [absorb]
    split
    · rfl
    · next new =>
      apply ih
      · rw [← Object.insert_of_not_mem new]
        exact Object.nodup_keys_insert own _ _
      · simpa using taken

theorem foldl_absorb_of_nodup {merged : Object} {clauses : List Object} {fresh : Bool}
    (distinct : (Object.keys (merged ++ clauses.flatten)).Nodup) :
    clauses.foldl absorbNext (merged, fresh) = (merged ++ clauses.flatten, fresh) := by
  induction clauses generalizing merged with
  | nil => simp
  | cons clause rest ih =>
    rw [List.flatten_cons, ← List.append_assoc] at distinct ⊢
    have here : (Object.keys (merged ++ clause)).Nodup := by
      rw [Object.keys, List.map_append] at distinct
      exact (List.nodup_append.mp distinct).1
    rw [List.foldl_cons, absorbNext, absorb_of_nodup here, Bool.and_true, ih distinct]

theorem foldl_absorb_of_taken {merged : Object} {clauses : List Object} {fresh : Bool}
    (own : (Object.keys merged).Nodup) (taken : ¬(Object.keys (merged ++ clauses.flatten)).Nodup) :
    (clauses.foldl absorbNext (merged, fresh)).2 = false := by
  have stays (clauses : List Object) (merged : Object) :
      (clauses.foldl absorbNext (merged, false)).2 = false := by
    induction clauses generalizing merged with
    | nil => rfl
    | cons clause rest ih => exact ih _
  induction clauses generalizing merged with
  | nil => exact absurd (by simpa using own) taken
  | cons clause rest ih =>
    rw [List.foldl_cons, absorbNext]
    by_cases here : (Object.keys (merged ++ clause)).Nodup
    · rw [absorb_of_nodup here, Bool.and_true]
      exact ih here (by simpa using taken)
    · rw [absorb_of_taken own here, Bool.and_false]
      exact stays rest _

-- A clause that was begun when a key turned out to be taken is listed whole.
theorem merge_eq_foldl (clauses : List Object) :
    merge clauses =
      if (clauses.foldl absorbNext ([], true)).2 then (clauses.foldl absorbNext ([], true)).1
      else [("$and", .array (clauses.map .object))] := by
  unfold merge
  split
  · next distinct =>
    rw [foldl_absorb_of_nodup distinct]
    rfl
  · next taken =>
    have empty : (Object.keys []).Nodup := .nil
    rw [foldl_absorb_of_taken empty taken]
    rfl

section

variable {s : Schema} {q : Query} {p : Pipeline}

def clausesOf (s : Schema) (root : String) (q : Query) : Level → List Object
  | .rows => q.columns.filterMap (columnClause? s root) ++ (customClause? q.options).toList
  | .groups =>
    if isGrouped q then q.columns.filterMap (havingClause? s (outputs root (isGrouped q) q)) else []

theorem nodup_clause {path : String} {p : Predicate} {type : Option SemanticType} {clause : Object}
    (made : clause? path p type = some clause) : (Object.keys clause).Nodup := by
  obtain ⟨test, rfl⟩ | ⟨below, above, rfl⟩ := clause_cases made <;>
    exact List.pairwise_singleton _ _

theorem nodup_of_value {d : Json.Document} {o : Object} (value : d.value? = some (.object o)) :
    (Object.keys o).Nodup := by
  cases d with
  | object members =>
    obtain ⟨ms, -, same⟩ := Option.map_eq_some_iff.mp value
    cases same
    exact Object.nodup_keys_ofMembers ms
  | array => simp [Json.Document.value?] at value
  | _ => cases value

theorem nodup_customClause {clause : Object} (made : customClause? q.options = some clause) :
    (Object.keys clause).Nodup := by
  obtain ⟨text, -, made⟩ := Option.bind_eq_some_iff.mp made
  split at made
  · next doc read =>
    cases made
    obtain ⟨d, -, value⟩ := Option.bind_eq_some_iff.mp read
    exact nodup_of_value value
  · cases made

theorem nodup_clausesOf {root : String} {level : Level} {clause : Object}
    (mem : clause ∈ clausesOf s root q level) : (Object.keys clause).Nodup := by
  cases level with
  | rows =>
    rcases List.mem_append.mp mem with column | custom
    · obtain ⟨c, -, made⟩ := List.mem_filterMap.mp column
      obtain ⟨p, -, made⟩ := Option.bind_eq_some_iff.mp made
      exact nodup_clause made
    · exact nodup_customClause (Option.mem_toList.mp custom)
  | groups =>
    simp only [clausesOf] at mem
    split at mem
    · obtain ⟨c, -, made⟩ := List.mem_filterMap.mp mem
      obtain ⟨p, -, made⟩ := Option.bind_eq_some_iff.mp made
      obtain ⟨a, -, made⟩ := Option.bind_eq_some_iff.mp made
      obtain ⟨o, -, made⟩ := Option.bind_eq_some_iff.mp made
      exact nodup_clause made
    · cases mem

-- The stages elsewhere have no clauses, and no clauses hold.
theorem holds_stages {means : String → Value → Prop} (h : pipeline? s q = some p) (level : Level) :
    (∀ stage ∈ p.stages, Holds means (merge (stage.clauses level))) ↔
      ∀ stage ∈ generated s p.collection
          ((JoinGraph.ofSchema s).plan q.referencedEntities).joins q level.place,
        Holds means (merge (stage.clauses level)) := by
  rw [← stagesAt_stages h]
  constructor
  · exact fun all stage mem => all stage (mem_stagesAt.mp mem).1
  · intro placed stage mem
    by_cases here : stage.place? = some level.place
    · exact placed stage (mem_stagesAt.mpr ⟨mem, here⟩)
    · have quiet : stage.clauses level = [] := by
        cases level <;> cases stage <;> first | rfl | exact absurd rfl here
      rw [quiet]
      exact holds_nil

theorem holds_clausesOf {means : String → Value → Prop} (reads : ReadsAnd means)
    (h : pipeline? s q = some p) (level : Level) :
    (∀ stage ∈ p.stages, Holds means (merge (stage.clauses level))) ↔
      ∀ clause ∈ clausesOf s p.collection q level, Holds means clause := by
  have objects : ∀ clause ∈ clausesOf s p.collection q level, (Object.keys clause).Nodup :=
    fun _ => nodup_clausesOf
  rw [holds_stages h]
  cases level with
  | rows => exact holds_matching reads objects rfl
  | groups =>
    by_cases grouped : isGrouped q = true
    · simp only [Level.place, generated, havingStages, clausesOf, grouped, if_true] at objects ⊢
      exact holds_matching reads objects rfl
    · simp [Level.place, generated, havingStages, clausesOf, grouped]

theorem merge_conjoins {means : String → Value → Prop} (reads : ReadsAnd means) :
    (∀ clauses : List Object, (∀ clause ∈ clauses, (Object.keys clause).Nodup) →
      (Object.keys (merge clauses)).Nodup ∧
        (Holds means (merge clauses) ↔ ∀ clause ∈ clauses, Holds means clause)) ∧
      ∀ s q p, pipeline? s q = some p → ∀ level,
        (∀ stage ∈ p.stages, Holds means (merge (stage.clauses level))) ↔
          ∀ clause ∈ clausesOf s p.collection q level, Holds means clause :=
  ⟨fun clauses objects => ⟨nodup_merge clauses, holds_merge reads objects⟩,
    fun _ _ _ h level => holds_clausesOf reads h level⟩

-- Both ranges and the condition of its own text are under one key.
def outliers : Query :=
  { columns :=
      [{ Column.ofKey ⟨"employees", "salary"⟩ with filter := some ⟨.notBetween, "10", some "90"⟩ },
        { Column.ofKey ⟨"employees", "age"⟩ with filter := some ⟨.notBetween, "20", some "60"⟩ }]
    options := { Query.empty.options with
      rawWhere := some "\x7b\"$or\": [\x7b\"name\": \"Ann\"\x7d, \x7b\"salary\": 7\x7d]\x7d" } }

theorem outliers_conjoined :
    ReadsAnd (fun key v => v.metUnder (fun path _ => path == "salary") key = true) ∧
      (clausesOf Sql.staff "employees" outliers .rows).map Object.keys = [["$or"], ["$or"], ["$or"]] ∧
      ∃ p, pipeline? Sql.staff outliers = some p ∧ p.collection = "employees" ∧
        ((∀ stage ∈ p.stages, Holds
            (fun key v => v.metUnder (fun path _ => path == "salary") key = true)
            (merge (stage.clauses .rows))) ↔
          ∀ clause ∈ clausesOf Sql.staff p.collection outliers .rows,
            Holds (fun key v => v.metUnder (fun path _ => path == "salary") key = true) clause) := by
  have reads := Json.readsAnd_metUnder fun path _ => path == "salary"
  obtain ⟨p, h⟩ := exists_pipeline (s := Sql.staff) (q := outliers) (by decide) (by decide)
  have root : p.collection = "employees" := (Option.some.inj (head_referencedEntities h)).symm
  exact ⟨reads, by decide +kernel, p, h, root, (merge_conjoins reads).2 _ _ _ h .rows⟩

end

end Pipeline

end QueryBuilder
