import QueryBuilder.Proofs.Sql.Scope

set_option autoImplicit false

namespace QueryBuilder

def Query.withOperations (q : Query) (sets : List (SetOperation Query)) : Query :=
  { q with options := { q.options with setOperations := sets } }

namespace Sql

inductive Combination where
  | single (clauses : List String)
  | pair (operator : SetOperator) (all : Bool) (left right : Combination)
  deriving DecidableEq

abbrev Links := List (SetOperator × Bool × Combination)

namespace Combination

def extend (c : Combination) (links : Links) : Combination :=
  links.foldl (fun left link => .pair link.1 link.2.1 left link.2.2) c

def links : Combination → Links
  | .single _ => []
  | .pair operator all left right => left.links ++ [(operator, all, right)]

theorem links_extend (c : Combination) (links : Links) :
    (c.extend links).links = c.links ++ links := by
  induction links generalizing c with
  | nil => exact (List.append_nil _).symm
  | cons link rest ih =>
    have next := ih (.pair link.1 link.2.1 c link.2.2)
    rw [Combination.links, List.append_assoc] at next
    exact next

theorem extend_inj {c : Combination} {links links' : Links} :
    c.extend links = c.extend links' ↔ links = links' := by
  constructor
  · intro same
    have both := congrArg Combination.links same
    rw [links_extend, links_extend] at both
    exact List.append_cancel_left both
  · rintro rfl
    rfl

end Combination

mutual

/-- What a statement means: each operator applies to what stands in front of it and to the whole of
its operand. -/
def Statement.combination (d : Dialect) : Statement → Combination
  | ⟨clauses, operands⟩ =>
    .extend (.single (clauses.map (·.text d))) (operandLinks d operands)

def operandLinks (d : Dialect) : List (SetOperator × Bool × Statement) → Links
  | [] => []
  | (operator, all, s) :: rest => (operator, all, s.combination d) :: operandLinks d rest

end

mutual

def Statement.segments (d : Dialect) : Statement → List (SetOperator × Bool × List String)
  | ⟨_, operands⟩ => operandSegments d operands

def operandSegments (d : Dialect) :
    List (SetOperator × Bool × Statement) → List (SetOperator × Bool × List String)
  | [] => []
  | (operator, all, s) :: rest =>
    (operator, all, s.clauses.map (·.text d)) :: s.segments d ++ operandSegments d rest

end

def singleLink (segment : SetOperator × Bool × List String) : SetOperator × Bool × Combination :=
  (segment.1, segment.2.1, .single segment.2.2)

def Statement.chain (d : Dialect) (s : Statement) : Combination :=
  .extend (.single (s.clauses.map (·.text d))) ((s.segments d).map singleLink)

theorem combination_eq_single {d : Dialect} {s : Statement} {clauses : List String} :
    s.combination d = .single clauses → s.operands = [] := by
  obtain ⟨own, operands⟩ := s
  intro same
  cases operands with
  | nil => rfl
  | cons o rest =>
    have none := congrArg Combination.links same
    rw [Statement.combination, Combination.links_extend] at none
    exact absurd none (List.cons_ne_nil _ _)

theorem combination_of_operands {d : Dialect} {s : Statement} (alone : s.operands = []) :
    s.combination d = .single (s.clauses.map (·.text d)) := by
  obtain ⟨own, operands⟩ := s
  subst alone
  rfl

theorem segments_of_operands {d : Dialect} {s : Statement} (alone : s.operands = []) :
    s.segments d = [] := by
  obtain ⟨own, operands⟩ := s
  subst alone
  rfl

theorem links_eq_iff {d : Dialect} (operands : List (SetOperator × Bool × Statement)) :
    (operandSegments d operands).map singleLink = operandLinks d operands ↔
      ∀ o ∈ operands, o.2.2.operands = [] := by
  induction operands with
  | nil => simp [operandSegments, operandLinks]
  | cons o rest ih =>
    obtain ⟨operator, all, s⟩ := o
    rw [List.forall_mem_cons, ← ih, operandSegments, operandLinks]
    constructor
    · intro same
      obtain ⟨here, behind⟩ := List.cons.inj same
      have alone : s.operands = [] :=
        combination_eq_single (Prod.mk.inj (Prod.mk.inj here).2).2.symm
      rw [segments_of_operands alone] at behind
      exact ⟨alone, behind⟩
    · rintro ⟨alone, behind⟩
      rw [segments_of_operands alone, combination_of_operands alone, ← behind]
      rfl

theorem chain_eq_combination_iff {d : Dialect} (s : Statement) :
    s.chain d = s.combination d ↔ ∀ o ∈ s.operands, o.2.2.operands = [] := by
  obtain ⟨own, operands⟩ := s
  exact Combination.extend_inj.trans (links_eq_iff operands)

def operators : List (String × SetOperator × Bool) :=
  [("UNION", .union, false), ("UNION ALL", .union, true), ("INTERSECT", .intersect, false),
    ("INTERSECT ALL", .intersect, true), ("EXCEPT", .except, false), ("EXCEPT ALL", .except, true)]

def readSegments : List String → List String × List (SetOperator × Bool × List String)
  | [] => ([], [])
  | text :: rest =>
    match operators.lookup text with
    | some (operator, all) =>
      ([], (operator, all, (readSegments rest).1) :: (readSegments rest).2)
    | none => (text :: (readSegments rest).1, (readSegments rest).2)

def readChain (texts : List String) : Combination :=
  .extend (.single (readSegments texts).1) ((readSegments texts).2.map singleLink)

theorem lookup_combine (d : Dialect) (operator : SetOperator) (all : Bool) :
    operators.lookup ((Clause.combine operator all).text d) = some (operator, all) := by
  cases operator <;> cases all <;> rfl

def openings : List (List Char) :=
  ["SEL", "FRO", "INN", "LEF", "RIG", "FUL", "CRO", "WHE", "GRO", "HAV", "ORD", "LIM",
    "OFF"].map String.toList

def Clause.isCombine : Clause → Bool
  | .combine _ _ => true
  | _ => false

theorem clause_opening (d : Dialect) {c : Clause} (plain : c.isCombine = false) :
    (c.text d).toList.take 3 ∈ openings := by
  cases c with
  | combine operator all => cases plain
  | select distinct _ => cases distinct <;> simp [Clause.text, openings]
  | join type _ => cases type <;> simp [Clause.text, openings, JoinType.name]
  | _ => simp [Clause.text, openings]

theorem lookup_clause (d : Dialect) {c : Clause} (plain : c.isCombine = false) :
    operators.lookup (c.text d) = none := by
  have apart : ∀ o ∈ operators, o.1.toList.take 3 ∉ openings := by decide +kernel
  apply List.lookup_eq_none_iff.mpr
  intro o mem
  have ne : c.text d ≠ o.1 := by
    intro same
    exact apart o mem (same ▸ clause_opening d plain)
  simpa using ne

theorem readSegments_clauses (d : Dialect) {clauses : List Clause}
    (plain : ∀ c ∈ clauses, c.isCombine = false) (texts : List String) :
    readSegments (clauses.map (·.text d) ++ texts) =
      (clauses.map (·.text d) ++ (readSegments texts).1, (readSegments texts).2) := by
  induction clauses with
  | nil => rfl
  | cons c clauses ih =>
    rw [List.forall_mem_cons] at plain
    rw [List.map_cons, List.cons_append, readSegments, lookup_clause d plain.1, ih plain.2]
    rfl

theorem clauses_plain {s : Schema} {d : Dialect} {q : Query} {clauses : List Clause}
    (h : clauses? s d q = some clauses) : ∀ c ∈ clauses, c.isCombine = false := by
  intro c mem
  obtain ⟨root, -, rfl⟩ := clauses_eq h
  simp only [List.mem_append, List.mem_cons, List.not_mem_nil, or_false, List.mem_map] at mem
  rcases mem with (((((mem | mem) | mem) | mem) | mem) | mem) | mem
  · rcases mem with rfl | rfl <;> rfl
  · obtain ⟨j, -, rfl⟩ := mem
    cases j <;> rfl
  · rw [(mem_nonempty.mp mem).2]
    rfl
  · unfold grouping at mem
    split at mem
    · rw [List.mem_singleton.mp mem]
      rfl
    · rw [(mem_nonempty.mp mem).2]
      rfl
  · rw [(mem_nonempty.mp mem).2]
    rfl
  · rw [(mem_nonempty.mp mem).2]
    rfl
  · obtain ⟨n, rfl | rfl⟩ := mem_paging mem <;> rfl

section

variable {s : Schema} {d : Dialect}

-- What is read behind a statement starts with an operator, unless nothing is.
def ReadsSegments (s : Schema) (d : Dialect) (q : Query) : Prop :=
  ∀ st, statement? s d q = some st → ∀ texts, (readSegments texts).1 = [] →
    readSegments (st.flatten.map (·.text d) ++ texts) =
      (st.clauses.map (·.text d), st.segments d ++ (readSegments texts).2)

theorem readSegments_operands {sets : List (SetOperation Query)}
    (each : ∀ o ∈ sets, ReadsSegments s d o.query) {texts : List String}
    (opens : (readSegments texts).1 = []) :
    readSegments ((flattenOperands (operands s d sets)).map (·.text d) ++ texts) =
      ([], operandSegments d (operands s d sets) ++ (readSegments texts).2) := by
  induction sets with
  | nil => exact Prod.ext opens rfl
  | cons set sets ih =>
    obtain ⟨here, behind⟩ := List.forall_mem_cons.mp each
    have rest := ih behind
    cases made : statement? s d set.query with
    | none => simpa only [operands, made] using rest
    | some st =>
      have read := here st made _ (congrArg Prod.fst rest)
      simp only [operands, made, flattenOperands, operandSegments, List.cons_append,
        List.map_cons, List.map_append, List.append_assoc]
      rw [readSegments, lookup_combine]
      simp only [read, rest]

theorem readsSegments (s : Schema) (d : Dialect) (q : Query) : ReadsSegments s d q := by
  induction q using Query.induction with
  | step q each =>
    intro st h texts opens
    obtain ⟨clauses, made⟩ := statement_eq h
    obtain ⟨own, _⟩ := st
    subst made
    have behind := readSegments_operands each opens
    rw [Statement.flatten, List.map_append, List.append_assoc,
      readSegments_clauses d (clauses_plain clauses), behind, List.append_nil]
    rfl

theorem readChain_flatten {q : Query} {st : Statement} (h : statement? s d q = some st) :
    readChain (st.flatten.map (·.text d)) = st.chain d := by
  have read := readsSegments s d q st h [] rfl
  rw [List.append_nil] at read
  simp only [readChain, read, readSegments, List.append_nil, Statement.chain]

end

section

variable {s : Schema} {d : Dialect} {q : Query}

theorem operands_eq (sets : List (SetOperation Query)) :
    operands s d sets = sets.filterMap fun o =>
      (statement? s d o.query).map fun st => (o.operator, o.all, st) := by
  induction sets with
  | nil => rfl
  | cons set sets ih =>
    cases made : statement? s d set.query with
    | none => simp only [operands, made, List.filterMap_cons, Option.map_none, ih]
    | some st => simp only [operands, made, List.filterMap_cons, Option.map_some, ih]

theorem operands_eq_nil {sets : List (SetOperation Query)} :
    operands s d sets = [] ↔ ∀ o ∈ sets, statement? s d o.query = none := by
  simp only [operands_eq, List.filterMap_eq_nil_iff, Option.map_eq_none_iff]

theorem flattenOperands_append (os os' : List (SetOperator × Bool × Statement)) :
    flattenOperands (os ++ os') = flattenOperands os ++ flattenOperands os' := by
  induction os with
  | nil => rfl
  | cons o os ih => simp only [List.cons_append, flattenOperands, ih, List.append_assoc]

theorem statement_withOperations {clauses : List Clause} (h : clauses? s d q = some clauses)
    (sets : List (SetOperation Query)) :
    statement? s d (q.withOperations sets) = some ⟨clauses, operands s d sets⟩ := by
  obtain ⟨columns, options⟩ := q
  exact statement_of_clauses h

theorem flattenOperands_hoisted (operator : SetOperator) (all : Bool) {b : Query}
    (shown : (statement? s d b).isSome = true) (before after : List (SetOperation Query)) :
    flattenOperands (operands s d (before ++ ⟨operator, all, b⟩ :: after)) =
      flattenOperands (operands s d (before ++
        ⟨operator, all, b.withOperations []⟩ :: (b.options.setOperations ++ after))) := by
  obtain ⟨st, made⟩ := Option.isSome_iff_exists.mp shown
  obtain ⟨clauses, inner⟩ := statement_eq made
  obtain ⟨own, _⟩ := st
  subst inner
  have alone := statement_withOperations clauses []
  simp only [operands_eq, List.filterMap_append, List.filterMap_cons, made, alone,
    Option.map_some, flattenOperands_append, flattenOperands, Statement.flatten,
    List.append_assoc, List.cons_append, List.filterMap_nil, List.append_nil]

theorem nested_iff {st : Statement} (h : statement? s d q = some st) :
    (∀ o ∈ st.operands, o.2.2.operands = []) ↔
      ∀ o ∈ q.options.setOperations, ∀ inner, statement? s d o.query = some inner →
        ∀ o' ∈ o.query.options.setOperations, statement? s d o'.query = none := by
  rw [(statement_eq h).2, operands_eq, List.forall_mem_filterMap]
  constructor
  · intro flat o mem inner made
    have none := flat o mem (o.operator, o.all, inner) (by rw [made]; rfl)
    rw [(statement_eq made).2] at none
    exact operands_eq_nil.mp none
  · intro flat o mem operand found
    obtain ⟨inner, made, rfl⟩ := Option.map_eq_some_iff.mp found
    rw [(statement_eq made).2]
    exact operands_eq_nil.mpr (flat o mem inner made)

structure ReadFromLeft (s : Schema) (d : Dialect) (q : Query) (st : Statement) : Prop where
  text : ∀ pretty, compile s ⟨d, pretty⟩ q =
    (if pretty then "\n" else " ").intercalate (st.flatten.map (·.text d))
  chain : readChain (st.flatten.map (·.text d)) = st.chain d
  tree_iff : readChain (st.flatten.map (·.text d)) = st.combination d ↔
    ∀ o ∈ q.options.setOperations, ∀ inner, statement? s d o.query = some inner →
      ∀ o' ∈ o.query.options.setOperations, statement? s d o'.query = none
  -- The operands of an operand may as well stand behind it.
  hoists : ∀ before operator all b after,
    q.options.setOperations = before ++ ⟨operator, all, b⟩ :: after →
    (statement? s d b).isSome = true →
    ∀ pretty, compile s ⟨d, pretty⟩ q = compile s ⟨d, pretty⟩
      (q.withOperations
        (before ++ ⟨operator, all, b.withOperations []⟩ :: (b.options.setOperations ++ after)))

theorem statement_readFromLeft {st : Statement} (h : statement? s d q = some st) :
    ReadFromLeft s d q st := by
  have read := readChain_flatten h
  refine ⟨fun pretty => ?_, read, ?_, ?_⟩
  · rw [compile_of_statement h]
    rfl
  · rw [read, chain_eq_combination_iff, nested_iff h]
  · intro before operator all b after sets shown pretty
    obtain ⟨clauses, inner⟩ := statement_eq h
    obtain ⟨own, _⟩ := st
    subst inner
    have hoisted := flattenOperands_hoisted operator all shown before after
    rw [compile_of_statement h, compile_of_statement (statement_withOperations clauses _)]
    simp only [Statement.text, Statement.flatten, sets, hoisted]

end

def listing (k : FieldKey) (sets : List (SetOperation Query)) : Query :=
  Query.withOperations ⟨[.ofKey k], .default⟩ sets

def listingClauses (k : FieldKey) : List Clause :=
  [.select false [⟨.operand (.field k), none⟩], .source k.entity]

theorem statement_listing (d : Dialect) (k : FieldKey) (sets : List (SetOperation Query)) :
    statement? ⟨[], []⟩ d (listing k sets) =
      some ⟨listingClauses k, operands ⟨[], []⟩ d sets⟩ := by
  have made : clauses? ⟨[], []⟩ d (listing k sets) = some (listingClauses k) :=
    clauses_alone rfl rfl (by simp [listing, Query.withOperations, Column.ofKey])
  exact statement_of_clauses made

def names : FieldKey := ⟨"employees", "name"⟩

def cities : FieldKey := ⟨"offices", "city"⟩

def titles : FieldKey := ⟨"departments", "name"⟩

def taken : SetOperation Query := ⟨.except, false, listing titles []⟩

-- What is in one of two lists, without what is in a third.
def withoutTaken : Query := listing names [⟨.union, false, listing cities []⟩, taken]

-- What is in a list, and what is in another without what is in a third.
def withFreeCities : Query := listing names [⟨.union, false, listing cities [taken]⟩]

theorem withoutTaken_readFromLeft :
    (∃ st, statement? ⟨[], []⟩ .generic withoutTaken = some st ∧
      readChain (st.flatten.map (·.text .generic)) = st.combination .generic) ∧
      ∀ pretty, compile ⟨[], []⟩ ⟨.generic, pretty⟩ withFreeCities =
        compile ⟨[], []⟩ ⟨.generic, pretty⟩ withoutTaken := by
  have flat := statement_listing .generic names [⟨.union, false, listing cities []⟩, taken]
  have nested := statement_listing .generic names [⟨.union, false, listing cities [taken]⟩]
  have shown : (statement? ⟨[], []⟩ .generic (listing cities [taken])).isSome = true := by
    rw [statement_listing]
    rfl
  constructor
  · refine ⟨_, flat, (statement_readFromLeft flat).tree_iff.mpr ?_⟩
    intro o mem
    simp only [listing, Query.withOperations, taken, List.mem_cons, List.not_mem_nil,
      or_false] at mem
    rcases mem with rfl | rfl <;> exact fun _ _ => nofun
  · exact (statement_readFromLeft nested).hoists [] .union false (listing cities [taken]) [] rfl
      shown

theorem withFreeCities_regrouped :
    compile ⟨[], []⟩ ⟨.generic, false⟩ withFreeCities =
        "SELECT employees.name FROM employees UNION SELECT offices.city FROM offices " ++
          "EXCEPT SELECT departments.name FROM departments" ∧
      compile ⟨[], []⟩ ⟨.generic, false⟩ withoutTaken =
        compile ⟨[], []⟩ ⟨.generic, false⟩ withFreeCities ∧
      ∃ nested flat, statement? ⟨[], []⟩ .generic withFreeCities = some nested ∧
        statement? ⟨[], []⟩ .generic withoutTaken = some flat ∧
        readChain (nested.flatten.map (·.text .generic)) ≠ nested.combination .generic ∧
        nested.combination .generic ≠ flat.combination .generic := by
  have nested : statement? ⟨[], []⟩ .generic withFreeCities = some ⟨listingClauses names,
      [(.union, false, ⟨listingClauses cities,
        [(.except, false, ⟨listingClauses titles, []⟩)]⟩)]⟩ := by
    simp only [withFreeCities, taken, statement_listing, operands]
  have flat : statement? ⟨[], []⟩ .generic withoutTaken = some ⟨listingClauses names,
      [(.union, false, ⟨listingClauses cities, []⟩),
        (.except, false, ⟨listingClauses titles, []⟩)]⟩ := by
    simp only [withoutTaken, taken, statement_listing, operands]
  refine ⟨?_, ?_, _, _, nested, flat, by decide +kernel, by decide +kernel⟩
  · rw [compile_of_statement nested]
    decide +kernel
  · rw [compile_of_statement nested, compile_of_statement flat]
    decide +kernel

end Sql

end QueryBuilder
