import Mathlib.Data.List.Forall2
import QueryBuilder.Proofs.Pipeline.Stages
import QueryBuilder.Proofs.Sql.Scope

set_option autoImplicit false

namespace QueryBuilder

open Json (Value Object)

inductive Level where
  | rows
  | groups
  deriving DecidableEq

def Column.filters (c : Column) : Level → Bool
  | .rows => c.filter.any (·.isComplete)
  | .groups => c.selected && c.accumulator?.isSome && c.having.any (·.isComplete)

def Sql.Clause.conditions (level : Level) : Sql.Clause → List Sql.Condition
  | .filter conditions => if level = .rows then conditions else []
  | .having conditions => if level = .groups then conditions else []
  | _ => []

def Sql.Clause.isConditional : Sql.Clause → Bool
  | .filter _ | .having _ => true
  | _ => false

def Pipeline.Stage.clauses (level : Level) : Pipeline.Stage → List Object
  | .filter clauses => if level = .rows then clauses else []
  | .having clauses => if level = .groups then clauses else []
  | _ => []

-- A document that says what all of the clauses say, and no more. It may hold no key twice: of two
-- members with one key the first would be lost.
def Pipeline.Conjoins (clauses : List Object) (doc : Object) : Prop :=
  (Object.keys doc).Nodup ∧
    (doc = clauses.flatten ∨ doc = [("$and", .array (clauses.map .object))])

theorem flatMap_filter_of_quiet {α β : Type} {f : α → List β} {p : α → Bool}
    (quiet : ∀ x, p x = false → f x = []) (xs : List α) :
    (xs.filter p).flatMap f = xs.flatMap f := by
  induction xs with
  | nil => rfl
  | cons x xs ih =>
    cases hp : p x with
    | true => simp [hp, ih]
    | false => simp [hp, ih, quiet x hp]

namespace Sql

variable {s : Schema} {d : Dialect} {q : Query} {c : Column}

theorem isSome_ofPredicate (t : Term) (p : Predicate) (type : Option SemanticType) :
    (Condition.ofPredicate? t p type).isSome = p.isComplete := by
  unfold Condition.ofPredicate?
  split
  · next complete => exact complete.symm
  · next incomplete => simpa using incomplete

theorem filter_nonempty {α : Type} (f : List α → Clause) (p : Clause → Bool) (xs : List α) :
    (nonempty f xs).filter p = if p (f xs) then nonempty f xs else [] := by
  cases xs with
  | nil => simp [nonempty]
  | cons x xs => simp [nonempty, List.filter_singleton]

theorem flatMap_nonempty {α β : Type} {f : List α → Clause} {g : Clause → List β}
    (empty : g (f []) = []) (xs : List α) : (nonempty f xs).flatMap g = g (f xs) := by
  cases xs <;> simp [nonempty, empty]

-- The clauses between the joins and the order.
def Clause.isInner : Clause → Bool
  | .filter _ | .groupByAll | .groupBy _ | .having _ => true
  | _ => false

theorem filter_clauses {clauses : List Clause} (h : clauses? s d q = some clauses)
    {keep : Clause → Bool} (inner : ∀ c, keep c = true → c.isInner = true) :
    clauses.filter keep =
      (nonempty Clause.filter (filters s q) ++ grouping q ++
        nonempty Clause.having (havings s q)).filter keep := by
  obtain ⟨root, -, rfl⟩ := clauses_eq h
  have outer {c : Clause} (other : c.isInner = false) : ¬keep c = true := by
    intro kept
    rw [inner c kept] at other
    cases other
  have source : [Clause.select q.options.distinct (items q), .source root].filter keep = [] := by
    rw [List.filter_cons_of_neg (outer rfl), List.filter_cons_of_neg (outer rfl), List.filter_nil]
  have joins : (((JoinGraph.ofSchema s).plan q.referencedEntities).joins.map
      (joinClause q.options.joinType)).filter keep = [] := by
    apply List.filter_eq_nil_iff.mpr
    intro c mem
    obtain ⟨j, -, rfl⟩ := List.mem_map.mp mem
    cases j <;> exact outer rfl
  have order : (ordering q).filter keep = [] := by
    rw [ordering, filter_nonempty, if_neg (outer rfl)]
  have pages : (paging d q).filter keep = [] := by
    apply List.filter_eq_nil_iff.mpr
    intro c mem
    obtain ⟨n, rfl | rfl⟩ := mem_paging mem <;> exact outer rfl
  simp only [List.filter_append, source, joins, order, pages, List.nil_append, List.append_nil]

theorem conditional_clauses {clauses : List Clause} (h : clauses? s d q = some clauses) :
    clauses.filter Clause.isConditional =
      nonempty Clause.filter (filters s q) ++ nonempty Clause.having (havings s q) := by
  have groups : (grouping q).filter Clause.isConditional = [] := by
    unfold grouping
    split
    · rfl
    · exact filter_nonempty _ _ _
  rw [filter_clauses h fun c => by cases c <;> simp [Clause.isConditional, Clause.isInner]]
  simp only [List.filter_append, groups, filter_nonempty, List.append_nil]
  rfl

end Sql

namespace Pipeline

variable {s : Schema} {q : Query} {p : Pipeline}

theorem isSome_clause (path : String) (p : Predicate) (type : Option SemanticType) :
    (clause? path p type).isSome = p.isComplete := by
  unfold clause?
  split
  · next complete =>
    rw [complete]
    cases hop : p.operator <;> rfl
  · next incomplete => simpa using incomplete

theorem clause_cases {path : String} {p : Predicate} {type : Option SemanticType}
    {clause : Object} (made : clause? path p type = some clause) :
    (∃ test : Object, clause = [(path, .object test)]) ∨
      ∃ below above : Object, clause =
        [("$or", .array [.single path (.object below), .single path (.object above)])] := by
  unfold clause? at made
  split at made
  · cases hop : p.operator <;> simp [hop] at made <;> subst made
    case notBetween => exact .inr ⟨_, _, rfl⟩
    all_goals exact .inl ⟨_, rfl⟩
  · cases made

theorem conjoins_merge (clauses : List Object) : Conjoins clauses (merge clauses) := by
  unfold merge
  split
  · next distinct => exact ⟨distinct, .inl rfl⟩
  · exact ⟨List.nodup_singleton _, .inr rfl⟩

end Pipeline

section

variable {s : Schema} {d : Sql.Dialect} {q : Query}

theorem Query.referencedEntities_ne_nil (h : q.columns ≠ []) : q.referencedEntities ≠ [] := by
  obtain ⟨c, mem⟩ := List.exists_mem_of_ne_nil _ h
  apply List.ne_nil_of_mem (a := c.key.entity)
  rw [Query.referencedEntities, List.mem_eraseDups]
  exact List.mem_map_of_mem (Sql.key_mem_keys mem)

end

end QueryBuilder
