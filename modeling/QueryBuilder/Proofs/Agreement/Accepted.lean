import QueryBuilder.Proofs.Agreement.Filters
import QueryBuilder.Proofs.Query.Validation

set_option autoImplicit false

namespace QueryBuilder

open Json (Value Object)

-- A test for a missing value compares with nothing, and a pattern is a text for every field.
def Operator.comparesValues (op : Operator) : Bool := op.needsValue && !op.isPattern

variable {p : Predicate} {type : SemanticType}

namespace Predicate

theorem operands_of_needsNoValue (none : p.operator.needsValue = false) : p.operands = [] := by
  have single : p.operator.takesList = false := by
    generalize p.operator = op at none
    cases op <;> first | rfl | cases none
  simp [operands, none, single]

theorem exists_second (complete : p.isComplete = true)
    (range : p.operator.needsSecondValue = true) : ∃ second, p.second? = some second :=
  Option.isSome_iff_exists.mp (isSome_second complete range)

theorem checkValue_eq_ok_iff {raw : String} :
    checkValue type raw = .ok () ↔ ∃ l, Literal.coerce type raw = .ok l := by
  unfold checkValue
  cases Literal.coerce type raw <;> simp

theorem validate_iff_coerce :
    p.validate type = .ok () ↔
      p.isComplete = true ∧
        (p.operator.comparesValues = true →
          ∀ raw ∈ p.operands, ∃ l, Literal.coerce type raw = .ok l) := by
  rw [validate_eq_ok_iff]
  simp only [checkValue_eq_ok_iff, Operator.comparesValues, Bool.and_eq_true, Bool.not_eq_true']
  cases needs : p.operator.needsValue with
  | true => simp
  | false => simp [operands_of_needsNoValue needs]

end Predicate

theorem Literal.ofRaw_of_coerce {raw : String} {l : Literal} (meant : coerce type raw = .ok l) :
    ofRaw (some type) raw = l := by
  simp [ofRaw, coerceOrText, meant]

def Sql.Condition.literals : Condition → List Literal
  | .compare _ _ value => [value]
  | .among _ _ values => values
  | .range _ _ low high => [low, high]
  | .like _ _ _ | .test _ _ | .subquery _ | .raw _ => []

theorem Sql.literals_ofPredicate {t : Term} {known : Option SemanticType} {condition : Condition}
    (compares : p.operator.comparesValues = true)
    (made : Condition.ofPredicate? t p known = some condition) :
    condition.literals = p.operands.map (.ofRaw known) := by
  unfold Condition.ofPredicate? at made
  split at made
  · next complete =>
    cases made
    rw [Predicate.operands_eq]
    cases hop : p.operator <;> rw [hop] at compares
    case between | notBetween =>
      obtain ⟨second, given⟩ := Predicate.exists_second complete (by rw [hop]; rfl)
      simp [Condition.literals, given]
    case like | notLike | isNull | isNotNull | «exists» => cases compares
    all_goals rfl
  · cases made

namespace Pipeline

-- The tests of a clause, of all alternatives if it has some.
def testsOf : Object → Object
  | [("$or", .array alternatives)] => alternatives.flatMap fun
    | .object clause => clause.flatMap membersOf
    | _ => []
  | clause => clause.flatMap membersOf
where
  membersOf : String × Value → Object
    | (_, .object tests) => tests
    | _ => []

def comparands (clause : Object) : List Value :=
  (testsOf clause).flatMap fun
    | ("$in", .array items) | ("$nin", .array items) => items
    | (_, v) => [v]

theorem testsOf_object (path : String) (tests : Object) :
    testsOf [(path, .object tests)] = tests := by
  simp [testsOf, testsOf.membersOf]

theorem comparands_clause {path : String} {known : Option SemanticType} {clause : Object}
    (compares : p.operator.comparesValues = true) (made : clause? path p known = some clause) :
    comparands clause = p.operands.map (rawValue known) := by
  unfold clause? at made
  split at made
  · next complete =>
    rw [Predicate.operands_eq]
    cases hop : p.operator <;> rw [hop] at compares <;> simp [hop] at made
    case between =>
      obtain ⟨second, given⟩ := Predicate.exists_second complete (by rw [hop]; rfl)
      subst made
      simp [comparands, testsOf_object, given]
    case notBetween =>
      obtain ⟨second, given⟩ := Predicate.exists_second complete (by rw [hop]; rfl)
      subst made
      simp [comparands, testsOf, testsOf.membersOf, Value.single, given]
    case like | notLike | isNull | isNotNull | «exists» => cases compares
    all_goals
      subst made
      simp [comparands, Value.single, testsOf_object]
  · cases made

end Pipeline

/-- Both compilers make a condition of the filter, with the meanings of its values for the field. -/
def Predicate.KeepsMeaning (p : Predicate) (type : SemanticType) (t : Sql.Term) (path : String) :
    Prop :=
  ∃ condition clause,
    Sql.Condition.ofPredicate? t p (some type) = some condition ∧
      Pipeline.clause? path p (some type) = some clause ∧
        (p.operator.comparesValues = true →
          List.Forall₂ (fun raw l => Literal.coerce type raw = .ok l) p.operands
              condition.literals ∧
            Pipeline.comparands clause = condition.literals.map Pipeline.literalValue)

theorem keepsMeaning_of_validate (accepted : p.validate type = .ok ()) (t : Sql.Term)
    (path : String) : p.KeepsMeaning type t path := by
  obtain ⟨complete, meant⟩ := Predicate.validate_iff_coerce.mp accepted
  have one := (Sql.isSome_ofPredicate t p (some type)).trans complete
  have other := (Pipeline.isSome_clause path p (some type)).trans complete
  obtain ⟨condition, compared⟩ := Option.isSome_iff_exists.mp one
  obtain ⟨clause, tested⟩ := Option.isSome_iff_exists.mp other
  refine ⟨condition, clause, compared, tested, fun compares => ?_⟩
  have literals := Sql.literals_ofPredicate compares compared
  rw [Pipeline.comparands_clause compares tested, literals, List.map_map]
  refine ⟨List.forall₂_map_right_iff.mpr (List.forall₂_same.mpr fun raw mem => ?_), rfl⟩
  obtain ⟨l, means⟩ := meant compares raw mem
  rw [Literal.ofRaw_of_coerce means, means]

theorem validate_agrees (p : Predicate) (type : SemanticType) (t : Sql.Term) (path : String) :
    (p.validate type = .ok () ↔
        p.isComplete = true ∧
          (p.operator.comparesValues = true →
            ∀ raw ∈ p.operands, ∃ l, Literal.coerce type raw = .ok l)) ∧
      (∀ known : Option SemanticType,
        (Sql.Condition.ofPredicate? t p known).isSome = p.isComplete ∧
          (Pipeline.clause? path p known).isSome = p.isComplete) ∧
      (p.validate type = .ok () → p.KeepsMeaning type t path) :=
  ⟨Predicate.validate_iff_coerce,
    fun known => ⟨Sql.isSome_ofPredicate t p known, Pipeline.isSome_clause path p known⟩,
    fun accepted => keepsMeaning_of_validate accepted t path⟩

-- Blanks and an empty item between dates.
def holidays : Predicate := ⟨.isIn, " 2024-12-25 ,, 2025-01-01", none⟩

theorem holidays_keepsMeaning :
    holidays.validate .date = .ok () ∧
      holidays.KeepsMeaning .date (.operand (.field ⟨"shifts", "day"⟩)) "day" := by
  have accepted : holidays.validate .date = .ok () := by decide +kernel
  exact ⟨accepted, (validate_agrees holidays .date _ "day").2.2 accepted⟩

end QueryBuilder
