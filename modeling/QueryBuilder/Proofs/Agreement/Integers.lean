import QueryBuilder.Proofs.Literal.Integer
import QueryBuilder.Proofs.Pipeline.Meaning
import QueryBuilder.Proofs.Query.Validation

set_option autoImplicit false

namespace QueryBuilder

open Json (Value Object)

def Operator.IsTrue (n : Int) : Operator → List Int → Prop
  | .eq, [i] => n = i
  | .notEq, [i] => n ≠ i
  | .gt, [i] => n > i
  | .lt, [i] => n < i
  | .gte, [i] => n ≥ i
  | .lte, [i] => n ≤ i
  | .isIn, values => n ∈ values
  | .notIn, values => n ∉ values
  | .between, [low, high] => low ≤ n ∧ n ≤ high
  | .notBetween, [low, high] => ¬(low ≤ n ∧ n ≤ high)
  | .isNull, _ => False
  | .isNotNull, _ | .exists, _ => True
  | _, _ => False

namespace Json

-- The numerator and the denominator, which is not zero.
def Number.fraction : Number → Int × Nat
  | .int m => (m.val, 1)
  | .float x => (if x.negative then -x.quotient.1 else x.quotient.1, x.quotient.2)

-- Whether a value is a number that an integer compares with in a given way. Of arrays and objects,
-- which may stand for numbers that are written in another form, nothing is said.
def Value.compares? (n : Int) (r : Int → Int → Bool) : Value → Option Bool
  | .number x => some (r (n * x.fraction.2) x.fraction.1)
  | .null | .bool _ | .string _ => some false
  | .array _ | .object _ => none

def operates? (n : Int) : String → Value → Option Bool
  | "$eq", v => v.compares? n fun a b => a = b
  | "$ne", v => (v.compares? n fun a b => a = b).map (!·)
  | "$gt", v => v.compares? n fun a b => a > b
  | "$lt", v => v.compares? n fun a b => a < b
  | "$gte", v => v.compares? n fun a b => a ≥ b
  | "$lte", v => v.compares? n fun a b => a ≤ b
  | "$in", .array items => (items.mapM (Value.compares? n fun a b => a = b)).map (true ∈ ·)
  | "$nin", .array items => (items.mapM (Value.compares? n fun a b => a = b)).map (true ∉ ·)
  | "$exists", .bool b => some b
  | _, _ => none

/-- A document that has an integer at a path, whatever it has elsewhere: several operators in one
test are all to be true of it. -/
def HasInteger (passes : String → Value → Bool) (path : String) (n : Int) : Prop :=
  -- A test without operators would be one for an empty object.
  ∀ operators : Object, operators ≠ [] →
    (∀ o ∈ operators, (operates? n o.1 o.2).isSome = true) →
      passes path (.object operators) = operators.all fun o => operates? n o.1 o.2 == some true

end Json

namespace Pipeline

open Json

variable {n i : Int} {text : String}

theorem compares_integer (written : WritesInt64 text i) (r : Int → Int → Bool) :
    (rawValue (some .number) text).compares? n r = some (r n i) := by
  have kept : (Int64.ofInt i).toInt = i := Int64.toInt_ofInt_of_le written.low written.high
  simp [rawValue, written.ofRaw, literalValue, Value.ofInt64, Integer.ofInt64, Value.compares?,
    Number.fraction, kept]

theorem mapM_compares {texts : List String} {values : List Int}
    (written : List.Forall₂ WritesInt64 texts values) (r : Int → Int → Bool) :
    (texts.map (rawValue (some .number))).mapM (Value.compares? n r) = some (values.map (r n)) := by
  induction written with
  | nil => rfl
  | cons first _ ih => rw [List.map_cons, List.mapM_cons, compares_integer first, ih]; rfl

section

variable {passes : String → Value → Bool} {path : String} {p : Predicate} {values : List Int}

theorem met_single (key : String) (v : Value) :
    (Value.single key v).met passes = meets passes [(key, v)] := rfl

theorem meets_operators (has : HasInteger passes path n) {operators : Object}
    (tests : operators ≠ []) (known : ∀ o ∈ operators, (operates? n o.1 o.2).isSome = true) :
    meets passes [(path, .object operators)] =
      operators.all fun o => operates? n o.1 o.2 == some true :=
  meets_object.trans (has operators tests known)

theorem meets_operator (has : HasInteger passes path n) {operator : String} {v : Value}
    (known : (operates? n operator v).isSome = true) :
    meets passes [(path, .single operator v)] = (operates? n operator v == some true) := by
  rw [Value.single, meets_operators has (List.cons_ne_nil _ _) (by simpa using known)]
  simp

theorem exists_value {text : String} (written : List.Forall₂ WritesInt64 [text] values) :
    ∃ i, values = [i] ∧ WritesInt64 text i := by
  cases written with
  | cons first rest =>
    cases rest
    exact ⟨_, rfl, first⟩

theorem exists_range {text : String} {second : Option String} (given : second.isSome = true)
    (written : List.Forall₂ WritesInt64 (text :: second.toList) values) :
    ∃ low high, values = [low, high] ∧ WritesInt64 text low ∧
      WritesInt64 (second.getD "") high := by
  obtain ⟨upper, rfl⟩ := Option.isSome_iff_exists.mp given
  cases written with
  | cons first rest =>
    obtain ⟨high, rfl, last⟩ := exists_value rest
    exact ⟨_, high, rfl, first, last⟩

theorem meets_clause_iff (accepted : p.validate .number = .ok ())
    (plain : p.operator.isPattern = false)
    (written : List.Forall₂ WritesInt64 p.operands values) (has : HasInteger passes path n) :
    ∃ clause, clause? path p (some .number) = some clause ∧
      (meets passes clause = true ↔ p.operator.IsTrue n values) := by
  have complete := (Predicate.validate_eq_ok_iff.mp accepted).1
  rw [Predicate.operands_eq] at written
  unfold clause?
  rw [if_pos complete]
  cases hop : p.operator <;> simp only [hop] at written
  case like | notLike =>
    rw [hop] at plain
    cases plain
  case eq | notEq | gt | lt | gte | lte =>
    obtain ⟨i, rfl, value⟩ := exists_value written
    refine ⟨_, rfl, ?_⟩
    simp [meets_operator has, operates?, compares_integer value, Operator.IsTrue]
  case isIn | notIn =>
    refine ⟨_, rfl, ?_⟩
    simp [meets_operator has, operates?, mapM_compares written, Operator.IsTrue]
  case isNull | isNotNull | «exists» =>
    refine ⟨_, rfl, ?_⟩
    simp [meets_operator has, operates?, Value.compares?, Operator.IsTrue]
  case between =>
    have given := Predicate.isSome_second complete (by rw [hop]; rfl)
    obtain ⟨low, high, rfl, first, last⟩ := exists_range given written
    refine ⟨_, rfl, ?_⟩
    simp [meets_operators has, operates?, compares_integer first, compares_integer last,
      Operator.IsTrue]
  case notBetween =>
    have given := Predicate.isSome_second complete (by rw [hop]; rfl)
    obtain ⟨low, high, rfl, first, last⟩ := exists_range given written
    refine ⟨_, rfl, ?_⟩
    simp [meets_or, met_single, meets_operator has, operates?, compares_integer first,
      compares_integer last, Operator.IsTrue]
    omega

-- The bounds of a range, with blanks around one and a sign and zeros before the other.
def overdraft : Predicate := ⟨.notBetween, " -5 ", some "+007"⟩

def onlyInteger (n : Int) : String → Value → Bool
  | _, .object operators => operators.all fun o => operates? n o.1 o.2 == some true
  | _, _ => false

theorem overdraft_meets_clause_iff :
    overdraft.validate .number = .ok () ∧ overdraft.operator.isPattern = false ∧
      List.Forall₂ WritesInt64 overdraft.operands [-5, 7] ∧
      HasInteger (onlyInteger 8) "balance" 8 ∧
      ∃ clause, clause? "balance" overdraft (some .number) = some clause ∧
        (meets (onlyInteger 8) clause = true ↔ overdraft.operator.IsTrue 8 [-5, 7]) := by
  have accepted : overdraft.validate .number = .ok () := by decide +kernel
  have low : WritesInt64 "-5" (-5) :=
    ⟨@WritesInteger.minus ['5'] ⟨by decide, List.all_eq_true.mp rfl⟩, by decide, by decide⟩
  have high : WritesInt64 "+007" 7 :=
    ⟨@WritesInteger.plus ['0', '0', '7'] ⟨by decide, List.all_eq_true.mp rfl⟩, by decide, by decide⟩
  have operands : overdraft.operands = ["-5", "+007"] := by decide +kernel
  have written : List.Forall₂ WritesInt64 overdraft.operands [-5, 7] := by
    rw [operands]
    exact .cons low (.cons high .nil)
  have has : HasInteger (onlyInteger 8) "balance" 8 := fun _ _ _ => rfl
  exact ⟨accepted, rfl, written, has, meets_clause_iff accepted rfl written has⟩

end

end Pipeline

end QueryBuilder
