import QueryBuilder.Query.Predicate

set_option autoImplicit false

namespace QueryBuilder

namespace Operator

variable {op : Operator}

theorem isPattern_of_takesList (list : op.takesList = true) : op.isPattern = false := by
  cases op <;> first | rfl | cases list

theorem needsSecondValue_of_takesList (list : op.takesList = true) :
    op.needsSecondValue = false := by
  cases op <;> first | rfl | cases list

theorem needsSecondValue_of_isPattern (pattern : op.isPattern = true) :
    op.needsSecondValue = false := by
  cases op <;> first | rfl | cases pattern

theorem needsValue_of_needsSecondValue (second : op.needsSecondValue = true) :
    op.needsValue = true := by
  cases op <;> first | rfl | cases second

end Operator

namespace Predicate

variable {p : Predicate} {type : SemanticType}

def operands (p : Predicate) : List String :=
  if p.operator.takesList then p.items
  else if !p.operator.needsValue then []
  else if p.operator.needsSecondValue then p.value :: p.second?.toList
  else [p.value]

theorem operands_eq (p : Predicate) :
    p.operands =
      match p.operator with
      | .isIn | .notIn => p.items
      | .isNull | .isNotNull | .exists => []
      | .between | .notBetween => p.value :: p.second?.toList
      | _ => [p.value] := by
  unfold operands
  cases p.operator <;> rfl

theorem isSome_second (complete : p.isComplete = true)
    (second : p.operator.needsSecondValue = true) : p.second?.isSome = true := by
  have single : p.operator.takesList = false := by
    cases list : p.operator.takesList
    · rfl
    · rw [Operator.needsSecondValue_of_takesList list] at second
      cases second
  have given : (p.operator.needsValue = false ∨ p.value ≠ "") ∧ p.second?.isSome = true := by
    simpa [isComplete, single, second] using complete
  exact given.2

theorem checkAll_eq_ok_iff {raws : List String} :
    checkAll type raws = .ok () ↔ ∀ raw ∈ raws, checkValue type raw = .ok () := by
  induction raws with
  | nil => simp [checkAll]
  | cons raw rest ih =>
    rw [List.forall_mem_cons, ← ih, checkAll]
    cases checkValue type raw <;> simp [bind, Except.bind]

theorem validate_eq_ok_iff :
    p.validate type = .ok () ↔
      p.isComplete = true ∧
        (p.operator.isPattern = false → ∀ raw ∈ p.operands, checkValue type raw = .ok ()) := by
  unfold validate isComplete operands
  by_cases list : p.operator.takesList = true
  · have plain := Operator.isPattern_of_takesList list
    by_cases empty : p.items.isEmpty = true <;> simp [list, empty, plain, checkAll_eq_ok_iff]
  by_cases needs : p.operator.needsValue = true
  · by_cases missing : p.value = ""
    · simp [list, needs, missing]
    cases pattern : p.operator.isPattern with
    | true => simp [list, needs, missing, Operator.needsSecondValue_of_isPattern pattern]
    | false =>
      cases first : checkValue type p.value <;> cases second : p.operator.needsSecondValue <;>
        cases given : p.second? <;>
        simp [list, needs, missing, first, bind, Except.bind, pure, Except.pure]
  · have single := mt Operator.needsValue_of_needsSecondValue needs
    simp [list, needs, single]

end Predicate

end QueryBuilder
