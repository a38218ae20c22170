import QueryBuilder.Proofs.Literal.Integer
import QueryBuilder.Proofs.Number.Overflow
import QueryBuilder.Sql.Expression

set_option autoImplicit false

namespace QueryBuilder

open Json.Numeral (IsDigits)
open Text

namespace NumberText

inductive SignPart : Bool → List Char → Prop
  | none : SignPart false []
  | plus : SignPart false ['+']
  | minus : SignPart true ['-']

inductive PointPart : Option (List Char) → List Char → Prop
  | none : PointPart none []
  | point {ds : List Char} (digits : ∀ c ∈ ds, isDigit c = true) :
    PointPart (some ds) ('.' :: ds)

inductive PowerPart : Option Int → List Char → Prop
  | none : PowerPart none []
  | power {mark : Char} {text : List Char} {e : Int} (isMark : mark = 'e' ∨ mark = 'E')
    (writes : WritesInteger text e) : PowerPart (some e) (mark :: text)

-- All but one digit may be left out.
structure Writes (text : List Char) (n : NumberText) : Prop where
  parts : ∃ sign point power, text = sign ++ (n.whole ++ (point ++ power)) ∧
    SignPart n.negative sign ∧ PointPart n.fraction point ∧ PowerPart n.exponent power
  whole : ∀ c ∈ n.whole, isDigit c = true
  digit : ¬(n.whole = [] ∧ n.fraction.getD [] = [])

theorem exists_signPart (text : List Char) :
    ∃ part, text = part ++ (sign text).2 ∧ SignPart (sign text).1 part := by
  unfold sign
  split
  · exact ⟨['-'], rfl, .minus⟩
  · exact ⟨['+'], rfl, .plus⟩
  · exact ⟨[], rfl, .none⟩

theorem sign_append {negative : Bool} {part rest : List Char} (signed : SignPart negative part)
    (unsigned : ∀ c ∈ rest.head?, c ≠ '-' ∧ c ≠ '+') :
    sign (part ++ rest) = (negative, rest) := by
  cases signed with
  | none =>
    rw [List.nil_append]
    unfold sign
    split
    · exact absurd rfl (unsigned '-' rfl).1
    · exact absurd rfl (unsigned '+' rfl).2
    · rfl
  | plus | minus => rfl

theorem exists_pointPart (text : List Char) :
    ∃ part, text = part ++ (point text).2 ∧ PointPart (point text).1 part := by
  unfold point
  split
  · next rest =>
    refine ⟨'.' :: rest.takeWhile isDigit, ?_, .point fun c mem => ?_⟩
    · rw [List.cons_append, List.takeWhile_append_dropWhile]
    · exact List.all_eq_true.mp List.all_takeWhile c mem
  · exact ⟨[], rfl, .none⟩

theorem point_append {fraction : Option (List Char)} {part rest : List Char}
    (pointed : PointPart fraction part) (stop : ∀ c ∈ rest.head?, isDigit c = false ∧ c ≠ '.') :
    point (part ++ rest) = (fraction, rest) := by
  cases pointed with
  | none =>
    rw [List.nil_append]
    unfold point
    split
    · exact absurd rfl (stop '.' rfl).2
    · rfl
  | point digits =>
    obtain ⟨taken, left⟩ := span_of_stop digits fun c head => (stop c head).1
    rw [List.cons_append, point, taken, left]

theorem writesInteger_iff {text : List Char} {i : Int} :
    WritesInteger text i ↔
      IsDigits (sign text).2 ∧
        (if (sign text).1 then -(Digits.value (sign text).2 : Int)
          else Digits.value (sign text).2) = i := by
  constructor
  · intro writes
    cases writes with
    | plain digits =>
      rw [WritesInteger.sign_digits digits]
      exact ⟨digits, rfl⟩
    | plus digits | minus digits => exact ⟨digits, rfl⟩
  · rintro ⟨digits, rfl⟩
    obtain ⟨part, parts, signed⟩ := exists_signPart text
    generalize (sign text).1 = negative at signed ⊢
    generalize (sign text).2 = ds at digits parts ⊢
    subst parts
    cases signed with
    | none => exact .plain digits
    | plus => exact .plus digits
    | minus => exact .minus digits

theorem exponent_eq_some_iff {text : List Char} {e : Option Int} :
    exponent? text = some e ↔ PowerPart e text := by
  constructor
  · intro read
    cases text with
    | nil =>
      cases read
      exact .none
    | cons mark rest =>
      rw [exponent?] at read
      split at read
      · next isMark =>
        have writes := @writesInteger_iff rest
        generalize sign rest = s at read writes
        obtain ⟨negative, ds⟩ := s
        dsimp only at read writes
        split at read
        · next digits =>
          cases read
          exact .power isMark (writes.mpr ⟨⟨digits.1, List.all_eq_true.mp digits.2⟩, rfl⟩)
        · cases read
      · cases read
  · intro part
    cases part with
    | none => rfl
    | @power mark rest i isMark writes =>
      rw [exponent?, if_pos isMark]
      obtain ⟨digits, rfl⟩ := writesInteger_iff.mp writes
      generalize sign rest = s at digits ⊢
      obtain ⟨negative, ds⟩ := s
      exact if_pos ⟨digits.1, List.all_eq_true.mpr digits.2⟩

theorem head_powerPart {e : Option Int} {text : List Char} (part : PowerPart e text) :
    ∀ c ∈ text.head?, isDigit c = false ∧ c ≠ '.' := by
  intro c head
  cases part with
  | none => cases head
  | power isMark =>
    cases head
    rcases isMark with rfl | rfl <;> decide

theorem head_pointPart {fraction : Option (List Char)} {point power : List Char} {e : Option Int}
    (pointed : PointPart fraction point) (part : PowerPart e power) :
    ∀ c ∈ (point ++ power).head?, isDigit c = false := by
  intro c head
  cases pointed with
  | none => exact (head_powerPart part c head).1
  | point =>
    cases head
    decide

theorem Writes.unsigned {n : NumberText} {text point power : List Char} (writes : Writes text n)
    (pointed : PointPart n.fraction point) :
    ∀ c ∈ (n.whole ++ (point ++ power)).head?, c ≠ '-' ∧ c ≠ '+' := by
  obtain ⟨negative, whole, fraction, exponent⟩ := n
  intro c head
  have digit : isDigit c = true ∨ c = '.' := by
    cases whole with
    | cons d ds =>
      cases head
      exact .inl (writes.whole c List.mem_cons_self)
    | nil =>
      cases pointed with
      | none => exact absurd ⟨rfl, rfl⟩ writes.digit
      | point =>
        cases head
        exact .inr rfl
  constructor <;> rintro rfl <;> simp [isDigit] at digit

theorem read_eq (text : List Char) :
    read? text =
      let cs := (sign text).2
      let rest := point (cs.dropWhile isDigit)
      if cs.takeWhile isDigit = [] ∧ rest.1.getD [] = [] then none
      else (exponent? rest.2).map fun e => ⟨(sign text).1, cs.takeWhile isDigit, rest.1, e⟩ :=
  rfl

theorem read_eq_some_iff {text : List Char} {n : NumberText} :
    read? text = some n ↔ Writes text n := by
  constructor
  · intro read
    rw [read_eq] at read
    dsimp only at read
    split at read
    · cases read
    · next digit =>
      obtain ⟨e, power, rfl⟩ := Option.map_eq_some_iff.mp read
      obtain ⟨front, signedText, signed⟩ := exists_signPart text
      obtain ⟨middle, pointedText, pointed⟩ := exists_pointPart ((sign text).2.dropWhile isDigit)
      refine ⟨⟨front, middle, _, ?_, signed, pointed, exponent_eq_some_iff.mp power⟩, ?_, digit⟩
      · rw [← pointedText, List.takeWhile_append_dropWhile]
        exact signedText
      · exact List.all_eq_true.mp List.all_takeWhile
  · intro writes
    obtain ⟨front, middle, power, rfl, signed, pointed, part⟩ := writes.parts
    have taken := span_of_stop writes.whole (head_pointPart pointed part)
    have behind := point_append pointed (head_powerPart part)
    rw [read_eq, sign_append signed (writes.unsigned pointed)]
    dsimp only
    rw [taken.1, taken.2, behind, if_neg writes.digit, exponent_eq_some_iff.mpr part]
    rfl

def signedWhole (n : NumberText) : Int :=
  if n.negative then -(Digits.value n.whole : Int) else Digits.value n.whole

theorem int_eq_some_iff {n : NumberText} {i : Int64} :
    n.int? = some i ↔ n.fraction = none ∧ n.exponent = none ∧ n.signedWhole = i.toInt := by
  have shape : n.int? =
      if n.fraction.isNone ∧ n.exponent.isNone ∧ -0x8000000000000000 ≤ n.signedWhole ∧
          n.signedWhole < 0x8000000000000000 then
        some (Int64.ofInt n.signedWhole)
      else none := rfl
  rw [shape]
  generalize n.signedWhole = z
  simp only [Option.isNone_iff_eq_none]
  constructor
  · intro read
    split at read
    · next fits =>
      cases read
      exact ⟨fits.1, fits.2.1, (Int64.toInt_ofInt_of_le fits.2.2.1 fits.2.2.2).symm⟩
    · cases read
  · rintro ⟨noPoint, noPower, rfl⟩
    have low := Int64.le_toInt i
    have high := Int64.toInt_lt i
    rw [if_pos ⟨noPoint, noPower, low, high⟩, Int64.ofInt_toInt]

theorem Writes.integer {n : NumberText} {text : List Char} (writes : Writes text n)
    (noPoint : n.fraction = none) (noPower : n.exponent = none) :
    WritesInteger text n.signedWhole := by
  obtain ⟨negative, whole, fraction, exponent⟩ := n
  subst noPoint noPower
  have digits : IsDigits whole := ⟨fun empty => writes.digit ⟨empty, rfl⟩, writes.whole⟩
  obtain ⟨front, middle, power, rfl, signed, pointed, part⟩ := writes.parts
  cases pointed
  cases part
  rw [List.append_nil, List.append_nil]
  cases signed with
  | none => exact .plain digits
  | plus => exact .plus digits
  | minus => exact .minus digits

-- Half a unit above the greatest binary number, 2 ^ 1024 - 2 ^ 970, and beyond.
def Overflows (n : NumberText) : Prop :=
  let places : Int := n.exponent.getD 0 - (n.fraction.getD []).length
  Binary64.halfAbove 970 * Nat.pow 10 (-places).toNat ≤
    Digits.value (n.whole ++ n.fraction.getD []) * Nat.pow 10 places.toNat

instance (n : NumberText) : Decidable n.Overflows := inferInstanceAs (Decidable (_ ≤ _))

theorem float_eq_none_iff {n : NumberText} : n.float? = none ↔ n.Overflows :=
  Binary64.ofDecimal_eq_none_iff _ _ _

end NumberText

namespace Literal

variable {text : String} {n : NumberText} {i : Int64}

theorem number_of_writes (writes : NumberText.Writes text.toList n) :
    number? text =
      match n.int? with
      | some i => some (.int i)
      | none => n.float?.map .float := by
  rw [number?, NumberText.read_eq_some_iff.mpr writes]
  rfl

theorem number_eq_none_of_not_writes (illegible : ∀ n, ¬NumberText.Writes text.toList n) :
    number? text = none := by
  cases read : NumberText.read? text.toList with
  | none => rw [number?, read, Option.bind_none]
  | some n => exact absurd (NumberText.read_eq_some_iff.mp read) (illegible n)

theorem number_eq_int_iff : number? text = some (.int i) ↔ WritesInt64 text i.toInt := by
  constructor
  · intro read
    obtain ⟨n, whole, meant⟩ := Option.bind_eq_some_iff.mp read
    have writes := NumberText.read_eq_some_iff.mp whole
    split at meant
    · next found =>
      cases meant
      obtain ⟨noPoint, noPower, value⟩ := NumberText.int_eq_some_iff.mp found
      exact ⟨value ▸ writes.integer noPoint noPower, Int64.le_toInt i, Int64.toInt_lt i⟩
    · obtain ⟨x, -, other⟩ := Option.map_eq_some_iff.mp meant
      cases other
  · intro written
    rw [written.number, Int64.ofInt_toInt]

theorem number_of_float (writes : NumberText.Writes text.toList n)
    (other : ∀ i, ¬WritesInt64 text i) : number? text = n.float?.map .float := by
  have meant := number_of_writes writes
  split at meant
  · exact absurd (number_eq_int_iff.mp meant) (other _)
  · exact meant

theorem coerce_number (raw : String) :
    (∀ i : Int64, coerce .number raw = .ok (.int i) ↔ WritesInt64 (trim raw) i.toInt) ∧
      ((∀ n, ¬NumberText.Writes (trim raw).toList n) →
        coerce .number raw = .error (.notANumber (trim raw))) ∧
      (∀ n, NumberText.Writes (trim raw).toList n → (∀ i, ¬WritesInt64 (trim raw) i) →
        (n.Overflows → coerce .number raw = .error (.notANumber (trim raw))) ∧
          (¬n.Overflows → ∃ x, coerce .number raw = .ok (.float x))) ∧
      ∀ i : Int64, coerce .number (Sql.literalText (.int i)) = .ok (.int i) := by
  have meaning (raw : String) : coerce .number raw =
      (number? (trim raw)).elim (.error (.notANumber (trim raw))) .ok := rfl
  refine ⟨fun i => ?_, fun illegible => ?_,
    fun n writes other => ⟨fun beyond => ?_, fun within => ?_⟩, fun i => ?_⟩
  · rw [meaning, ← number_eq_int_iff]
    cases number? (trim raw) <;> simp
  · rw [meaning, number_eq_none_of_not_writes illegible]
    rfl
  · rw [meaning, number_of_float writes other, NumberText.float_eq_none_iff.mpr beyond]
    rfl
  · obtain ⟨x, near⟩ := Option.ne_none_iff_exists'.mp (mt NumberText.float_eq_none_iff.mp within)
    rw [meaning, number_of_float writes other, near]
    exact ⟨x, rfl⟩
  · have writes := WritesInteger.writes_intText i.toInt
    have written : WritesInt64 (Digits.intText i.toInt) i.toInt :=
      ⟨writes, Int64.le_toInt i, Int64.toInt_lt i⟩
    rw [meaning, Sql.literalText, trim_of_unblank writes.unblank, number_eq_int_iff.mpr written]
    rfl

-- One more than the greatest integer of 64 bits, between blanks.
theorem nextInt64_float :
    (∃ n, NumberText.Writes (trim " 9223372036854775808 ").toList n ∧ ¬n.Overflows) ∧
      (∀ i, ¬WritesInt64 (trim " 9223372036854775808 ") i) ∧
        ∃ x, coerce .number " 9223372036854775808 " = .ok (.float x) := by
  have trimmed : trim " 9223372036854775808 " = "9223372036854775808" := by decide +kernel
  have read : NumberText.read? "9223372036854775808".toList =
      some ⟨false, "9223372036854775808".toList, none, none⟩ := by decide +kernel
  have writes := NumberText.read_eq_some_iff.mp read
  have within : ¬NumberText.Overflows ⟨false, "9223372036854775808".toList, none, none⟩ := by
    decide +kernel
  have other (i : Int) : ¬WritesInt64 "9223372036854775808" i := by
    intro written
    obtain ⟨negative, ds, same, value⟩ := written.writes.read
    rw [read] at same
    cases same
    have exact' : Digits.value "9223372036854775808".toList = 9223372036854775808 := by
      decide +kernel
    have high := written.high
    rw [← value, exact'] at high
    cases high
  have float := ((coerce_number " 9223372036854775808 ").2.2.1 _ (trimmed ▸ writes)
    (trimmed ▸ other)).2 within
  exact ⟨⟨_, trimmed ▸ writes, within⟩, trimmed ▸ other, float⟩

end Literal

end QueryBuilder
