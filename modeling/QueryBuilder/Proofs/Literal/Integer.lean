import QueryBuilder.Literal.Coercion
import QueryBuilder.Proofs.Json.Numerals

set_option autoImplicit false

namespace QueryBuilder

open Json.Numeral (IsDigits)
open Text

-- Zeros may stand in front of the other digits.
inductive WritesInteger : List Char → Int → Prop
  | plain {ds : List Char} (digits : IsDigits ds) : WritesInteger ds (Digits.value ds)
  | plus {ds : List Char} (digits : IsDigits ds) : WritesInteger ('+' :: ds) (Digits.value ds)
  | minus {ds : List Char} (digits : IsDigits ds) : WritesInteger ('-' :: ds) (-(Digits.value ds))

theorem trim_of_unblank {text : String} (unblank : ∀ c ∈ text.toList, isBlank c = false) :
    trim text = text := by
  have kept {cs : List Char} (all : ∀ c ∈ cs, isBlank c = false) : cs.dropWhile isBlank = cs := by
    cases cs with
    | nil => rfl
    | cons c rest => simp [all c List.mem_cons_self]
  have reversed : ∀ c ∈ text.toList.reverse, isBlank c = false := by simpa using unblank
  rw [trim, trimLeft, kept unblank, trimRight, kept reversed, List.reverse_reverse,
    String.ofList_toList]

namespace WritesInteger

variable {text : List Char} {i : Int}

theorem unblank (writes : WritesInteger text i) : ∀ c ∈ text, isBlank c = false := by
  have inside {ds : List Char} (digits : IsDigits ds) : ∀ c ∈ ds, isBlank c = false :=
    fun c mem => isBlank_of_isDigit (digits.2 c mem)
  cases writes with
  | plain digits => exact inside digits
  | plus digits | minus digits => exact List.forall_mem_cons.mpr ⟨by decide, inside digits⟩

theorem sign_digits {ds : List Char} (digits : IsDigits ds) :
    NumberText.sign ds = (false, ds) := by
  obtain ⟨c, cs, rfl⟩ := List.exists_cons_of_ne_nil digits.1
  have digit := digits.2 c List.mem_cons_self
  unfold NumberText.sign
  split
  · next written => cases written; cases digit
  · next written => cases written; cases digit
  · rfl

theorem read_of_sign {ds : List Char} (digits : IsDigits ds) {negative : Bool}
    (signed : NumberText.sign text = (negative, ds)) :
    NumberText.read? text = some ⟨negative, ds, none, none⟩ := by
  have ends : ∀ c ∈ ([] : List Char).head?, isDigit c = false := by simp
  obtain ⟨whole, rest⟩ := span_of_stop digits.2 ends
  rw [List.append_nil] at whole rest
  simp [NumberText.read?, signed, whole, rest, NumberText.point, NumberText.exponent?, digits.1]

theorem read (writes : WritesInteger text i) :
    ∃ negative ds, NumberText.read? text = some ⟨negative, ds, none, none⟩ ∧
      (if negative then -(Digits.value ds : Int) else Digits.value ds) = i := by
  cases writes with
  | plain digits => exact ⟨false, _, read_of_sign digits (sign_digits digits), rfl⟩
  | plus digits => exact ⟨false, _, read_of_sign digits rfl, rfl⟩
  | minus digits => exact ⟨true, _, read_of_sign digits rfl, rfl⟩

theorem writes_intText (n : Int) : WritesInteger (Digits.intText n).toList n := by
  have digits := Json.Numeral.isDigits_ofNat n.natAbs
  have value := Json.Numeral.value_ofNat n.natAbs
  unfold Digits.intText Digits.text
  split
  · next negative =>
    have minus := WritesInteger.minus digits
    rw [value, show -(n.natAbs : Int) = n by omega] at minus
    simpa using minus
  · next positive =>
    have plain := WritesInteger.plain digits
    rw [value, show (n.natAbs : Int) = n by omega] at plain
    simpa using plain

end WritesInteger

-- The text of an integer that fits into 64 bits with its sign.
structure WritesInt64 (text : String) (i : Int) : Prop where
  writes : WritesInteger text.toList i
  low : -0x8000000000000000 ≤ i
  high : i < 0x8000000000000000

namespace WritesInt64

variable {text : String} {i : Int}

theorem number (written : WritesInt64 text i) :
    Literal.number? text = some (.int (Int64.ofInt i)) := by
  obtain ⟨negative, ds, read, value⟩ := written.writes.read
  have exact : NumberText.int? ⟨negative, ds, none, none⟩ = some (Int64.ofInt i) := by
    unfold NumberText.int?
    simp only [value, Option.isNone_none, written.low, written.high, and_self, if_true]
  rw [Literal.number?, read, Option.bind_some, exact]

theorem ofRaw (written : WritesInt64 text i) :
    Literal.ofRaw (some .number) text = .int (Int64.ofInt i) := by
  have trimmed := trim_of_unblank written.writes.unblank
  simp [Literal.ofRaw, Literal.coerceOrText, Literal.coerce, trimmed, written.number]

end WritesInt64

end QueryBuilder
