import QueryBuilder.Proofs.Json.Text

set_option autoImplicit false

namespace QueryBuilder

theorem Decimal.strip_ne_zero (fuel : Nat) {d : Decimal} (other : d.digits ≠ 0) :
    (strip fuel d).digits ≠ 0 := by
  induction fuel generalizing d with
  | zero => exact other
  | succ fuel ih =>
    rw [strip]
    split
    · next ends =>
      refine ih (d := ⟨d.digits / 10, d.exponent + 1⟩) ?_
      have := ends.1
      show d.digits / 10 ≠ 0
      omega
    · exact other

namespace Binary64

theorem Interval.nearest_ne_zero {tie : Tie} {i : Interval} {n : Nat} (positive : 0 < i.low)
    (found : i.nearest? tie = some n) : n ≠ 0 := by
  have inside : ∀ m, i.contains m = true → m ≠ 0 := by
    rintro _ holds rfl
    unfold contains at holds
    split at holds
    · simp at holds
      omega
    · simp at holds
  simp only [nearest?] at found
  split at found
  · next lower upper =>
    cases found
    split
    · exact inside _ upper
    · exact inside _ lower
  · next lower _ =>
    cases found
    exact inside _ lower
  · next _ upper =>
    cases found
    exact inside _ upper
  · cases found

theorem low_pos {x : Binary64} (other : x.mantissa ≠ 0) (q : Int) :
    0 < (x.interval.inUnits q).low := by
  have own : 0 < x.interval.low := by
    refine Nat.mul_pos ?_ (Nat.pow_pos (by decide))
    have : 0 < x.mantissa := Nat.pos_of_ne_zero other
    split <;> omega
  exact Nat.mul_pos own (Nat.pow_pos (by decide))

theorem shortest_of_zero {tie : Tie} {x : Binary64} (zero : (x.shortest tie).digits = 0) :
    x.shortest tie = ⟨0, 0⟩ := by
  unfold shortest at zero ⊢
  split at zero
  · next none => rw [if_pos none]
  · next other =>
    rw [if_neg other]
    dsimp only at zero ⊢
    split at zero
    · next d found =>
      obtain ⟨k, -, made⟩ := List.exists_of_findSome?_eq_some found
      obtain ⟨n, near, rfl⟩ := Option.map_eq_some_iff.mp made
      have digits := Interval.nearest_ne_zero (low_pos other _) near
      exact absurd zero (Decimal.strip_ne_zero 20 digits)
    · rfl

end Binary64

namespace Json.Numeral

open Json.Token (Ends)
open Text

def IsDigits (ds : List Char) : Prop := ds ≠ [] ∧ ∀ c ∈ ds, isDigit c = true

def WholePart (ds : List Char) : Prop := IsDigits ds ∧ (ds.head? = some '0' → ds = ['0'])

inductive FractionPart : List Char → Prop
  | none : FractionPart []
  | point {ds : List Char} (digits : IsDigits ds) : FractionPart ('.' :: ds)

inductive ExponentPart : List Char → Prop
  | none : ExponentPart []
  | signed {sign : Char} {ds : List Char} (isSign : sign = '-' ∨ sign = '+')
    (digits : IsDigits ds) : ExponentPart ('e' :: sign :: ds)

def IsUnsigned (text : List Char) : Prop :=
  ∃ whole fraction exponent, text = whole ++ (fraction ++ exponent) ∧ WholePart whole ∧
    FractionPart fraction ∧ ExponentPart exponent

def IsNumeral (text : List Char) : Prop :=
  ∃ sign body, text = sign ++ body ∧ (sign = [] ∨ sign = ['-']) ∧ IsUnsigned body

theorem digits_append {ds rest : List Char} (digits : IsDigits ds)
    (stop : ∀ c ∈ rest.head?, isDigit c = false) : digits? (ds ++ rest) = some (ds, rest) := by
  obtain ⟨taken, left⟩ := span_of_stop digits.2 stop
  obtain ⟨c, cs, rfl⟩ := List.exists_cons_of_ne_nil digits.1
  rw [digits?, taken, left]

theorem whole_append {ds rest : List Char} (whole : WholePart ds)
    (stop : ∀ c ∈ rest.head?, isDigit c = false) : whole? (ds ++ rest) = some (ds, rest) := by
  unfold whole?
  split
  · next rest' written =>
    obtain ⟨c, cs, rfl⟩ := List.exists_cons_of_ne_nil whole.1.1
    obtain ⟨rfl, behind⟩ := List.cons.inj written
    cases whole.2 rfl
    rw [← behind]
    rfl
  · exact digits_append whole.1 stop

theorem fraction_append {fs rest : List Char} (fraction : FractionPart fs)
    (stop : ∀ c ∈ rest.head?, isDigit c = false ∧ c ≠ '.') :
    ∃ ds, fraction? (fs ++ rest) = some (ds, rest) := by
  cases fraction with
  | none =>
    refine ⟨[], ?_⟩
    rw [List.nil_append]
    unfold fraction?
    split
    · exact absurd rfl (stop '.' rfl).2
    · rfl
  | @point ds digits => exact ⟨ds, digits_append digits fun c head => (stop c head).1⟩

theorem exponent_append {es rest : List Char} (exponent : ExponentPart es) (ends : Ends rest) :
    ∃ e, exponent? (es ++ rest) = some (e, rest) := by
  cases exponent with
  | none => exact ⟨none, exponent_ends ends⟩
  | @signed sign ds isSign digits =>
    have read := digits_append digits fun c head => (ends c head).1
    rcases isSign with rfl | rfl <;> simp [exponent?, read]

theorem head_exponent {es rest : List Char} (exponent : ExponentPart es) (ends : Ends rest) :
    ∀ c ∈ (es ++ rest).head?, isDigit c = false ∧ c ≠ '.' := by
  intro c head
  cases exponent with
  | none => exact ⟨(ends c head).1, (ends c head).2.1⟩
  | signed =>
    cases head
    decide

theorem head_fraction {fs es rest : List Char} (fraction : FractionPart fs)
    (exponent : ExponentPart es) (ends : Ends rest) :
    ∀ c ∈ (fs ++ (es ++ rest)).head?, isDigit c = false := by
  intro c head
  cases fraction with
  | none => exact (head_exponent exponent ends c head).1
  | point =>
    cases head
    rfl

theorem read_isNumeral {text rest : List Char} (numeral : IsNumeral text) (ends : Ends rest) :
    ∃ n, read? (text ++ rest) = some (n, rest) := by
  obtain ⟨sign, _, rfl, signed, ws, fs, es, rfl, whole, fraction, exponent⟩ := numeral
  have first := whole_append whole (head_fraction fraction exponent ends)
  obtain ⟨ds, second⟩ := fraction_append fraction (head_exponent exponent ends)
  obtain ⟨e, third⟩ := exponent_append exponent ends
  have unsigned : (ws ++ (fs ++ (es ++ rest))).head? ≠ some '-' := by
    obtain ⟨c, cs, rfl⟩ := List.exists_cons_of_ne_nil whole.1.1
    intro head
    cases head
    exact absurd (whole.1.2 '-' List.mem_cons_self) (by decide)
  simp only [List.append_assoc]
  generalize ws ++ (fs ++ (es ++ rest)) = cs at first unsigned ⊢
  rcases signed with rfl | rfl
  · simp [read?, unsigned, first, second, third]
  · simp [read?, first, second, third]

theorem head_isNumeral {text : List Char} (numeral : IsNumeral text) :
    ∃ c cs, text = c :: cs ∧ (isDigit c = true ∨ c = '-') := by
  obtain ⟨sign, _, rfl, signed, ws, fs, es, rfl, whole, -, -⟩ := numeral
  obtain ⟨c, cs, rfl⟩ := List.exists_cons_of_ne_nil whole.1.1
  rcases signed with rfl | rfl
  · exact ⟨c, _, rfl, .inl (whole.1.2 c List.mem_cons_self)⟩
  · exact ⟨'-', _, rfl, .inr rfl⟩

theorem isDigits_ofNat (n : Nat) : IsDigits (Digits.ofNat n) := ⟨ofNat_ne_nil n, isDigit_ofNat n⟩

theorem wholePart_ofNat (n : Nat) : WholePart (Digits.ofNat n) := by
  refine ⟨isDigits_ofNat n, fun head => ?_⟩
  rcases Nat.eq_zero_or_pos n with rfl | positive
  · rfl
  · obtain ⟨d, ds, digits, leading⟩ := ofNat_eq_cons positive
    rw [digits] at head
    exact absurd (Option.some.inj head) leading

theorem wholePart_cons {d : Char} {ds : List Char} (digits : ∀ c ∈ d :: ds, isDigit c = true)
    (leading : d ≠ '0') : WholePart (d :: ds) :=
  ⟨⟨List.cons_ne_nil d ds, digits⟩, fun head => absurd (Option.some.inj head) leading⟩

theorem isDigit_replicate (k : Nat) : ∀ c ∈ List.replicate k '0', isDigit c = true := by
  intro c mem
  rw [List.eq_of_mem_replicate mem]
  rfl

theorem isNumeral_int (n : Int) : IsNumeral (Digits.intText n).toList := by
  have body : IsUnsigned (Digits.ofNat n.natAbs) :=
    ⟨Digits.ofNat n.natAbs, [], [], by simp, wholePart_ofNat _, .none, .none⟩
  by_cases negative : n < 0
  · exact ⟨['-'], _, by simp [Digits.intText, Digits.text, negative], .inr rfl, body⟩
  · exact ⟨[], _, by simp [Digits.intText, Digits.text, negative], .inl rfl, body⟩

theorem isUnsigned_round {d : Decimal} (zero : d.digits = 0 → d = ⟨0, 0⟩)
    (round : 0 ≤ d.exponent) : IsUnsigned (Binary64.positional d ++ ".0").toList := by
  refine ⟨Digits.ofNat d.digits ++ List.replicate d.exponent.toNat '0', ['.', '0'], [], ?_, ?_,
    .point ⟨by simp, List.all_eq_true.mp rfl⟩, .none⟩
  · simp [Binary64.positional, round]
  · rcases Nat.eq_zero_or_pos d.digits with none | positive
    · rw [zero none]
      exact wholePart_ofNat 0
    · obtain ⟨c, cs, digits, leading⟩ := ofNat_eq_cons positive
      have inside : ∀ x ∈ c :: (cs ++ List.replicate d.exponent.toNat '0'), isDigit x = true := by
        rw [← List.cons_append, ← digits]
        exact List.forall_mem_append.mpr ⟨isDigit_ofNat _, isDigit_replicate _⟩
      rw [digits]
      exact wholePart_cons inside leading

-- With more digits than places the first of them leads, and otherwise the zero in front of them.
theorem wholePart_take {c : Char} {cs : List Char} (digits : ∀ x ∈ c :: cs, isDigit x = true)
    (leading : c ≠ '0') (places : Nat) {text : List Char}
    (padded : text = List.replicate (places + 1 - (c :: cs).length) '0' ++ c :: cs) :
    WholePart (text.take (text.length - places)) := by
  by_cases more : places < (c :: cs).length
  · obtain ⟨k, front⟩ : ∃ k, (c :: cs).length - places = k + 1 :=
      Nat.exists_eq_succ_of_ne_zero (by omega)
    rw [Nat.sub_eq_zero_of_le more, List.replicate_zero, List.nil_append] at padded
    rw [padded, front, List.take_succ_cons]
    refine wholePart_cons (fun x mem => digits x ?_) leading
    exact (List.take_sublist k cs).cons_cons c |>.subset mem
  · obtain ⟨k, front⟩ : ∃ k, places + 1 - (c :: cs).length = k + 1 :=
      Nat.exists_eq_succ_of_ne_zero (by omega)
    have one : text.length - places = 1 := by
      rw [padded, List.length_append, List.length_replicate]
      omega
    rw [one, padded, front, List.replicate_succ]
    exact wholePart_ofNat 0

theorem isUnsigned_broken {d : Decimal} (positive : 0 < d.digits) (broken : d.exponent < 0) :
    IsUnsigned (Binary64.positional d).toList := by
  obtain ⟨c, cs, digits, leading⟩ := ofNat_eq_cons positive
  have inside := isDigit_ofNat d.digits
  have point : 0 < (-d.exponent).toNat := by omega
  unfold Binary64.positional
  dsimp only
  rw [if_neg (by omega), digits]
  rw [digits] at inside
  generalize (-d.exponent).toNat = places at point ⊢
  generalize padded : List.replicate (places + 1 - (c :: cs).length) '0' ++ c :: cs = text
  have all : ∀ x ∈ text, isDigit x = true := by
    rw [← padded]
    exact List.forall_mem_append.mpr ⟨isDigit_replicate _, inside⟩
  have length : places < text.length := by
    rw [← padded, List.length_append, List.length_replicate]
    omega
  refine ⟨text.take (text.length - places), '.' :: text.drop (text.length - places), [], ?_,
    wholePart_take inside leading places padded.symm, .point ⟨?_, ?_⟩, .none⟩
  · simp
  · exact List.ne_nil_of_length_pos (by rw [List.length_drop]; omega)
  · exact fun x mem => all x (List.mem_of_mem_drop mem)

theorem isUnsigned_scientific {d : Decimal} (positive : 0 < d.digits) (p : Int) :
    IsUnsigned (Binary64.scientific d p).toList := by
  obtain ⟨c, cs, digits, leading⟩ := ofNat_eq_cons positive
  have inside := isDigit_ofNat d.digits
  rw [digits] at inside
  have front : WholePart [c] :=
    wholePart_cons (fun x mem => inside x (List.mem_cons.mpr (.inl (List.mem_singleton.mp mem))))
      leading
  have exponent : ExponentPart
      ('e' :: (if p < 0 then '-' else '+') :: Digits.ofNat p.natAbs) := by
    refine .signed ?_ (isDigits_ofNat _)
    split <;> simp
  have sign : (if p < 0 then "-" else "+").toList = [if p < 0 then '-' else '+'] := by
    split <;> rfl
  rw [Binary64.scientific, digits]
  cases cs with
  | nil => exact ⟨[c], [], _, by simp [Digits.text, sign], front, .none, exponent⟩
  | cons d ds =>
    refine ⟨[c], '.' :: d :: ds, _, by simp [Digits.text, sign], front, .point ⟨?_, ?_⟩, exponent⟩
    · exact List.cons_ne_nil d ds
    · exact fun x mem => inside x (List.mem_cons_of_mem _ mem)

theorem isNumeral_float (x : Binary64) : IsNumeral x.documentText.toList := by
  have zero : (x.shortest .even).digits = 0 → x.shortest .even = ⟨0, 0⟩ :=
    Binary64.shortest_of_zero
  have signed (body : String) (numeral : IsUnsigned body.toList) :
      IsNumeral (x.sign ++ body).toList := by
    refine ⟨x.sign.toList, body.toList, String.toList_append, ?_, numeral⟩
    unfold Binary64.sign
    split
    · exact .inr rfl
    · exact .inl rfl
  apply signed
  generalize x.shortest .even = d at zero ⊢
  rcases Nat.eq_zero_or_pos d.digits with none | positive
  · rw [zero none]
    exact isUnsigned_round (fun _ => rfl) (Int.le_refl 0)
  split
  · split
    · next round => exact isUnsigned_round zero round
    · next broken => exact isUnsigned_broken positive (Int.not_le.mp broken)
  · exact isUnsigned_scientific positive _

theorem isNumeral_text (n : Number) : IsNumeral n.text.toList := by
  cases n with
  | int n => exact isNumeral_int n.val
  | float x => exact isNumeral_float x

end Json.Numeral

end QueryBuilder
