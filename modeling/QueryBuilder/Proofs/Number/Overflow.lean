import QueryBuilder.Number.Binary64

set_option autoImplicit false

namespace QueryBuilder.Binary64

variable {num den : Nat}

def whole (num den : Nat) (e : Int) : Nat := (scaled num den e).1 / (scaled num den e).2

theorem scaled_eq (num den : Nat) (e : Int) :
    scaled num den e = (num * Nat.pow 2 (-e).toNat, den * Nat.pow 2 e.toNat) := by
  unfold scaled
  split
  · next up =>
    have none : (-e).toNat = 0 := by omega
    rw [none]
    exact congrArg (·, _) (Nat.mul_one num).symm
  · next down =>
    have none : e.toNat = 0 := by omega
    rw [none]
    exact congrArg (_, ·) (Nat.mul_one den).symm

theorem scaled_pos (num : Nat) (positive : 0 < den) (e : Int) : 0 < (scaled num den e).2 := by
  rw [scaled_eq]
  exact Nat.mul_pos positive (Nat.pow_pos (by decide))

theorem le_whole_iff (positive : 0 < den) {e : Int} {n : Nat} :
    n ≤ whole num den e ↔ n * (den * Nat.pow 2 e.toNat) ≤ num * Nat.pow 2 (-e).toNat := by
  have divisor := scaled_pos num positive e
  rw [whole, Nat.le_div_iff_mul_le divisor, scaled_eq]

theorem whole_succ (num den : Nat) (e : Int) : whole num den (e + 1) = whole num den e / 2 := by
  simp only [whole, scaled_eq]
  rw [Nat.div_div_eq_div_mul]
  by_cases up : 0 ≤ e
  · have more : (e + 1).toNat = e.toNat + 1 := by omega
    have same : (-(e + 1)).toNat = (-e).toNat := by omega
    rw [more, same]
    exact congrArg _ (Nat.mul_assoc _ _ _).symm
  · have less : (-e).toNat = (-(e + 1)).toNat + 1 := by omega
    have same : (e + 1).toNat = e.toNat := by omega
    rw [less, same]
    have double : num * Nat.pow 2 ((-(e + 1)).toNat + 1) = num * Nat.pow 2 (-(e + 1)).toNat * 2 :=
      (Nat.mul_assoc _ _ _).symm
    rw [double, Nat.mul_div_mul_right _ _ (by decide)]

theorem whole_antitone {e e' : Int} (le : e ≤ e') : whole num den e' ≤ whole num den e := by
  obtain ⟨k, rfl⟩ := Int.le.dest le
  induction k with
  | zero => simp
  | succ k ih =>
    have step := whole_succ num den (e + k)
    have before := ih (by omega)
    have next : e + ((k + 1 : Nat) : Int) = e + k + 1 := by omega
    rw [next, step]
    omega

theorem two_pow_add (m n : Nat) : Nat.pow 2 (m + n) = Nat.pow 2 m * Nat.pow 2 n :=
  Nat.pow_add 2 m n

-- The lengths of the two numbers leave the quotient one bit of leeway.
theorem whole_leading (other : num ≠ 0) (positive : 0 < den) {e : Int}
    (leading : e = (Nat.log2 num : Int) - Nat.log2 den - 53) :
    Nat.pow 2 52 ≤ whole num den e ∧ ¬Nat.pow 2 54 ≤ whole num den e := by
  have numLow : Nat.pow 2 num.log2 ≤ num := Nat.log2_self_le other
  have numHigh : num < Nat.pow 2 (num.log2 + 1) := Nat.lt_log2_self
  have denLow : Nat.pow 2 den.log2 ≤ den := Nat.log2_self_le (Nat.ne_of_gt positive)
  have denHigh : den < Nat.pow 2 (den.log2 + 1) := Nat.lt_log2_self
  rw [le_whole_iff positive, le_whole_iff positive]
  generalize up : e.toNat = u
  generalize down : (-e).toNat = d
  constructor
  · have bits : 52 + (den.log2 + 1 + u) = num.log2 + d := by omega
    calc Nat.pow 2 52 * (den * Nat.pow 2 u)
        ≤ Nat.pow 2 52 * (Nat.pow 2 (den.log2 + 1) * Nat.pow 2 u) :=
          Nat.mul_le_mul_left _ (Nat.mul_le_mul_right _ (Nat.le_of_lt denHigh))
      _ = Nat.pow 2 num.log2 * Nat.pow 2 d := by
          rw [← two_pow_add, ← two_pow_add, ← two_pow_add, bits]
      _ ≤ num * Nat.pow 2 d := Nat.mul_le_mul_right _ numLow
  · have bits : 54 + (den.log2 + u) = num.log2 + 1 + d := by omega
    apply Nat.not_le.mpr
    calc num * Nat.pow 2 d
        < Nat.pow 2 (num.log2 + 1) * Nat.pow 2 d :=
          Nat.mul_lt_mul_of_pos_right numHigh (Nat.pow_pos (by decide))
      _ = Nat.pow 2 54 * (Nat.pow 2 den.log2 * Nat.pow 2 u) := by
          rw [← two_pow_add, ← two_pow_add, ← two_pow_add, bits]
      _ ≤ Nat.pow 2 54 * (den * Nat.pow 2 u) :=
          Nat.mul_le_mul_left _ (Nat.mul_le_mul_right _ denLow)

theorem exponentFor_spec (other : num ≠ 0) (positive : 0 < den) :
    whole num den (exponentFor num den) < Nat.pow 2 53 ∧
      (exponentFor num den = minExponent ∨
        Nat.pow 2 52 ≤ whole num den (exponentFor num den)) := by
  generalize leading : (Nat.log2 num : Int) - Nat.log2 den - 53 = e
  obtain ⟨low, high⟩ := whole_leading other positive leading.symm
  have fits : ∃ e', exponentFor num den = max minExponent e' ∧
      whole num den e' < Nat.pow 2 53 ∧ Nat.pow 2 52 ≤ whole num den e' := by
    refine ⟨if whole num den e < Nat.pow 2 53 then e else e + 1, ?_, ?_⟩
    · rw [exponentFor, leading]
      rfl
    · split
      · next small => exact ⟨small, low⟩
      · next large =>
        rw [whole_succ]
        have : Nat.pow 2 54 = 2 * Nat.pow 2 53 := rfl
        have : Nat.pow 2 53 = 2 * Nat.pow 2 52 := rfl
        omega
  obtain ⟨e', made, below, above⟩ := fits
  rcases Int.le_total e' minExponent with least | exact'
  · rw [made, Int.max_eq_left least]
    exact ⟨Nat.lt_of_le_of_lt (whole_antitone least) below, .inl rfl⟩
  · rw [made, Int.max_eq_right exact']
    exact ⟨below, .inr above⟩

theorem roundQuotient_cases (num den : Nat) :
    (roundQuotient num den = num / den ∧
        (2 * (num % den) < den ∨ 2 * (num % den) = den ∧ num / den % 2 = 0)) ∨
      (roundQuotient num den = num / den + 1 ∧
        (den < 2 * (num % den) ∨ 2 * (num % den) = den ∧ num / den % 2 = 1)) := by
  unfold roundQuotient
  dsimp only
  split
  · omega
  · split <;> omega

theorem le_roundQuotient_iff (num : Nat) (positive : 0 < den) {n : Nat} (odd : n % 2 = 1) :
    n + 1 ≤ roundQuotient num den ↔ (2 * n + 1) * den ≤ 2 * num := by
  have parts := Nat.div_add_mod num den
  have rest := Nat.mod_lt num positive
  have bound : (2 * n + 1) * den = 2 * (den * n) + den := by
    rw [Nat.succ_mul, Nat.mul_assoc, Nat.mul_comm n den]
  rw [bound]
  have rounded := roundQuotient_cases num den
  generalize num / den = q at *
  generalize num % den = r at *
  rcases Nat.lt_trichotomy q n with below | rfl | above
  · have step := Nat.mul_le_mul_left den below
    rw [Nat.mul_succ] at step
    omega
  · omega
  · have step := Nat.mul_le_mul_left den above
    rw [Nat.mul_succ] at step
    omega

-- With n = 970 this is half a unit above the greatest number, 2 ^ 1024 - 2 ^ 970.
def halfAbove (n : Nat) : Nat := (Nat.pow 2 54 - 1) * Nat.pow 2 n

theorem halfAbove_pos (n : Nat) : 0 < halfAbove n :=
  Nat.mul_pos (by decide) (Nat.pow_pos (by decide))

theorem halfAbove_le {n k : Nat} (large : n + 2 ≤ k) (den : Nat) :
    halfAbove n * den ≤ Nat.pow 2 52 * (den * Nat.pow 2 k) := by
  have power : Nat.pow 2 (n + 2) ≤ Nat.pow 2 k := Nat.pow_le_pow_right (by decide) large
  calc halfAbove n * den
      ≤ Nat.pow 2 54 * Nat.pow 2 n * den :=
        Nat.mul_le_mul_right den (Nat.mul_le_mul_right _ (Nat.sub_le _ _))
    _ = Nat.pow 2 52 * (den * Nat.pow 2 (n + 2)) := by
        rw [← two_pow_add, Nat.mul_left_comm, ← two_pow_add, Nat.mul_comm]
        congr 2
        omega
    _ ≤ Nat.pow 2 52 * (den * Nat.pow 2 k) :=
        Nat.mul_le_mul_left _ (Nat.mul_le_mul_left den power)

theorem le_halfAbove {n k : Nat} (small : k ≤ n) (den : Nat) :
    Nat.pow 2 53 * (den * Nat.pow 2 k) ≤ halfAbove n * den := by
  have power : Nat.pow 2 k ≤ Nat.pow 2 n := Nat.pow_le_pow_right (by decide) small
  calc Nat.pow 2 53 * (den * Nat.pow 2 k)
      ≤ Nat.pow 2 53 * (den * Nat.pow 2 n) :=
        Nat.mul_le_mul_left _ (Nat.mul_le_mul_left den power)
    _ = Nat.pow 2 53 * Nat.pow 2 n * den := by rw [Nat.mul_assoc, Nat.mul_comm den]
    _ ≤ halfAbove n * den := Nat.mul_le_mul_right den (Nat.mul_le_mul_right _ (by decide))

theorem double_halfAbove (n den : Nat) :
    (2 * (Nat.pow 2 53 - 1) + 1) * (den * Nat.pow 2 (n + 1)) = 2 * (halfAbove n * den) := by
  have odd : 2 * (Nat.pow 2 53 - 1) + 1 = Nat.pow 2 54 - 1 := rfl
  have double : Nat.pow 2 (n + 1) = Nat.pow 2 n * 2 := rfl
  rw [odd, double, halfAbove]
  generalize Nat.pow 2 n = x
  generalize Nat.pow 2 54 - 1 = y
  rw [Nat.mul_comm 2, Nat.mul_assoc y, Nat.mul_assoc y, Nat.mul_comm x den, Nat.mul_assoc den]

-- At the greatest exponent a number is lost if its mantissa is rounded up to one bit more.
theorem overflow_iff (other : num ≠ 0) (positive : 0 < den) {e : Int} {m : Nat}
    (exponent : exponentFor num den = e)
    (mantissa : roundQuotient (scaled num den e).1 (scaled num den e).2 = m) :
    (maxExponent < e ∨ e = maxExponent ∧ Nat.pow 2 53 ≤ m) ↔ halfAbove 970 * den ≤ num := by
  obtain ⟨below, above⟩ := exponentFor_spec other positive
  rw [exponent] at below above
  have below := mt (le_whole_iff positive).mpr (Nat.not_le.mpr below)
  have least : minExponent = -1074 := rfl
  have greatest : maxExponent = 971 := rfl
  rcases Int.lt_trichotomy maxExponent e with large | rfl | small
  · have above := (le_whole_iff positive).mp (above.resolve_left (by omega))
    have unscaled : (-e).toNat = 0 := by omega
    rw [unscaled] at above
    have beyond := Nat.le_trans (halfAbove_le (n := 970) (by omega) den) above
    exact iff_of_true (.inl large) (Nat.mul_one num ▸ beyond)
  · have odd : (Nat.pow 2 53 - 1) % 2 = 1 := by decide
    have unscaled : (scaled num den maxExponent).1 = num := rfl
    have full := le_roundQuotient_iff num (scaled_pos num positive maxExponent) odd
    rw [unscaled] at mantissa
    rw [mantissa] at full
    have double : _ = 2 * (halfAbove 970 * den) := double_halfAbove 970 den
    have power : maxExponent.toNat = 970 + 1 := rfl
    rw [scaled_eq, power, double] at full
    have next : Nat.pow 2 53 - 1 + 1 = Nat.pow 2 53 := rfl
    rw [next] at full
    omega
  · have inside := le_halfAbove (n := 970) (k := e.toNat) (by omega) den
    have grown : num ≤ num * Nat.pow 2 (-e).toNat :=
      Nat.le_mul_of_pos_right num (Nat.pow_pos (by decide))
    refine iff_of_false ?_ ?_ <;> omega

theorem ofQuotient_eq_none_iff (negative : Bool) (num : Nat) (positive : 0 < den) :
    ofQuotient negative num den = none ↔ halfAbove 970 * den ≤ num := by
  unfold ofQuotient
  split
  · next zero =>
    have : 0 < halfAbove 970 * den := Nat.mul_pos (halfAbove_pos 970) positive
    refine iff_of_false ?_ (by omega)
    intro none
    cases none
  · next other =>
    rw [← overflow_iff other positive rfl rfl]
    have below : whole num den (exponentFor num den) < Nat.pow 2 53 :=
      (exponentFor_spec other positive).1
    rw [whole] at below
    dsimp only
    generalize exponentFor num den = e at below ⊢
    have rounded := roundQuotient_cases (scaled num den e).1 (scaled num den e).2
    have fits : roundQuotient (scaled num den e).1 (scaled num den e).2 ≤ Nat.pow 2 53 := by omega
    generalize roundQuotient (scaled num den e).1 (scaled num den e).2 = m at fits ⊢
    by_cases full : m = Nat.pow 2 53
    · simp only [full, if_true, ite_eq_right_iff, reduceCtorEq, imp_false]
      omega
    · simp only [full, if_false, ite_eq_right_iff, reduceCtorEq, imp_false]
      omega

theorem ten_pow_add (m n : Nat) : Nat.pow 10 (m + n) = Nat.pow 10 m * Nat.pow 10 n :=
  Nat.pow_add 10 m n

theorem count_pos (n : Nat) : 0 < Digits.count n := List.length_pos_iff.mpr Nat.toDigits_ne_nil

theorem lt_pow_count (n : Nat) : n < Nat.pow 10 (Digits.count n) :=
  (Nat.length_toDigits_le_iff (by decide) (count_pos n)).mp (Nat.le_refl _)

theorem pow_le_of_lt_count {n k : Nat} (shorter : k < Digits.count n) (other : n ≠ 0) :
    Nat.pow 10 k ≤ n := by
  rcases Nat.eq_zero_or_pos k with rfl | positive
  · exact Nat.pos_of_ne_zero other
  · have long := mt (Nat.length_toDigits_le_iff (n := n) (by decide) positive).mpr
      (Nat.not_le.mpr shorter)
    exact Nat.not_lt.mp long

theorem ofDecimal_eq_none_iff (negative : Bool) (digits : Nat) (exponent : Int) :
    ofDecimal negative digits exponent = none ↔
      halfAbove 970 * Nat.pow 10 (-exponent).toNat ≤ digits * Nat.pow 10 exponent.toNat := by
  have scale (k : Nat) : 0 < Nat.pow 10 k := Nat.pow_pos (by decide)
  unfold ofDecimal
  split
  · next zero =>
    have : 0 < halfAbove 970 * Nat.pow 10 (-exponent).toNat :=
      Nat.mul_pos (halfAbove_pos 970) (scale _)
    rw [zero, Nat.zero_mul]
    exact iff_of_false (fun none => by cases none) (Nat.not_le.mpr this)
  next other =>
  dsimp only
  generalize up : exponent.toNat = u
  generalize down : (-exponent).toNat = d
  split
  · next large =>
    -- The digits alone bring the number above 10 ^ 400.
    refine iff_of_true rfl ?_
    have some := count_pos digits
    obtain ⟨k, places, bound⟩ : ∃ k, k = 400 ∧ halfAbove 970 ≤ Nat.pow 10 k :=
      ⟨400, rfl, by decide +kernel⟩
    have digit : Nat.pow 10 (k + d - u) ≤ digits := pow_le_of_lt_count (by omega) other
    have power : Nat.pow 10 (k + d) ≤ Nat.pow 10 (k + d - u + u) :=
      Nat.pow_le_pow_right (by decide) (by omega)
    calc halfAbove 970 * Nat.pow 10 d
        ≤ Nat.pow 10 k * Nat.pow 10 d := Nat.mul_le_mul_right _ bound
      _ ≤ Nat.pow 10 (k + d - u) * Nat.pow 10 u := by
          rw [← ten_pow_add, ← ten_pow_add]
          exact power
      _ ≤ digits * Nat.pow 10 u := Nat.mul_le_mul_right _ digit
  split
  · next small =>
    refine iff_of_false (fun none => by cases none) (Nat.not_le.mpr ?_)
    have power : Nat.pow 10 (Digits.count digits + u) ≤ Nat.pow 10 d :=
      Nat.pow_le_pow_right (by decide) (by omega)
    calc digits * Nat.pow 10 u
        < Nat.pow 10 (Digits.count digits) * Nat.pow 10 u :=
          Nat.mul_lt_mul_of_pos_right (lt_pow_count digits) (scale u)
      _ ≤ Nat.pow 10 d := by
          rw [← ten_pow_add]
          exact power
      _ ≤ halfAbove 970 * Nat.pow 10 d := Nat.le_mul_of_pos_left _ (halfAbove_pos 970)
  split
  · have none : d = 0 := by omega
    rw [ofQuotient_eq_none_iff negative _ (by decide), none]
  · have none : u = 0 := by omega
    have single : digits * Nat.pow 10 0 = digits := Nat.mul_one digits
    rw [ofQuotient_eq_none_iff negative _ (scale d), none, single]

end QueryBuilder.Binary64
