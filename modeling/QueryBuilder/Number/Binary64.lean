import QueryBuilder.Number.Digits

set_option autoImplicit false

namespace QueryBuilder

-- The mantissa has 53 bits, unless the exponent is the least one.
structure Binary64 where
  negative : Bool
  mantissa : Nat
  exponent : Int
  deriving DecidableEq, Repr

namespace Binary64

def minExponent : Int := -1074

def maxExponent : Int := 971

def zero (negative : Bool) : Binary64 := ⟨negative, 0, minExponent⟩

def negate (x : Binary64) : Binary64 := { x with negative := !x.negative }

-- `num / den` to the nearest integer, a half to the even one.
def roundQuotient (num den : Nat) : Nat :=
  let q := num / den
  let r := num % den
  if 2 * r < den then q
  else if den < 2 * r then q + 1
  else q + q % 2

def scaled (num den : Nat) (e : Int) : Nat × Nat :=
  if 0 ≤ e then (num, den * Nat.pow 2 e.toNat) else (num * Nat.pow 2 (-e).toNat, den)

def exponentFor (num den : Nat) : Int :=
  let e : Int := (Nat.log2 num : Int) - Nat.log2 den - 53
  let s := scaled num den e
  max minExponent (if s.1 / s.2 < Nat.pow 2 53 then e else e + 1)

-- The number nearest to `num / den`, of two the one with an even mantissa. There is none beyond the
-- greatest finite number.
def ofQuotient (negative : Bool) (num den : Nat) : Option Binary64 :=
  if num = 0 then some (zero negative)
  else
    let e := exponentFor num den
    let s := scaled num den e
    let m := roundQuotient s.1 s.2
    let x : Binary64 :=
      if m = Nat.pow 2 53 then ⟨negative, Nat.pow 2 52, e + 1⟩ else ⟨negative, m, e⟩
    if x.exponent ≤ maxExponent then some x else none

def ofNat (n : Nat) : Option Binary64 := ofQuotient false n 1

def quotient (x : Binary64) : Nat × Nat :=
  if 0 ≤ x.exponent then (x.mantissa * Nat.pow 2 x.exponent.toNat, 1)
  else (x.mantissa, Nat.pow 2 (-x.exponent).toNat)

def mul (x y : Binary64) : Option Binary64 :=
  ofQuotient (x.negative != y.negative) (x.quotient.1 * y.quotient.1)
    (x.quotient.2 * y.quotient.2)

def div (x y : Binary64) : Option Binary64 :=
  ofQuotient (x.negative != y.negative) (x.quotient.1 * y.quotient.2)
    (x.quotient.2 * y.quotient.1)

-- Beyond 400 decimal places the answer is known without the power.
def ofDecimal (negative : Bool) (digits : Nat) (exponent : Int) : Option Binary64 :=
  if digits = 0 then some (zero negative)
  else
    let magnitude : Int := Digits.count digits + exponent
    if 400 < magnitude then none
    else if magnitude < -400 then some (zero negative)
    else if 0 ≤ exponent then ofQuotient negative (digits * Nat.pow 10 exponent.toNat) 1
    else ofQuotient negative digits (Nat.pow 10 (-exponent).toNat)

end Binary64

end QueryBuilder
