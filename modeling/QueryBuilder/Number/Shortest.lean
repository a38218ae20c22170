import QueryBuilder.Number.Binary64

set_option autoImplicit false

namespace QueryBuilder

inductive Tie where
  | up
  | even
  deriving DecidableEq, Repr

structure Decimal where
  digits : Nat
  exponent : Int
  deriving DecidableEq, Repr

namespace Decimal

def strip : Nat → Decimal → Decimal
  | 0, d => d
  | fuel + 1, d =>
    if d.digits % 10 = 0 ∧ d.digits ≠ 0 then strip fuel ⟨d.digits / 10, d.exponent + 1⟩ else d

end Decimal

namespace Binary64

-- The real numbers that round to a number, all three over one denominator: the number itself and
-- the ends of the interval, which belong to it if `closed`.
structure Interval where
  low : Nat
  value : Nat
  high : Nat
  den : Nat
  closed : Bool

def interval (x : Binary64) : Interval :=
  -- Below a power of two the next number is half as far away as above it.
  let below := if x.mantissa = Nat.pow 2 52 ∧ minExponent < x.exponent then 1 else 2
  let up := Nat.pow 2 x.exponent.toNat
  { low := (4 * x.mantissa - below) * up
    value := 4 * x.mantissa * up
    high := (4 * x.mantissa + 2) * up
    den := 4 * Nat.pow 2 (-x.exponent).toNat
    closed := x.mantissa % 2 = 0 }

def Interval.inUnits (i : Interval) (q : Int) : Interval :=
  let up := Nat.pow 10 (-q).toNat
  { i with
    low := i.low * up
    value := i.value * up
    high := i.high * up
    den := i.den * Nat.pow 10 q.toNat }

def Interval.contains (i : Interval) (n : Nat) : Bool :=
  if i.closed then i.low ≤ n * i.den && n * i.den ≤ i.high
  else i.low < n * i.den && n * i.den < i.high

def Interval.nearest? (tie : Tie) (i : Interval) : Option Nat :=
  let n := i.value / i.den
  let r := i.value % i.den
  let above := i.den < 2 * r ∨ (2 * r = i.den ∧ (tie = .up ∨ n % 2 = 1))
  match i.contains n, i.contains (n + 1) with
  | true, true => some (if above then n + 1 else n)
  | true, false => some n
  | false, true => some (n + 1)
  | false, false => none

def leadingExponent (i : Interval) : Int :=
  -- The least number is greater than `10 ^ (-400)`.
  (Digits.count (i.value * Nat.pow 10 400 / i.den) : Int) - 401

/-- The decimal with the fewest digits among those that round to `x`, and of these the nearest to
it. -/
def shortest (tie : Tie) (x : Binary64) : Decimal :=
  if x.mantissa = 0 then ⟨0, 0⟩
  else
    let i := x.interval
    let p := leadingExponent i
    let atDigit (k : Nat) : Option Decimal :=
      ((i.inUnits (p - k)).nearest? tie).map fun n => ⟨n, p - k⟩
    -- Seventeen digits are always enough.
    match (List.range 17).findSome? atDigit with
    | some d => d.strip 20
    | none => ⟨0, 0⟩

def sign (x : Binary64) : String := if x.negative then "-" else ""

def positional (d : Decimal) : String :=
  let digits := Digits.ofNat d.digits
  if 0 ≤ d.exponent then String.ofList (digits ++ List.replicate d.exponent.toNat '0')
  else
    let places := (-d.exponent).toNat
    let digits := List.replicate (places + 1 - digits.length) '0' ++ digits
    String.ofList (digits.take (digits.length - places)) ++ "." ++
      String.ofList (digits.drop (digits.length - places))

def scientific (d : Decimal) (p : Int) : String :=
  match Digits.ofNat d.digits with
  | [] => ""
  | c :: rest =>
    String.singleton c ++ (if rest = [] then "" else "." ++ String.ofList rest) ++ "e" ++
      (if p < 0 then "-" else "+") ++ Digits.text p.natAbs

def plainText (x : Binary64) : String := x.sign ++ positional (x.shortest .up)

-- In a document numbers below `10 ^ (-5)` or not below `10 ^ 16` have an exponent, and all others a
-- point, so that none reads as an integer.
def documentText (x : Binary64) : String :=
  let d := x.shortest .even
  let p : Int := (Digits.count d.digits : Int) - 1 + d.exponent
  x.sign ++
    if -5 ≤ p ∧ p < 16 then
      if 0 ≤ d.exponent then positional d ++ ".0" else positional d
    else scientific d p

end Binary64

end QueryBuilder
