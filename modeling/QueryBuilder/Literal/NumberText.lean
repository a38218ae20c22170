import QueryBuilder.Number.Binary64

set_option autoImplicit false

namespace QueryBuilder

structure NumberText where
  negative : Bool
  whole : List Char
  fraction : Option (List Char)
  exponent : Option Int
  deriving DecidableEq, Repr

namespace NumberText

open Text

def sign : List Char → Bool × List Char
  | '-' :: rest => (true, rest)
  | '+' :: rest => (false, rest)
  | cs => (false, cs)

def point : List Char → Option (List Char) × List Char
  | '.' :: rest => (some (rest.takeWhile isDigit), rest.dropWhile isDigit)
  | cs => (none, cs)

def exponent? : List Char → Option (Option Int)
  | [] => some none
  | c :: rest =>
    if c = 'e' ∨ c = 'E' then
      let (negative, digits) := sign rest
      if digits ≠ [] ∧ digits.all isDigit then
        some (some (if negative then -(Digits.value digits : Int) else Digits.value digits))
      else none
    else none

def read? (cs : List Char) : Option NumberText :=
  let (negative, cs) := sign cs
  let whole := cs.takeWhile isDigit
  let (fraction, cs) := point (cs.dropWhile isDigit)
  if whole = [] ∧ fraction.getD [] = [] then none
  else (exponent? cs).map fun exponent => ⟨negative, whole, fraction, exponent⟩

def int? (n : NumberText) : Option Int64 :=
  let m := Digits.value n.whole
  let z : Int := if n.negative then -m else m
  if n.fraction.isNone ∧ n.exponent.isNone ∧ -0x8000000000000000 ≤ z ∧ z < 0x8000000000000000 then
    some (Int64.ofInt z)
  else none

def float? (n : NumberText) : Option Binary64 :=
  let fraction := n.fraction.getD []
  Binary64.ofDecimal n.negative (Digits.value (n.whole ++ fraction))
    (n.exponent.getD 0 - fraction.length)

end NumberText

end QueryBuilder
