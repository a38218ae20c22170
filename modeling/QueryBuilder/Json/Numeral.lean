import QueryBuilder.Json.Value

set_option autoImplicit false

namespace QueryBuilder.Json

structure Numeral where
  negative : Bool
  whole : List Char
  fraction : List Char
  isInteger : Bool
  exponent : Int

namespace Numeral

open Text

def digits? (cs : List Char) : Option (List Char × List Char) :=
  match cs.takeWhile isDigit with
  | [] => none
  | ds => some (ds, cs.dropWhile isDigit)

def whole? : List Char → Option (List Char × List Char)
  | '0' :: rest => some (['0'], rest)
  | cs => digits? cs

def fraction? : List Char → Option (List Char × List Char)
  | '.' :: rest => digits? rest
  | cs => some ([], cs)

def exponent? : List Char → Option (Option Int × List Char)
  | c :: rest =>
    if c = 'e' ∨ c = 'E' then
      match rest with
      | '-' :: rest => (digits? rest).map fun r => (some (-(Digits.value r.1 : Int)), r.2)
      | '+' :: rest => (digits? rest).map fun r => (some (Digits.value r.1 : Int), r.2)
      | rest => (digits? rest).map fun r => (some (Digits.value r.1 : Int), r.2)
    else some (none, c :: rest)
  | [] => some (none, [])

def read? (cs : List Char) : Option (Numeral × List Char) := do
  let negative := cs.head? == some '-'
  let (whole, cs) ← whole? (if negative then cs.tail else cs)
  let hasPoint := cs.head? == some '.'
  let (fraction, cs) ← fraction? cs
  let (exponent, cs) ← exponent? cs
  return (⟨negative, whole, fraction, !hasPoint && exponent.isNone, exponent.getD 0⟩, cs)

theorem length_digits {cs ds rest : List Char} (h : digits? cs = some (ds, rest)) :
    rest.length < cs.length := by
  unfold digits? at h
  split at h
  · cases h
  · next hne =>
    cases h
    have := congrArg List.length (List.takeWhile_append_dropWhile (p := isDigit) (l := cs))
    have : 0 < (cs.takeWhile isDigit).length := List.length_pos_iff.2 hne
    simp only [List.length_append] at *
    omega

theorem length_whole {cs ds rest : List Char} (h : whole? cs = some (ds, rest)) :
    rest.length < cs.length := by
  unfold whole? at h
  split at h
  · cases h
    exact Nat.lt_succ_self _
  · exact length_digits h

theorem length_fraction {cs ds rest : List Char} (h : fraction? cs = some (ds, rest)) :
    rest.length ≤ cs.length := by
  unfold fraction? at h
  split at h
  · exact Nat.le_succ_of_le (Nat.le_of_lt (length_digits h))
  · cases h
    exact Nat.le_refl _

theorem length_exponent {cs rest : List Char} {e : Option Int}
    (h : exponent? cs = some (e, rest)) : rest.length ≤ cs.length := by
  unfold exponent? at h
  split at h
  · split at h
    · split at h <;>
        · obtain ⟨r, hr, h⟩ := Option.map_eq_some_iff.1 h
          cases h
          have := length_digits hr
          simp only [List.length_cons] at *
          omega
    · cases h
      exact Nat.le_refl _
  · cases h
    exact Nat.le_refl _

theorem length_read {c : Char} {cs rest : List Char} {n : Numeral}
    (h : read? (c :: cs) = some (n, rest)) : rest.length ≤ cs.length := by
  simp only [read?, Option.bind_eq_bind, Option.bind_eq_some_iff, Prod.exists] at h
  obtain ⟨ds, r₁, h₁, fs, r₂, h₂, e, r₃, h₃, h⟩ := h
  cases h
  have := length_fraction h₂
  have := length_exponent h₃
  have := length_whole h₁
  split at this <;> simp only [List.tail_cons, List.length_cons] at * <;> omega

-- Continues `n` by the leading digits that keep it below `2 ^ 64`, and counts the others.
def leading (n : Nat) : List Char → Nat × Nat
  | [] => (n, 0)
  | c :: rest =>
    if 10 * n + Digits.digit c < Nat.pow 2 64 then leading (10 * n + Digits.digit c) rest
    else (n, rest.length + 1)

-- One rounding at a time.
def scale : Nat → Binary64 → Int → Option Binary64
  | fuel, x, e =>
    if -308 ≤ e ∧ e ≤ 308 then do
      let power ← Binary64.ofNat (Nat.pow 10 e.natAbs)
      if 0 ≤ e then x.mul power else x.div power
    else if x.mantissa = 0 then some x
    else if 0 ≤ e then none
    else
      -- Each step takes 308 places, so four steps lead from any number to zero.
      match fuel with
      | 0 => some (.zero x.negative)
      | fuel + 1 => do
        let power ← Binary64.ofNat (Nat.pow 10 308)
        let y ← x.div power
        scale fuel y (e + 308)

def exponentLimit : Int := 0x7fffffff

def toFloat (n : Numeral) : Option Binary64 := do
  let (w, dropped) := leading 0 n.whole
  let (s, unread) := leading w n.fraction
  let places : Int := (dropped : Int) - (n.fraction.length - unread : Nat)
  let x ← Binary64.ofNat s
  let y ←
    if exponentLimit < n.exponent then if s = 0 then some x else none
    else if n.exponent < -exponentLimit then some (Binary64.zero false)
    else scale 4 x (places + n.exponent)
  return if n.negative then y.negate else y

-- The leading digits are rounded first and then scaled. Both roundings are part of the format: a
-- number with many digits may come out one unit away from the nearest.
def value? (n : Numeral) : Option Number :=
  let m := Digits.value n.whole
  let z : Int := if n.negative then -m else m
  if n.isInteger && !(n.negative && m == 0) then
    match Integer.ofInt? z with
    | some i => some (.int i)
    | none => n.toFloat.map .float
  else n.toFloat.map .float

end Numeral

end QueryBuilder.Json
