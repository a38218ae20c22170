import QueryBuilder.Number.Digits

set_option autoImplicit false

namespace QueryBuilder

structure Date where
  year : Int
  month : Nat
  day : Nat
  deriving DecidableEq, Repr

namespace Date

def isLeapYear (year : Int) : Bool :=
  year % 4 == 0 && (year % 100 != 0 || year % 400 == 0)

def daysInMonth (year : Int) (month : Nat) : Nat :=
  if month = 2 then if isLeapYear year then 29 else 28
  else if month = 4 ∨ month = 6 ∨ month = 9 ∨ month = 11 then 30
  else 31

-- A day of the calendar, in a year that can be counted with.
def IsValid (d : Date) : Prop :=
  (-262143 ≤ d.year ∧ d.year ≤ 262142) ∧ (1 ≤ d.month ∧ d.month ≤ 12) ∧
    (1 ≤ d.day ∧ d.day ≤ daysInMonth d.year d.month)

instance (d : Date) : Decidable d.IsValid := inferInstanceAs (Decidable (_ ∧ _))

def next (d : Date) : Date :=
  if d.day < daysInMonth d.year d.month then { d with day := d.day + 1 }
  else if d.month < 12 then ⟨d.year, d.month + 1, 1⟩
  else ⟨d.year + 1, 1, 1⟩

def previous (d : Date) : Date :=
  if 1 < d.day then { d with day := d.day - 1 }
  else if 1 < d.month then ⟨d.year, d.month - 1, daysInMonth d.year (d.month - 1)⟩
  else ⟨d.year - 1, 12, 31⟩

def yearText (year : Int) : String :=
  if 0 ≤ year ∧ year ≤ 9999 then Digits.padded 4 year.toNat
  else (if year < 0 then "-" else "+") ++ Digits.padded 4 year.natAbs

def text (d : Date) : String :=
  yearText d.year ++ "-" ++ Digits.padded 2 d.month ++ "-" ++ Digits.padded 2 d.day

end Date

-- The second 60 is a leap second.
structure Moment where
  date : Date
  hour : Nat
  minute : Nat
  second : Nat
  millisecond : Nat
  deriving DecidableEq, Repr

namespace Moment

def IsValid (m : Moment) : Prop :=
  m.date.IsValid ∧ m.hour < 24 ∧ m.minute < 60 ∧ m.second ≤ 60 ∧ m.millisecond < 1000

instance (m : Moment) : Decidable m.IsValid := inferInstanceAs (Decidable (_ ∧ _))

def behind (m : Moment) (minutes : Int) : Moment :=
  let t : Int := 60 * m.hour + m.minute - minutes
  let date := if t < 0 then m.date.previous else if t < 1440 then m.date else m.date.next
  let t := (t % 1440).toNat
  { m with date := date, hour := t / 60, minute := t % 60 }

def text (m : Moment) : String :=
  m.date.text ++ "T" ++ Digits.padded 2 m.hour ++ ":" ++ Digits.padded 2 m.minute ++ ":" ++
    Digits.padded 2 m.second ++ "." ++ Digits.padded 3 m.millisecond ++ "Z"

end Moment

end QueryBuilder
