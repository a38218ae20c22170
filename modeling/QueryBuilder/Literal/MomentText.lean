import QueryBuilder.Literal.Moment

set_option autoImplicit false

namespace QueryBuilder.MomentText

open Text

def mark? (c : Char) : List Char → Option (List Char)
  | d :: rest => if d = c then some rest else none
  | [] => none

def fixed? (width : Nat) (cs : List Char) : Option (Nat × List Char) :=
  let digits := cs.take width
  if digits.length = width ∧ digits.all isDigit then some (Digits.value digits, cs.drop width)
  else none

-- What is smaller than a thousandth is dropped.
def milliseconds (digits : List Char) : Nat :=
  let first := digits.take 3
  Digits.value first * Nat.pow 10 (3 - first.length)

def fraction? : List Char → Option (Nat × List Char)
  | '.' :: rest =>
    match rest.takeWhile isDigit with
    | [] => none
    | digits => some (milliseconds digits, rest.dropWhile isDigit)
  | cs => some (0, cs)

def valid? (m : Moment) : Option Moment := if m.IsValid then some m else none

def separator? : List Char → Option (List Char)
  | c :: rest => if c = 'T' ∨ c = 't' ∨ c = ' ' then some rest else none
  | [] => none

def offset? : List Char → Option Int
  | ['Z'] => some 0
  | ['z'] => some 0
  | c :: rest => do
    let sign : Int ←
      if c = '+' then some 1 else if c = '-' ∨ c = '\u2212' then some (-1) else none
    let (hours, rest) ← fixed? 2 rest
    let rest ← mark? ':' rest
    let (minutes, rest) ← fixed? 2 rest
    if rest = [] ∧ hours < 24 ∧ minutes < 60 then some (sign * (60 * hours + minutes)) else none
  | [] => none

-- The strict form has an offset from universal time. The loose forms have none, take fewer digits,
-- and allow blanks in front of each number.
def strict? (cs : List Char) : Option Moment := do
  let (year, cs) ← fixed? 4 cs
  let cs ← mark? '-' cs
  let (month, cs) ← fixed? 2 cs
  let cs ← mark? '-' cs
  let (day, cs) ← fixed? 2 cs
  let cs ← separator? cs
  let (hour, cs) ← fixed? 2 cs
  let cs ← mark? ':' cs
  let (minute, cs) ← fixed? 2 cs
  let cs ← mark? ':' cs
  let (second, cs) ← fixed? 2 cs
  let (millisecond, cs) ← fraction? cs
  let offset ← offset? cs
  let shown ← valid? ⟨⟨year, month, day⟩, hour, minute, second, millisecond⟩
  return shown.behind offset

inductive Part where
  | year
  | month
  | day
  | hour
  | minute
  | second
  | fraction
  | mark (c : Char)
  | blanks

def datePart : List Part := [.year, .mark '-', .month, .mark '-', .day]

def minutePart : List Part := [.hour, .mark ':', .minute]

def secondPart : List Part := minutePart ++ [.mark ':', .second, .fraction]

def looseForms : List (List Part) :=
  [datePart ++ [.mark 'T'] ++ secondPart,
    datePart ++ [.blanks] ++ secondPart,
    datePart ++ [.mark 'T'] ++ minutePart,
    datePart ++ [.blanks] ++ minutePart,
    datePart]

def upTo? (width : Nat) (cs : List Char) : Option (Nat × List Char) :=
  match (cs.take width).takeWhile isDigit with
  | [] => none
  | digits => some (Digits.value digits, cs.drop digits.length)

-- With a sign a year may have any number of digits, and without one at most four.
def year? : List Char → Option (Int × List Char)
  | '-' :: rest => (upTo? rest.length rest).map fun r => (-(r.1 : Int), r.2)
  | '+' :: rest => (upTo? rest.length rest).map fun r => ((r.1 : Int), r.2)
  | cs => (upTo? 4 cs).map fun r => ((r.1 : Int), r.2)

def number? (set : Nat → Moment) (cs : List Char) : Option (Moment × List Char) :=
  (upTo? 2 (cs.dropWhile isBlank)).map fun r => (set r.1, r.2)

def Part.read? (m : Moment) (cs : List Char) : Part → Option (Moment × List Char)
  | .year =>
    (year? (cs.dropWhile isBlank)).map fun r =>
      ({ m with date := { m.date with year := r.1 } }, r.2)
  | .month => number? (fun n => { m with date := { m.date with month := n } }) cs
  | .day => number? (fun n => { m with date := { m.date with day := n } }) cs
  | .hour => number? (fun n => { m with hour := n }) cs
  | .minute => number? (fun n => { m with minute := n }) cs
  | .second => number? (fun n => { m with second := n }) cs
  | .fraction => (fraction? cs).map fun r => ({ m with millisecond := r.1 }, r.2)
  | .mark c => (mark? c cs).map fun rest => (m, rest)
  | .blanks => some (m, cs.dropWhile isBlank)

def loose? (parts : List Part) (cs : List Char) : Option Moment := do
  let (m, rest) ← parts.foldlM (fun r part => part.read? r.1 r.2) (⟨⟨0, 1, 1⟩, 0, 0, 0, 0⟩, cs)
  if rest = [] then valid? m else none

-- The first form that fits counts.
def read? (cs : List Char) : Option Moment :=
  strict? cs <|> looseForms.findSome? fun parts => loose? parts cs

end QueryBuilder.MomentText
