import QueryBuilder.Text.Alphabetic
import QueryBuilder.Text.Numeric
import QueryBuilder.Text.Extending
import QueryBuilder.Text.Invisible

set_option autoImplicit false

namespace QueryBuilder.Text

def inRanges (ranges : List (Nat × Nat)) (c : Char) : Bool :=
  ranges.any fun r => r.1 ≤ c.toNat && c.toNat ≤ r.2

def isDigit (c : Char) : Bool := '0' ≤ c && c ≤ '9'

def isAsciiLetter (c : Char) : Bool :=
  ('a' ≤ c && c ≤ 'z') || ('A' ≤ c && c ≤ 'Z')

def isAlphabetic (c : Char) : Bool :=
  if c.toNat < 128 then isAsciiLetter c else inRanges alphabeticRanges c

def isAlphanumeric (c : Char) : Bool :=
  if c.toNat < 128 then isAsciiLetter c || isDigit c
  else inRanges alphabeticRanges c || inRanges numericRanges c

-- The property White_Space.
def isBlank (c : Char) : Bool :=
  inRanges [(0x9, 0xd), (0x20, 0x20), (0x85, 0x85), (0xa0, 0xa0), (0x1680, 0x1680),
    (0x2000, 0x200a), (0x2028, 0x2029), (0x202f, 0x202f), (0x205f, 0x205f), (0x3000, 0x3000)] c

/-- Whether a diagnostic shows the character as it is. A character that would attach itself to the
one before it, or that has no visible form, is written as an escape instead. -/
def isShown (c : Char) : Bool :=
  if c.toNat < 0x7f then 0x20 ≤ c.toNat
  else !inRanges extendingRanges c && !inRanges invisibleRanges c

end QueryBuilder.Text
