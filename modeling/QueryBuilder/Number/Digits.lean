import QueryBuilder.Text.Class

set_option autoImplicit false

namespace QueryBuilder.Digits

def digit (c : Char) : Nat := c.toNat - '0'.toNat

def continueValue (n : Nat) (digits : List Char) : Nat :=
  digits.foldl (fun n c => 10 * n + digit c) n

def value (digits : List Char) : Nat := continueValue 0 digits

def ofNat (n : Nat) : List Char := Nat.toDigits 10 n

def text (n : Nat) : String := String.ofList (ofNat n)

def count (n : Nat) : Nat := (ofNat n).length

def padded (width n : Nat) : String :=
  String.ofList (List.replicate (width - count n) '0' ++ ofNat n)

def intText (n : Int) : String :=
  if n < 0 then "-" ++ text n.natAbs else text n.natAbs

end QueryBuilder.Digits
