import QueryBuilder.Text.Class

set_option autoImplicit false

namespace QueryBuilder.Text

def trimLeft (cs : List Char) : List Char := cs.dropWhile isBlank

def trimRight (cs : List Char) : List Char := (cs.reverse.dropWhile isBlank).reverse

def trim (s : String) : String := String.ofList (trimRight (trimLeft s.toList))

def isBlankText (s : String) : Bool := s.toList.all isBlank

def splitAt (sep : Char) : List Char → List (List Char)
  | [] => [[]]
  | c :: rest =>
    match splitAt sep rest with
    | [] => [[c]]
    | piece :: pieces => if c = sep then [] :: piece :: pieces else (c :: piece) :: pieces

def listItems (s : String) : List String :=
  ((splitAt ',' s.toList).map fun piece => String.ofList (trimRight (trimLeft piece))).filter
    (· ≠ "")

def lowerAscii (c : Char) : Char :=
  if 'A' ≤ c && c ≤ 'Z' then Char.ofNat (c.toNat + 32) else c

def lower (s : String) : String := String.ofList (s.toList.map lowerAscii)

def sameLetters (a b : String) : Bool := lower a == lower b

def hasInitial (c : Char) (s : String) : Bool := s.toList.head? == some c

end QueryBuilder.Text
