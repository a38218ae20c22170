import QueryBuilder.Text.Class

set_option autoImplicit false

namespace QueryBuilder.Text

def hexDigits (n : Nat) : String := String.ofList (Nat.toDigits 16 n)

def shownChar (quote c : Char) : String :=
  match c with
  | '\n' => "\\n"
  | '\t' => "\\t"
  | '\r' => "\\r"
  | '\\' => "\\\\"
  | _ =>
    if c.toNat = 0 then "\\0"
    else if c = quote then String.ofList ['\\', c]
    else if isShown c then String.singleton c
    else "\\u\x7b" ++ hexDigits c.toNat ++ "\x7d"

def shownText (s : String) : String :=
  "\"" ++ String.join (s.toList.map (shownChar '"')) ++ "\""

def shownLetter (c : Char) : String :=
  "'" ++ shownChar '\'' c ++ "'"

end QueryBuilder.Text
