import QueryBuilder.Json.Value
import QueryBuilder.Text.Quoted

set_option autoImplicit false

namespace QueryBuilder.Json

-- A character inside a string. Only the quote, the backslash and the controls of ASCII are escaped.
def escape (c : Char) : String :=
  match c with
  | '"' => "\\\""
  | '\\' => "\\\\"
  | '\n' => "\\n"
  | '\r' => "\\r"
  | '\t' => "\\t"
  | _ =>
    if c.toNat = 0x8 then "\\b"
    else if c.toNat = 0xc then "\\f"
    else if c.toNat < 0x10 then "\\u000" ++ Text.hexDigits c.toNat
    else if c.toNat < 0x20 then "\\u00" ++ Text.hexDigits c.toNat
    else String.singleton c

def quote (s : String) : String := "\"" ++ String.join (s.toList.map escape) ++ "\""

def Number.text : Number → String
  | .int n => Digits.intText n.val
  | .float x => x.documentText

def enclose (opening closing : String) (items : List String) : String :=
  opening ++ ",".intercalate items ++ closing

def margin (level : Nat) : String := String.ofList (List.replicate (2 * level) ' ')

def encloseLines (level : Nat) (opening closing : String) (items : List String) : String :=
  if items.isEmpty then opening ++ closing
  else
    opening ++ ",".intercalate (items.map fun i => "\n" ++ margin (level + 1) ++ i) ++ "\n" ++
      margin level ++ closing

mutual

def Value.compact : Value → String
  | .null => "null"
  | .bool b => if b then "true" else "false"
  | .number n => n.text
  | .string s => quote s
  | .array items => enclose "[" "]" (compactItems items)
  | .object members => enclose "\x7b" "\x7d" (compactMembers members)

def compactItems : List Value → List String
  | [] => []
  | v :: rest => v.compact :: compactItems rest

def compactMembers : List (String × Value) → List String
  | [] => []
  | (k, v) :: rest => (quote k ++ ":" ++ v.compact) :: compactMembers rest

end

mutual

def Value.prettyAt (level : Nat) : Value → String
  | .null => "null"
  | .bool b => if b then "true" else "false"
  | .number n => n.text
  | .string s => quote s
  | .array items => encloseLines level "[" "]" (prettyItems (level + 1) items)
  | .object members => encloseLines level "\x7b" "\x7d" (prettyMembers (level + 1) members)

def prettyItems (level : Nat) : List Value → List String
  | [] => []
  | v :: rest => v.prettyAt level :: prettyItems level rest

def prettyMembers (level : Nat) : List (String × Value) → List String
  | [] => []
  | (k, v) :: rest => (quote k ++ ": " ++ v.prettyAt level) :: prettyMembers level rest

end

def Value.pretty (v : Value) : String := v.prettyAt 0

end QueryBuilder.Json
