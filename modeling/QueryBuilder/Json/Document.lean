import QueryBuilder.Json.Token

set_option autoImplicit false

namespace QueryBuilder.Json

-- The tree keeps what the text says, also members with equal keys. A part that stands for nothing
-- is kept as unreadable, since whoever passes over it need not know.
inductive Document where
  | unreadable
  | null
  | bool (b : Bool)
  | number (n : Number)
  | string (s : String)
  | array (items : List Document)
  | object (members : List (String × Document))
  deriving Inhabited

namespace Document

def maxDepth : Nat := 127

inductive Frame where
  | array (items : List Document)
  | object (members : List (Option String × Document))
  | member (members : List (Option String × Document)) (key : Option String)

inductive Place where
  | value
  | firstItem
  | firstKey
  | key
  | colon
  | separator

structure State where
  frames : List Frame
  place : Place
  result : Option Document

namespace State

def initial : State := ⟨[], .value, none⟩

def give (s : State) (d : Document) : Option State :=
  match s.place, s.frames with
  | .value, [] => some ⟨[], .separator, some d⟩
  | .value, .array items :: frames => some ⟨.array (d :: items) :: frames, .separator, s.result⟩
  | .firstItem, .array items :: frames =>
    some ⟨.array (d :: items) :: frames, .separator, s.result⟩
  | .value, .member members key :: frames =>
    some ⟨.object ((key, d) :: members) :: frames, .separator, s.result⟩
  | _, _ => none

def giveString (s : State) (text : Option String) : Option State :=
  match s.place, s.frames with
  | .key, .object members :: frames => some ⟨.member members text :: frames, .colon, s.result⟩
  | .firstKey, .object members :: frames =>
    some ⟨.member members text :: frames, .colon, s.result⟩
  | _, _ => s.give (text.elim .unreadable .string)

def openWith (s : State) (frame : Frame) (place : Place) : Option State :=
  match s.place with
  | .value | .firstItem => some ⟨frame :: s.frames, place, s.result⟩
  | _ => none

-- Depth is no matter of grammar: what is too deep is passed over where nobody asks for it.
def limited (frames : List Frame) (d : Document) : Document :=
  if frames.length < maxDepth then d else .unreadable

def objectOf (members : List (Option String × Document)) : Document :=
  match members.reverse.mapM fun m => m.1.map (·, m.2) with
  | some members => .object members
  | none => .unreadable

def close (s : State) (d : Document) (frames : List Frame) : Option State :=
  give ⟨frames, .value, s.result⟩ (limited frames d)

def closeArray (s : State) : Option State :=
  match s.place, s.frames with
  | .firstItem, .array _ :: frames => s.close (.array []) frames
  | .separator, .array items :: frames => s.close (.array items.reverse) frames
  | _, _ => none

def closeObject (s : State) : Option State :=
  match s.place, s.frames with
  | .firstKey, .object _ :: frames => s.close (.object []) frames
  | .separator, .object members :: frames => s.close (objectOf members) frames
  | _, _ => none

def comma (s : State) : Option State :=
  match s.place, s.frames with
  | .separator, .array _ :: _ => some { s with place := .value }
  | .separator, .object _ :: _ => some { s with place := .key }
  | _, _ => none

def colon (s : State) : Option State :=
  match s.place with
  | .colon => some { s with place := .value }
  | _ => none

def step (s : State) : Token → Option State
  | .openBrace => s.openWith (.object []) .firstKey
  | .closeBrace => s.closeObject
  | .openBracket => s.openWith (.array []) .firstItem
  | .closeBracket => s.closeArray
  | .comma => s.comma
  | .colon => s.colon
  | .null => s.give .null
  | .bool b => s.give (.bool b)
  | .number n => s.give (n.elim .unreadable .number)
  | .string text => s.giveString text

def run (s : State) (ts : List Token) : Option State := ts.foldlM step s

theorem run_append (s : State) (ts us : List Token) :
    s.run (ts ++ us) = (s.run ts).bind fun r => r.run us :=
  List.foldlM_append

end State

def read? (text : String) : Option Document := do
  let s ← State.initial.run (← Token.list? text.toList)
  if s.frames.isEmpty then s.result else none

mutual

-- Of members with equal keys the last one counts, in the place of the first.
def value? : Document → Option Value
  | .unreadable => none
  | .null => some .null
  | .bool b => some (.bool b)
  | .number n => some (.number n)
  | .string s => some (.string s)
  | .array items => (valueItems? items).map .array
  | .object members => (valueMembers? members).map fun ms => .object (Object.ofMembers ms)

def valueItems? : List Document → Option (List Value)
  | [] => some []
  | d :: rest => do return (← d.value?) :: (← valueItems? rest)

def valueMembers? : List (String × Document) → Option (List (String × Value))
  | [] => some []
  | (k, d) :: rest => do return (k, ← d.value?) :: (← valueMembers? rest)

end

mutual

def ofValue : Value → Document
  | .null => .null
  | .bool b => .bool b
  | .number n => .number n
  | .string s => .string s
  | .array items => .array (ofItems items)
  | .object members => .object (ofMembers members)

def ofItems : List Value → List Document
  | [] => []
  | v :: rest => ofValue v :: ofItems rest

def ofMembers : List (String × Value) → List (String × Document)
  | [] => []
  | (k, v) :: rest => (k, ofValue v) :: ofMembers rest

end

mutual

def depth : Document → Nat
  | .array items => depthItems items + 1
  | .object members => depthMembers members + 1
  | _ => 0

def depthItems : List Document → Nat
  | [] => 0
  | d :: rest => max d.depth (depthItems rest)

def depthMembers : List (String × Document) → Nat
  | [] => 0
  | (_, d) :: rest => max d.depth (depthMembers rest)

end

end Document

def Value.read? (text : String) : Option Value := (Document.read? text).bind Document.value?

end QueryBuilder.Json
