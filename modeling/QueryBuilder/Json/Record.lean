import QueryBuilder.Json.Document
import QueryBuilder.Keyword

set_option autoImplicit false

namespace QueryBuilder.Json.Document

def string? : Document → Option String
  | .string s => some s
  | _ => none

def bool? : Document → Option Bool
  | .bool b => some b
  | _ => none

def uint64? : Document → Option UInt64
  | .number (.int n) => if 0 ≤ n.val then some (UInt64.ofNat n.val.toNat) else none
  | _ => none

def int64? : Document → Option Int64
  | .number (.int n) => if n.val < 0x8000000000000000 then some (Int64.ofInt n.val) else none
  | _ => none

def list? {α : Type} (f : Document → Option α) : Document → Option (List α)
  | .array items => items.mapM f
  | _ => none

def nullable? {α : Type} (f : Document → Option α) : Document → Option (Option α)
  | .null => some none
  | d => (f d).map some

def object? (d : Document) : Option Object :=
  match d with
  | .object _ =>
    match d.value? with
    | some (.object o) => some o
    | _ => none
  | _ => none

-- A string, or the only key of an object that holds `null`.
def keyword? {α : Type} [Keyword α] : Document → Option α
  | .string s => Keyword.read? s
  | .object [(s, .null)] => Keyword.read? s
  | _ => none

-- To write a member twice is an error, under whichever of its names.
def member? (names : List String) (members : List (String × Document)) :
    Option (Option Document) :=
  match members.filter (·.1 ∈ names) with
  | [] => some none
  | [m] => some (some m.2)
  | _ => none

/-- The members of a record by their names. A record may also be written as an array of its members
in their order, of which the last may be left out. Members with other names are passed over. -/
def record? (fields : List (List String)) : Document → Option (List (Option Document))
  | .object members => fields.mapM fun names => member? names members
  | .array items =>
    if items.length ≤ fields.length then
      some (items.map some ++ List.replicate (fields.length - items.length) none)
    else none
  | _ => none

-- What is left for the record that shares the object has to be readable.
def shared? (fields : List (List String)) :
    Document → Option (List (Option Document) × List (String × Document))
  | .object members => do
    let own ← fields.mapM fun names => member? names members
    let left := members.filter fun m => m.1 ∉ fields.flatten
    let _ ← valueMembers? left
    return (own, left)
  | _ => none

def required {α : Type} (f : Document → Option α) : Option Document → Option α
  | none => none
  | some d => f d

def optional {α : Type} (default : α) (f : Document → Option α) : Option Document → Option α
  | none => some default
  | some d => f d

end QueryBuilder.Json.Document
