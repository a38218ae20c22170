import QueryBuilder.Query.Basic

set_option autoImplicit false

namespace QueryBuilder.Pipeline

structure Names where
  taken : List String

namespace Names

def initial : Names := ⟨["_id"]⟩

def numbered (wanted : String) (n : Nat) : String := wanted ++ "_" ++ Digits.text n

def free (names : Names) (wanted : String) : String :=
  if wanted ∉ names.taken then wanted
  else
    -- Of one name more than are taken, one is free.
    let candidates := (List.range (names.taken.length + 1)).map fun i => numbered wanted (i + 2)
    (candidates.find? (· ∉ names.taken)).getD wanted

def claim (names : Names) (wanted : String) : String × Names :=
  let name := names.free wanted
  (name, ⟨name :: names.taken⟩)

def claimKey (names : Names) (key : FieldKey) : String × Names :=
  if key.field ∉ names.taken then names.claim key.field
  else names.claim (key.entity ++ "_" ++ key.field)

end Names

-- The path of a field in the documents of a collection, in which a joined entity stands under its
-- own name.
def fieldPath (root : String) (key : FieldKey) : String :=
  if key.entity = root then key.field else key.text

inductive Role where
  | groupKey
  | accumulator (a : Accumulator)
  | window (w : Window)
  | expression (text : String)
  | field

def Role.of (grouped : Bool) (c : Column) : Role :=
  match c.aggregation, c.expression? with
  | .accumulator a, _ => .accumulator a
  | .window w, _ => .window w
  | .none, some text => .expression text
  | .none, none => if grouped then .groupKey else .field

-- A shown column: its name while the documents are worked on, which for a field is its path, and
-- the name under which it is shown.
structure Output where
  column : Column
  role : Role
  name : String
  shown : String

namespace Output

def trimmedAlias? (c : Column) : Option String := c.alias?.map Text.trim

def stemName (stem : String) (key : FieldKey) : String := stem ++ "_" ++ key.field

def claimName (root : String) (names : Names) (c : Column) (role : Role) : String × Names :=
  match role, trimmedAlias? c with
  | .field, _ => (fieldPath root c.key, names)
  | .groupKey, _ => names.claimKey c.key
  | _, some name => names.claim name
  | .accumulator .count, none => names.claim "count"
  | .accumulator a, none => names.claim (stemName a.stem c.key)
  | .window w, none => names.claim (stemName w.function.stem c.key)
  | .expression _, none => names.claimKey c.key

def claimShown (names : Names) (c : Column) (role : Role) (name : String) : String × Names :=
  match role, trimmedAlias? c with
  | .field, some shown => names.claim shown
  | .field, none => names.claim name
  | .groupKey, some shown => if shown ≠ name then names.claim shown else (name, names)
  | _, _ => (name, names)

def of (root : String) (grouped : Bool) (names : Names) (c : Column) : Output × Names :=
  let role := Role.of grouped c
  let (name, names) := claimName root names c role
  let (shown, names) := claimShown names c role name
  (⟨c, role, name, shown⟩, names)

def list (root : String) (grouped : Bool) : Names → List Column → List Output
  | _, [] => []
  | names, c :: rest =>
    let (output, names) := of root grouped names c
    output :: list root grouped names rest

def isGroupKey (o : Output) : Bool :=
  match o.role with
  | .groupKey => true
  | _ => false

end Output

def outputs (root : String) (grouped : Bool) (q : Query) : List Output :=
  Output.list root grouped .initial q.selected

end QueryBuilder.Pipeline
