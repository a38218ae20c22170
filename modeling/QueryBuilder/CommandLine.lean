import QueryBuilder.Compiler

set_option autoImplicit false

namespace QueryBuilder.CommandLine

inductive Target where
  | sql
  | mongo
  deriving DecidableEq, Repr

def Target.ofName? : String → Option Target
  | "sql" => some .sql
  | "mongo" => some .mongo
  | _ => none

inductive ValueOption where
  | target
  | dialect
  | output
  deriving DecidableEq, Repr

inductive Flag where
  | pretty
  | json
  deriving DecidableEq, Repr

inductive AnyOption where
  | value (o : ValueOption)
  | flag (f : Flag)

def longOption? : String → Option AnyOption
  | "target" => some (.value .target)
  | "dialect" => some (.value .dialect)
  | "output" => some (.value .output)
  | "pretty" => some (.flag .pretty)
  | "json" => some (.flag .json)
  | _ => none

def shortOption? : Char → Option AnyOption
  | 't' => some (.value .target)
  | 'd' => some (.value .dialect)
  | 'o' => some (.value .output)
  | 'p' => some (.flag .pretty)
  | _ => none

structure Given where
  paths : List String
  flags : List Flag
  values : List (ValueOption × String)

namespace Given

def empty : Given := ⟨[], [], []⟩

def addPath (g : Given) (path : String) : Given := { g with paths := g.paths ++ [path] }

def addFlag? (g : Given) (f : Flag) : Option Given :=
  if f ∈ g.flags then none else some { g with flags := f :: g.flags }

def addValue? (g : Given) (o : ValueOption) (value : String) : Option Given :=
  if (g.values.lookup o).isSome then none else some { g with values := (o, value) :: g.values }

-- The letters behind an option that takes a value are its value, with or without `=`.
def addShort? (g : Given) : List Char → Option (Given × Option ValueOption)
  | [] => some (g, none)
  | c :: rest =>
    match shortOption? c with
    | none => none
    | some (.flag f) => (g.addFlag? f).bind fun g => addShort? g rest
    | some (.value o) =>
      match rest with
      | [] => some (g, some o)
      | '=' :: value => (g.addValue? o (String.ofList value)).map (·, none)
      | value => (g.addValue? o (String.ofList value)).map (·, none)

def addLong? (g : Given) (text : List Char) : Option (Given × Option ValueOption) :=
  let name := String.ofList (text.takeWhile (· ≠ '='))
  match longOption? name, text.dropWhile (· ≠ '=') with
  | some (.flag f), [] => (g.addFlag? f).map (·, none)
  | some (.value o), [] => some (g, some o)
  | some (.value o), _ :: value => (g.addValue? o (String.ofList value)).map (·, none)
  | _, _ => none

-- `waiting` is the option that the next argument is the value of.
def addAll? (g : Given) (waiting : Option ValueOption) : List String → Option Given
  | [] => if waiting.isSome then none else some g
  | arg :: rest =>
    match arg.toList, waiting with
    | ['-', '-'], none => some { g with paths := g.paths ++ rest }
    | '-' :: '-' :: text, none =>
      (g.addLong? text).bind fun r => addAll? r.1 r.2 rest
    | '-' :: c :: text, none =>
      (g.addShort? (c :: text)).bind fun r => addAll? r.1 r.2 rest
    | _, none => addAll? (g.addPath arg) none rest
    -- A value does not begin with a dash, but may be one.
    | '-' :: _ :: _, some _ => none
    | _, some o => (g.addValue? o arg).bind fun g => addAll? g none rest

end Given

structure Arguments where
  schema : String
  query : String
  target : Target
  dialect : Sql.Dialect
  pretty : Bool
  json : Bool
  output : Option String

namespace Arguments

def nonempty? (path : String) : Option String := if path = "" then none else some path

def valueOr? {α : Type} (default : α) (read? : String → Option α) : Option String → Option α
  | none => some default
  | some text => read? text

def ofGiven? (g : Given) : Option Arguments := do
  match g.paths with
  | [schema, query] =>
    return {
      schema := ← nonempty? schema
      query := ← nonempty? query
      target := ← valueOr? .sql Target.ofName? (g.values.lookup .target)
      dialect := ← valueOr? .generic Keyword.parse? (g.values.lookup .dialect)
      pretty := decide (.pretty ∈ g.flags)
      json := decide (.json ∈ g.flags)
      output := ← valueOr? none (fun path => (nonempty? path).map some)
        (g.values.lookup .output) }
  | _ => none

def parse? (args : List String) : Option Arguments :=
  (Given.empty.addAll? none args).bind ofGiven?

def compile? (a : Arguments) (schema query : String) : Option String :=
  (Query.read? query).map fun q =>
    match a.target with
    | .sql => Sql.compile (parseSchema schema) ⟨a.dialect, a.pretty⟩ q
    | .mongo =>
      Pipeline.compile (parseSchema schema) ⟨if a.json then .json else .shell, a.pretty⟩ q

end Arguments

inductive Action where
  | refuse
  | fail
  | print (text : String)
  | write (path text : String)

def usageCode : UInt32 := 2

def failureCode : UInt32 := 1

-- What a command does, where `read` gives the contents of files that can be read.
def action (read : String → Option String) (args : List String) : Action :=
  match Arguments.parse? args with
  | none => .refuse
  | some a =>
    match read a.schema, read a.query with
    | some schema, some query =>
      match a.compile? schema query with
      | none => .fail
      | some text =>
        match a.output with
        | none => .print (text ++ "\n")
        | some path => .write path (text ++ "\n")
    | _, _ => .fail

end QueryBuilder.CommandLine
