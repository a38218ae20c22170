import QueryBuilder.CommandLine

set_option autoImplicit false

namespace QueryBuilder.CommandLine

def readFile? (path : String) : IO (Option String) := do
  try
    return some (← IO.FS.readFile path)
  catch _ =>
    return none

def perform : Action → IO UInt32
  | .refuse => return usageCode
  | .fail => return failureCode
  | .print text => do
    IO.print text
    return 0
  | .write path text => do
    try
      IO.FS.writeFile path text
      return 0
    catch _ =>
      return failureCode

def run (args : List String) : IO UInt32 := do
  match Arguments.parse? args with
  | none => perform .refuse
  | some a =>
    let schema ← readFile? a.schema
    let query ← readFile? a.query
    let contents := [(a.query, query), (a.schema, schema)]
    perform (action (fun path => (contents.lookup path).join) args)

end QueryBuilder.CommandLine

def main (args : List String) : IO UInt32 := QueryBuilder.CommandLine.run args
