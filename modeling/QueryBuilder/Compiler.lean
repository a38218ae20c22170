import QueryBuilder.Pipeline.Shell
import QueryBuilder.Query.Document
import QueryBuilder.Query.Edit
import QueryBuilder.Schema.Document
import QueryBuilder.Sql.Compile

set_option autoImplicit false

namespace QueryBuilder

open Json (Value Document)
open Json.Document

def Sql.Options.toValue (o : Sql.Options) : Value :=
  .object [("dialect", Value.keyword o.dialect), ("pretty", .bool o.pretty)]

def Sql.Options.ofDocument? (d : Document) : Option Sql.Options := do
  match ← d.record? [["dialect"], ["pretty"]] with
  | [dialect, pretty] =>
    return ⟨← optional .generic keyword? dialect, ← optional false bool? pretty⟩
  | _ => none

def Pipeline.Options.toValue (o : Pipeline.Options) : Value :=
  .object [("output", Value.keyword o.output), ("pretty", .bool o.pretty)]

def Pipeline.Options.ofDocument? (d : Document) : Option Pipeline.Options := do
  match ← d.record? [["output"], ["pretty"]] with
  | [output, pretty] =>
    return ⟨← optional .shell keyword? output, ← optional false bool? pretty⟩
  | _ => none

def optionsOf? {α : Type} (default : α) (ofDocument? : Document → Option α) :
    Option String → Option α
  | none => some default
  | some text => (Document.read? text).bind ofDocument?

def schemaReport (schema : String) : String := (parse schema).toValue.compact

def generateSql (schema query : String) (options : Option String) : Option String := do
  let q ← Query.read? query
  let o ← optionsOf? Sql.Options.default Sql.Options.ofDocument? options
  return Sql.compile (parseSchema schema) o q

def generatePipeline (schema query : String) (options : Option String) : Option String := do
  let q ← Query.read? query
  let o ← optionsOf? Pipeline.Options.default Pipeline.Options.ofDocument? options
  return Pipeline.compile (parseSchema schema) o q

inductive FilterError where
  | malformed
  | unknownType (name : String)
  | unsuitable (error : ValueError)
  deriving DecidableEq, Repr

def FilterError.message : FilterError → String
  | .malformed => "invalid JSON input"
  | .unknownType name => "unknown semantic type `" ++ name ++ "`"
  | .unsuitable e => e.message

def validateFilter (type predicate : String) : Except FilterError Unit :=
  match (Document.read? predicate).bind Predicate.ofDocument? with
  | none => .error .malformed
  | some p =>
    match (Keyword.parse? type : Option SemanticType) with
    | none => .error (.unknownType type)
    | some t =>
      match p.validate t with
      | .ok () => .ok ()
      | .error e => .error (.unsuitable e)

end QueryBuilder
