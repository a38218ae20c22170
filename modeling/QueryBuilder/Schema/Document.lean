import QueryBuilder.Json.Record
import QueryBuilder.Schema.Parser

set_option autoImplicit false

namespace QueryBuilder

open Json (Value Document)
open Json.Document

def Field.toValue (f : Field) : Value :=
  .object
    [("name", .string f.name), ("semanticType", .string (Keyword.name f.type)),
      ("rawType", .string f.rawType), ("isPrimaryKey", .bool f.isPrimaryKey)]

def Entity.toValue (e : Entity) : Value :=
  .object <|
    [("name", .string e.name), ("fields", .array (e.fields.map (·.toValue)))] ++
      if e.metadata.isEmpty then []
      else [("metadata", .array (e.metadata.map fun m => .strings [m.1, m.2]))]

def Relationship.toValue (r : Relationship) : Value :=
  .object
    [("sourceEntity", .string r.sourceEntity), ("sourceField", .string r.sourceField),
      ("targetEntity", .string r.targetEntity), ("targetField", .string r.targetField)]

def Schema.members (s : Schema) : List (String × Value) :=
  [("entities", .array (s.entities.map (·.toValue))),
    ("relationships", .array (s.relationships.map (·.toValue)))]

def Schema.toValue (s : Schema) : Value := .object s.members

def ParseError.toValue (e : ParseError) : Value :=
  .object
    [("line", .ofUInt64 (UInt64.ofNat e.line)), ("message", .string e.message)]

def Parsed.toValue (p : Parsed) : Value :=
  .object (p.schema.members ++ [("errors", .array (p.errors.map (·.toValue)))])

def Field.ofDocument? (d : Document) : Option Field := do
  match ← d.record? [["name"], ["semanticType"], ["rawType"], ["isPrimaryKey"]] with
  | [name, type, rawType, isPrimaryKey] =>
    return ⟨← required string? name, ← required keyword? type, ← required string? rawType,
      ← optional false bool? isPrimaryKey⟩
  | _ => none

def Entity.metadataItem? : Document → Option (String × String)
  | .array [.string key, .string value] => some (key, value)
  | _ => none

def Entity.ofDocument? (d : Document) : Option Entity := do
  match ← d.record? [["name"], ["fields"], ["metadata"]] with
  | [name, fields, metadata] =>
    return ⟨← required string? name, ← required (list? Field.ofDocument?) fields,
      ← optional [] (list? Entity.metadataItem?) metadata⟩
  | _ => none

def Relationship.ofDocument? (d : Document) : Option Relationship := do
  match ← d.record? [["sourceEntity"], ["sourceField"], ["targetEntity"], ["targetField"]] with
  | [sourceEntity, sourceField, targetEntity, targetField] =>
    return ⟨← required string? sourceEntity, ← required string? sourceField,
      ← required string? targetEntity, ← required string? targetField⟩
  | _ => none

def Schema.ofDocument? (d : Document) : Option Schema := do
  match ← d.record? [["entities"], ["relationships"]] with
  | [entities, relationships] =>
    return ⟨← required (list? Entity.ofDocument?) entities,
      ← required (list? Relationship.ofDocument?) relationships⟩
  | _ => none

end QueryBuilder
