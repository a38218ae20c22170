import QueryBuilder.Schema.SemanticType

set_option autoImplicit false

namespace QueryBuilder

structure Field where
  name : String
  type : SemanticType
  rawType : String
  isPrimaryKey : Bool
  deriving DecidableEq, Repr

structure Entity where
  name : String
  fields : List Field
  metadata : List (String × String)
  deriving DecidableEq, Repr

-- The field `source` refers to the field `target`.
structure Relationship where
  sourceEntity : String
  sourceField : String
  targetEntity : String
  targetField : String
  deriving DecidableEq, Repr

structure Schema where
  entities : List Entity
  relationships : List Relationship
  deriving DecidableEq, Repr

namespace Schema

def empty : Schema := ⟨[], []⟩

def entity? (s : Schema) (name : String) : Option Entity :=
  s.entities.find? (·.name = name)

def field? (s : Schema) (entity field : String) : Option Field :=
  (s.entity? entity).bind fun e => e.fields.find? (·.name = field)

def fieldType? (s : Schema) (entity field : String) : Option SemanticType :=
  (s.field? entity field).map Field.type

end Schema

end QueryBuilder
