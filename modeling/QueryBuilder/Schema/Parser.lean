import QueryBuilder.Schema.Grammar

set_option autoImplicit false

namespace QueryBuilder

-- A construct that cannot be read is reported and left out, so every text has a schema.
inductive Declaration where
  | relationship (value : Relationship)
  -- `line` is where the name stands; `errors` are those of the fields left out.
  | entity (line : Nat) (value : Entity) (errors : List ParseError)
  | malformed (error : ParseError)

namespace Reader

-- After an error the rest of the line is left out.
def declared {α : Type} (f : α → List Lexeme → Declaration × List Lexeme) :
    Reading α → Declaration × List Lexeme
  | .done a rest => f a rest
  | .stuck e rest => (.malformed e, dropBefore lineEnds rest)

def relationship (leftEntity : String) (ts : List Lexeme) : Declaration × List Lexeme :=
  declared (fun r rest => (.relationship r, rest)) (relationshipFrom leftEntity ts)

def entity (line : Nat) (name : String) (ts : List Lexeme) : Declaration × List Lexeme :=
  declared
    (fun metadata rest =>
      let b := body name [] rest
      (.entity line ⟨name, b.fields, metadata⟩ b.errors, b.rest))
    (entityHead ts)

def declaration : List Lexeme → Declaration × List Lexeme
  | ⟨.ident s, n⟩ :: rest =>
    if peek rest = .dot then relationship s rest else entity n s rest
  | ts => (.malformed (.unexpected (line ts) (peek ts) .declaration), dropBefore lineEnds ts)

theorem length_relationship_le (leftEntity : String) (ts : List Lexeme) :
    (relationship leftEntity ts).2.length ≤ ts.length := by
  have h := shortens_relationshipFrom leftEntity ts
  unfold relationship declared
  split
  · next hr => rwa [hr] at h
  · next hr =>
    rw [hr] at h
    exact Nat.le_trans (length_dropBefore_le _ _) h

theorem length_entity_le (line : Nat) (name : String) (ts : List Lexeme) :
    (entity line name ts).2.length ≤ ts.length := by
  have h := shortens_entityHead ts
  unfold entity declared
  split
  · next hr =>
    rw [hr] at h
    exact Nat.le_trans (length_body_le _ _ _) h
  · next hr =>
    rw [hr] at h
    exact Nat.le_trans (length_dropBefore_le _ _) h

theorem length_declaration_le {l : Lexeme} (h : l.token ∉ lineEnds) (rest : List Lexeme) :
    (declaration (l :: rest)).2.length ≤ rest.length := by
  unfold declaration
  split
  · next s n rest' heq =>
    cases heq
    split
    · exact length_relationship_le _ _
    · exact length_entity_le _ _ _
  · rw [dropBefore_cons h]
    exact length_dropBefore_le _ _

def declarations : List Lexeme → List Declaration
  | [] => []
  | l :: rest =>
    if l.token = .newline then declarations rest
    else if _h : l.token = .eof then []
    else (declaration (l :: rest)).1 :: declarations (declaration (l :: rest)).2
termination_by ts => ts.length
decreasing_by
  all_goals simp only [List.length_cons]
  · omega
  · exact Nat.lt_succ_of_le (length_declaration_le (by simp_all [lineEnds]) rest)

end Reader

structure Parsed where
  schema : Schema
  errors : List ParseError

namespace Parsed

def empty : Parsed := ⟨.empty, []⟩

def report (p : Parsed) (errors : List ParseError) : Parsed :=
  { p with errors := p.errors ++ errors }

-- Of two entities of one name the first is kept.
def addEntity (p : Parsed) (line : Nat) (e : Entity) : Parsed :=
  if (p.schema.entity? e.name).isSome then p.report [.duplicateEntity line e.name]
  else { p with schema := { p.schema with entities := p.schema.entities ++ [e] } }

def addRelationship (p : Parsed) (r : Relationship) : Parsed :=
  if r ∈ p.schema.relationships then p
  else { p with schema := { p.schema with relationships := p.schema.relationships ++ [r] } }

def add (p : Parsed) : Declaration → Parsed
  | .relationship r => p.addRelationship r
  | .entity line e errors => (p.report errors).addEntity line e
  | .malformed e => p.report [e]

end Parsed

def parseTokens (ts : List Lexeme) : Parsed :=
  (Reader.declarations ts).foldl Parsed.add .empty

def parse (source : String) : Parsed := parseTokens (tokenize source)

def parseSchema (source : String) : Schema := (parse source).schema

end QueryBuilder
