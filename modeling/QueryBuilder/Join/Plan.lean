import QueryBuilder.Join.Graph

set_option autoImplicit false

namespace QueryBuilder

inductive Join where
  | on (step : JoinStep)
  | cross (entity : String)
  deriving DecidableEq, Repr

def Join.entity : Join → String
  | .on step => step.toEntity
  | .cross entity => entity

structure JoinPlan where
  root : Option String
  joins : List Join
  bridged : List String
  disconnected : List String
  deriving DecidableEq, Repr

namespace JoinPlan

def empty : JoinPlan := ⟨none, [], [], []⟩

def entities (p : JoinPlan) : List String := p.root.toList ++ p.joins.map Join.entity

-- Joins every entity of `wanted` that is reached through entities of `wanted` alone.
def expand (g : JoinGraph) (wanted : List String) (p : JoinPlan) : JoinPlan :=
  let steps := g.spread (wanted.filter (· ∉ p.entities)) p.entities
  { p with joins := p.joins ++ steps.map .on }

def connect (g : JoinGraph) (wanted : List String) (p : JoinPlan) (entity : String) : JoinPlan :=
  match g.bridge? p.entities entity with
  | some way =>
    { p with
      joins := p.joins ++ way.map .on
      bridged := p.bridged ++
        (way.map (·.toEntity)).filter fun e => e ≠ entity ∧ e ∉ wanted }
  | none =>
    { p with
      joins := p.joins ++ [.cross entity]
      disconnected := p.disconnected ++ [entity] }

def ensure (g : JoinGraph) (wanted : List String) (p : JoinPlan) (entity : String) : JoinPlan :=
  if entity ∈ p.entities then p else (p.connect g wanted entity).expand g wanted

end JoinPlan

def JoinGraph.plan (g : JoinGraph) (referenced : List String) : JoinPlan :=
  match referenced.eraseDups with
  | [] => .empty
  | root :: others =>
    others.foldl (JoinPlan.ensure g (root :: others))
      (JoinPlan.expand g (root :: others) ⟨some root, [], [], []⟩)

end QueryBuilder
