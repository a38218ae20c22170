import QueryBuilder.Schema.Basic

set_option autoImplicit false

namespace QueryBuilder

structure JoinStep where
  fromEntity : String
  fromField : String
  toEntity : String
  toField : String
  deriving DecidableEq, Repr

structure JoinGraph where
  steps : List JoinStep

namespace JoinGraph

-- An entity is never joined to itself.
def directions (r : Relationship) : List JoinStep :=
  if r.sourceEntity = r.targetEntity then []
  else
    [⟨r.sourceEntity, r.sourceField, r.targetEntity, r.targetField⟩,
      ⟨r.targetEntity, r.targetField, r.sourceEntity, r.sourceField⟩]

def ofRelationships (rs : List Relationship) : JoinGraph := ⟨rs.flatMap directions⟩

def ofSchema (s : Schema) : JoinGraph := ofRelationships s.relationships

def stepsFrom (g : JoinGraph) (entity : String) : List JoinStep :=
  g.steps.filter (·.fromEntity = entity)

def entities (g : JoinGraph) : List String := g.steps.map (·.toEntity)

def discover (pool : List String) : List JoinStep → List JoinStep
  | [] => []
  | s :: rest =>
    if s.toEntity ∈ pool then s :: discover (pool.filter (· ≠ s.toEntity)) rest
    else discover pool rest

def without (pool : List String) (found : List JoinStep) : List String :=
  pool.filter fun e => e ∉ found.map (·.toEntity)

theorem toEntity_mem_of_discover {pool : List String} {steps found : List JoinStep}
    {s : JoinStep} (h : discover pool steps = s :: found) : s.toEntity ∈ pool := by
  induction steps with
  | nil => cases h
  | cons t rest ih =>
    unfold discover at h
    split at h
    · next ht =>
      cases h
      exact ht
    · exact ih h

theorem length_without_lt {pool : List String} {steps found : List JoinStep} {s : JoinStep}
    (h : discover pool steps = s :: found) : (without pool (s :: found)).length < pool.length := by
  unfold without
  rw [List.length_filter_lt_length_iff_exists]
  exact ⟨s.toEntity, toEntity_mem_of_discover h, by simp⟩

-- The steps by which a breadth-first search that starts with `queue` finds entities of `pool`, in
-- the order in which it finds them.
def spread (g : JoinGraph) (pool : List String) : List String → List JoinStep
  | [] => []
  | e :: queue =>
    match _h : discover pool (g.stepsFrom e) with
    | [] => spread g pool queue
    | s :: found =>
      (s :: found) ++ spread g (without pool (s :: found))
        (queue ++ (s :: found).map (·.toEntity))
termination_by queue => (pool.length, queue.length)
decreasing_by
  · exact Prod.Lex.right _ (Nat.lt_succ_self _)
  · exact Prod.Lex.left _ _ (length_without_lt _h)

def trace : List JoinStep → String → List JoinStep
  | [], _ => []
  | s :: earlier, target =>
    if s.toEntity = target then trace earlier s.fromEntity ++ [s] else trace earlier target

def bridge? (g : JoinGraph) (joined : List String) (target : String) : Option (List JoinStep) :=
  let found := g.spread (g.entities.filter (· ∉ joined)) joined
  if target ∈ found.map (·.toEntity) then some (trace found.reverse target) else none

end JoinGraph

end QueryBuilder
