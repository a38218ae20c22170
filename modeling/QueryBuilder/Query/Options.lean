import QueryBuilder.Query.Column

set_option autoImplicit false

namespace QueryBuilder

inductive JoinType where
  | inner
  | left
  | right
  | full
  deriving DecidableEq, Repr

namespace JoinType

def name : JoinType → String
  | .inner => "INNER"
  | .left => "LEFT"
  | .right => "RIGHT"
  | .full => "FULL"

instance : Keyword JoinType where
  all := [.inner, .left, .right, .full]
  name := name

end JoinType

inductive LookupType where
  | unwind
  | array
  deriving DecidableEq, Repr

instance : Keyword LookupType where
  all := [.unwind, .array]
  name
    | .unwind => "unwind"
    | .array => "array"

inductive SetOperator where
  | union
  | intersect
  | except
  deriving DecidableEq, Repr

namespace SetOperator

def name : SetOperator → String
  | .union => "UNION"
  | .intersect => "INTERSECT"
  | .except => "EXCEPT"

instance : Keyword SetOperator where
  all := [.union, .intersect, .except]
  name := name

end SetOperator

structure SetOperation (Q : Type) where
  operator : SetOperator
  all : Bool
  query : Q

inductive StagePosition where
  | start
  | afterLookup
  | afterMatch
  | afterGroup
  | beforeSort
  | beforeProject
  | atEnd
  deriving DecidableEq, Repr

instance : Keyword StagePosition where
  all := [.start, .afterLookup, .afterMatch, .afterGroup, .beforeSort, .beforeProject, .atEnd]
  name
    | .start => "start"
    | .afterLookup => "afterLookup"
    | .afterMatch => "afterMatch"
    | .afterGroup => "afterGroup"
    | .beforeSort => "beforeSort"
    | .beforeProject => "beforeProject"
    | .atEnd => "end"

structure SortKey where
  path : String
  direction : SortDirection
  deriving DecidableEq, Repr

inductive StageBody where
  | unwind (path : String) (preserveEmpty : Bool)
  | addFields (fields : Json.Object)
  | set (fields : Json.Object)
  | group (spec : Json.Object)
  | sort (keys : List SortKey)
  | computed (field operator : String) (args : List String)

structure CustomStage where
  position : StagePosition
  body : StageBody

structure Options (Q : Type) where
  distinct : Bool
  groupByAll : Bool
  limit : Option UInt64
  offset : Option UInt64
  joinType : JoinType
  lookupType : LookupType
  -- A condition as text: of SQL for a statement, a document for a pipeline.
  rawWhere : Option String
  setOperations : List (SetOperation Q)
  customStages : List CustomStage

namespace Options

variable {Q : Type}

def default : Options Q :=
  { distinct := false
    groupByAll := false
    limit := none
    offset := none
    joinType := .inner
    lookupType := .unwind
    rawWhere := none
    setOperations := []
    customStages := [] }

def customWhere? (o : Options Q) : Option String :=
  (o.rawWhere.map Text.trim).filter (· ≠ "")

def stagesAt (o : Options Q) (position : StagePosition) : List StageBody :=
  (o.customStages.filter (·.position = position)).map CustomStage.body

end Options

end QueryBuilder
