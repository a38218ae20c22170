import QueryBuilder.Keyword

set_option autoImplicit false

namespace QueryBuilder

inductive Operator where
  | eq
  | notEq
  | gt
  | lt
  | gte
  | lte
  | like
  | notLike
  | isIn
  | notIn
  | between
  | notBetween
  | isNull
  | isNotNull
  | exists
  deriving DecidableEq, Repr

namespace Operator

def name : Operator → String
  | .eq => "="
  | .notEq => "!="
  | .gt => ">"
  | .lt => "<"
  | .gte => ">="
  | .lte => "<="
  | .like => "LIKE"
  | .notLike => "NOT LIKE"
  | .isIn => "IN"
  | .notIn => "NOT IN"
  | .between => "BETWEEN"
  | .notBetween => "NOT BETWEEN"
  | .isNull => "IS NULL"
  | .isNotNull => "IS NOT NULL"
  | .exists => "EXISTS"

def otherNames : Operator → List String
  | .notEq => ["<>"]
  | _ => []

instance : Keyword Operator where
  all := [.eq, .notEq, .gt, .lt, .gte, .lte, .like, .notLike, .isIn, .notIn, .between, .notBetween,
    .isNull, .isNotNull, .exists]
  name := name
  aliases := otherNames
  documentAliases := otherNames

def needsValue : Operator → Bool
  | .isNull | .isNotNull | .exists => false
  | _ => true

def needsSecondValue : Operator → Bool
  | .between | .notBetween => true
  | _ => false

def takesList : Operator → Bool
  | .isIn | .notIn => true
  | _ => false

def isPattern : Operator → Bool
  | .like | .notLike => true
  | _ => false

end Operator

end QueryBuilder
