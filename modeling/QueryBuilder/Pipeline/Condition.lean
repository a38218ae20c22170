import QueryBuilder.Query.Predicate

set_option autoImplicit false

namespace QueryBuilder.Pipeline

open Json (Value Object)

def operatorTable : List (Operator × String) :=
  [(.eq, "$eq"), (.notEq, "$ne"), (.gt, "$gt"), (.lt, "$lt"), (.gte, "$gte"), (.lte, "$lte"),
    (.like, "$regex"), (.isIn, "$in"), (.notIn, "$nin"), (.exists, "$exists")]

def documentOperator? (op : Operator) : Option String := operatorTable.lookup op

@[simp] theorem documentOperator?_eq : documentOperator? .eq = some "$eq" := rfl

@[simp] theorem documentOperator?_notEq : documentOperator? .notEq = some "$ne" := rfl

@[simp] theorem documentOperator?_gt : documentOperator? .gt = some "$gt" := rfl

@[simp] theorem documentOperator?_lt : documentOperator? .lt = some "$lt" := rfl

@[simp] theorem documentOperator?_gte : documentOperator? .gte = some "$gte" := rfl

@[simp] theorem documentOperator?_lte : documentOperator? .lte = some "$lte" := rfl

def sqlOperator? (name : String) : Option Operator :=
  (operatorTable.find? (·.2 = name)).map Prod.fst

def literalValue : Literal → Value
  | .null => .null
  | .bool b => .bool b
  | .int n => .ofInt64 n
  | .float x => .number (.float x)
  | .date _ moment => .single "$date" (.string moment.text)
  | .text s => .string s
  | .json v => v

def rawValue (type : Option SemanticType) (raw : String) : Value :=
  literalValue (.ofRaw type raw)

def metacharacters : List Char :=
  ['\\', '.', '+', '*', '?', '(', ')', '|', '[', ']', '{', '}', '^', '$']

def regexOf : List Char → List Char
  | [] => []
  | '%' :: rest => '.' :: '*' :: regexOf rest
  | '_' :: rest => '.' :: regexOf rest
  | c :: rest => if c ∈ metacharacters then '\\' :: c :: regexOf rest else c :: regexOf rest

def likeRegex (pattern : String) : String :=
  String.ofList ('^' :: (regexOf pattern.toList ++ ['$']))

-- To lie outside of a range is the only condition with two tests that are alternatives.
def clause? (path : String) (p : Predicate) (type : Option SemanticType) : Option Object :=
  if p.isComplete then
    let value := rawValue type p.value
    let second := rawValue type (p.second?.getD "")
    let regex : Value := .single "$regex" (.string (likeRegex p.value))
    let items : Value := .array (p.items.map (rawValue type))
    match p.operator with
    | .eq | .notEq | .gt | .lt | .gte | .lte =>
      (documentOperator? p.operator).map fun name => [(path, .single name value)]
    | .like => some [(path, regex)]
    | .notLike => some [(path, .single "$not" regex)]
    | .isIn => some [(path, .single "$in" items)]
    | .notIn => some [(path, .single "$nin" items)]
    | .between => some [(path, .object [("$gte", value), ("$lte", second)])]
    | .notBetween =>
      some [("$or", .array [.single path (.single "$lt" value),
        .single path (.single "$gt" second)])]
    | .isNull => some [(path, .single "$eq" .null)]
    | .isNotNull => some [(path, .single "$ne" .null)]
    | .exists => some [(path, .single "$exists" (.bool true))]
  else none

def merge (clauses : List Object) : Object :=
  -- A document cannot hold a key twice, so clauses that share one are listed.
  if (Object.keys clauses.flatten).Nodup then clauses.flatten
  else [("$and", .array (clauses.map .object))]

end QueryBuilder.Pipeline
