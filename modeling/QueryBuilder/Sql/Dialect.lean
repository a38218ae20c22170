import QueryBuilder.Keyword

set_option autoImplicit false

namespace QueryBuilder.Sql

inductive Dialect where
  | generic
  | postgresql
  | mysql
  deriving DecidableEq, Repr

namespace Dialect

instance : Keyword Dialect where
  all := [.generic, .postgresql, .mysql]
  name
    | .generic => "generic"
    | .postgresql => "postgresql"
    | .mysql => "mysql"
  aliases
    | .generic => ["ansi"]
    | .postgresql => ["postgres"]
    | .mysql => ["mariadb"]
  documentAliases
    | .postgresql => ["postgres"]
    | _ => []

def reserved : List String :=
  ["all", "and", "as", "asc", "between", "by", "case", "check", "column", "create", "cross",
    "default", "delete", "desc", "distinct", "else", "end", "except", "exists", "from", "full",
    "group", "having", "in", "index", "inner", "insert", "intersect", "into", "is", "join", "key",
    "left", "like", "limit", "not", "null", "offset", "on", "or", "order", "outer", "primary",
    "references", "right", "select", "set", "table", "then", "union", "update", "user", "using",
    "values", "when", "where", "window"]

def quoteChar : Dialect → Char
  | .mysql => '\x60'
  | _ => '"'

def supportsFullJoin : Dialect → Bool
  | .mysql => false
  | _ => true

def requiresLimitForOffset : Dialect → Bool
  | .mysql => true
  | _ => false

def arrayAggregate : Dialect → String
  | .mysql => "JSON_ARRAYAGG"
  | _ => "ARRAY_AGG"

end Dialect

def doubled (quote : Char) : List Char → List Char
  | [] => []
  | c :: rest => if c = quote then c :: c :: doubled quote rest else c :: doubled quote rest

def enquote (quote : Char) (s : String) : String :=
  String.ofList (quote :: (doubled quote s.toList ++ [quote]))

def isPlain (name : String) : Bool :=
  match name.toList with
  | [] => false
  | c :: rest =>
    (Text.isAsciiLetter c || c == '_') &&
      rest.all fun c => Text.isAsciiLetter c || Text.isDigit c || c == '_'

def isReserved (name : String) : Bool := Text.lower name ∈ Dialect.reserved

def Dialect.quoteIdent (d : Dialect) (name : String) : String :=
  if isPlain name && !isReserved name then name else enquote d.quoteChar name

def stringLiteral (s : String) : String := enquote '\'' s

end QueryBuilder.Sql
