import QueryBuilder.Text.Quoted

set_option autoImplicit false

namespace QueryBuilder

inductive Token where
  | ident (name : String)
  | str (value : String)
  | num (digits : String)
  | lbrace
  | rbrace
  | lparen
  | rparen
  | lbracket
  | rbracket
  | comma
  | colon
  | dot
  | gt
  | lt
  | newline
  | other (c : Char)
  | eof
  deriving DecidableEq, Repr

-- `line` is the line that the token starts on, counted from 1.
structure Lexeme where
  token : Token
  line : Nat
  deriving DecidableEq, Repr

namespace Token

def kind : Token → String
  | .ident _ => "Ident"
  | .str _ => "Str"
  | .num _ => "Num"
  | .lbrace => "LBrace"
  | .rbrace => "RBrace"
  | .lparen => "LParen"
  | .rparen => "RParen"
  | .lbracket => "LBracket"
  | .rbracket => "RBracket"
  | .comma => "Comma"
  | .colon => "Colon"
  | .dot => "Dot"
  | .gt => "Gt"
  | .lt => "Lt"
  | .newline => "Newline"
  | .other _ => "Other"
  | .eof => "Eof"

def shown : Token → String
  | .ident s => "Ident(" ++ Text.shownText s ++ ")"
  | .str s => "Str(" ++ Text.shownText s ++ ")"
  | .num s => "Num(" ++ Text.shownText s ++ ")"
  | .other c => "Other(" ++ Text.shownLetter c ++ ")"
  | t => t.kind

def text : Token → String
  | .ident s => s
  | .str s => s
  | .num s => s
  | .lbrace => "\x7b"
  | .rbrace => "\x7d"
  | .lparen => "("
  | .rparen => ")"
  | .lbracket => "["
  | .rbracket => "]"
  | .comma => ","
  | .colon => ":"
  | .dot => "."
  | .gt => ">"
  | .lt => "<"
  | .newline => ""
  | .other c => String.singleton c
  | .eof => ""

end Token

end QueryBuilder
