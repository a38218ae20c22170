import QueryBuilder.Schema.Lexer
import QueryBuilder.Schema.ParseError

set_option autoImplicit false

namespace QueryBuilder

-- A reader that fails says where it stood, so that its caller can go on from there.
inductive Reading (α : Type) where
  | done (value : α) (rest : List Lexeme)
  | stuck (error : ParseError) (rest : List Lexeme)

def Reading.rest {α : Type} : Reading α → List Lexeme
  | .done _ rest => rest
  | .stuck _ rest => rest

abbrev Reader (α : Type) := List Lexeme → Reading α

namespace Reader

def bind {α β : Type} (p : Reader α) (f : α → Reader β) : Reader β := fun ts =>
  match p ts with
  | .done a rest => f a rest
  | .stuck e rest => .stuck e rest

instance : Monad Reader where
  pure a := fun ts => .done a ts
  bind := bind

def peek : List Lexeme → Token
  | [] => .eof
  | l :: _ => l.token

def line : List Lexeme → Nat
  | [] => 1
  | l :: _ => l.line

def fail {α : Type} (expected : Expected) : Reader α := fun ts =>
  .stuck (.unexpected (line ts) (peek ts) expected) ts

def name (expected : Expected) : Reader String
  | ⟨.ident s, _⟩ :: rest => .done s rest
  | ts => fail expected ts

def symbol (token : Token) (expected : Expected) : Reader Unit
  | l :: rest => if l.token = token then .done () rest else fail expected (l :: rest)
  | [] => fail expected []

def before (tokens : List Token) (expected : Expected) : Reader Unit := fun ts =>
  if peek ts ∈ tokens then .done () ts else fail expected ts

def isOneOf (tokens : List Token) (l : Lexeme) : Bool := l.token ∈ tokens

def textBefore (stops : List Token) (ts : List Lexeme) : String :=
  String.join ((ts.takeWhile (!isOneOf stops ·)).map (·.token.text))

def dropBefore (stops : List Token) (ts : List Lexeme) : List Lexeme :=
  ts.dropWhile (!isOneOf stops ·)

theorem length_dropBefore_le (stops : List Token) (ts : List Lexeme) :
    (dropBefore stops ts).length ≤ ts.length :=
  Lexer.length_dropWhile_le _ _

theorem dropBefore_cons {stops : List Token} {l : Lexeme} (h : l.token ∉ stops)
    (rest : List Lexeme) : dropBefore stops (l :: rest) = dropBefore stops rest := by
  simp [dropBefore, isOneOf, h]

def Shortens {α : Type} (p : Reader α) : Prop :=
  ∀ ts, (p ts).rest.length ≤ ts.length

theorem shortens_pure {α : Type} (a : α) : Shortens (pure a : Reader α) :=
  fun _ => Nat.le_refl _

theorem shortens_bind {α β : Type} {p : Reader α} {f : α → Reader β} (hp : Shortens p)
    (hf : ∀ a, Shortens (f a)) : Shortens (p >>= f) := by
  intro ts
  have h := hp ts
  show (bind p f ts).rest.length ≤ _
  unfold bind
  split
  · next a rest hr =>
    rw [hr] at h
    exact Nat.le_trans (hf a rest) h
  · next e rest hr =>
    rw [hr] at h
    exact h

theorem shortens_name (expected : Expected) : Shortens (name expected) := by
  intro ts
  unfold name
  split
  · exact Nat.le_succ _
  · exact Nat.le_refl _

theorem shortens_symbol (token : Token) (expected : Expected) :
    Shortens (symbol token expected) := by
  intro ts
  unfold symbol
  split
  · split
    · exact Nat.le_succ _
    · exact Nat.le_refl _
  · exact Nat.le_refl _

theorem shortens_before (tokens : List Token) (expected : Expected) :
    Shortens (before tokens expected) := by
  intro ts
  unfold before
  split <;> exact Nat.le_refl _

end Reader

end QueryBuilder
