import QueryBuilder.Text.Trim

set_option autoImplicit false

namespace QueryBuilder

/-- A type whose values are words. A word may have other spellings on a command line (`aliases`) and
in a document (`documentAliases`). -/
class Keyword (α : Type) where
  all : List α
  name : α → String
  aliases : α → List String := fun _ => []
  documentAliases : α → List String := fun _ => []

namespace Keyword

variable {α : Type} [Keyword α]

def parse? (s : String) : Option α :=
  all.find? fun a => (name a :: aliases a).any (Text.sameLetters s)

def read? (s : String) : Option α :=
  all.find? fun a => (name a :: documentAliases a).contains s

end Keyword

end QueryBuilder
