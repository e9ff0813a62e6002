/-!
# Error codes

Every kind of error has a code, under which it can be looked up.
-/

namespace ActorFrontend

inductive CodeCategory where
  | lexical
  | grammar
  deriving DecidableEq, Repr

/-- How the category is written. -/
def CodeCategory.text : CodeCategory → String
  | .lexical => "Lexical"
  | .grammar => "Syntax"

/-- A code with what is known about it. -/
structure CodeInfo where
  code : String
  title : String
  category : CodeCategory
  deriving DecidableEq, Repr

namespace CodeInfo

/-- All codes in order. -/
def all : List CodeInfo :=
  [⟨"E0001", "unexpected character", .lexical⟩,
   ⟨"E0002", "unterminated string literal", .lexical⟩,
   ⟨"E0003", "invalid escape sequence", .lexical⟩,
   ⟨"E0004", "invalid number literal", .lexical⟩,
   ⟨"E0005", "unterminated block comment", .lexical⟩,
   ⟨"E0006", "unterminated interpolation", .lexical⟩,
   ⟨"E0100", "unexpected token", .grammar⟩,
   ⟨"E0101", "expected token not found", .grammar⟩,
   ⟨"E0102", "nesting too deep", .grammar⟩,
   ⟨"E0103", "duplicate clause", .grammar⟩]

def find? (code : String) : Option CodeInfo := all.find? (·.code == code)

end CodeInfo

end ActorFrontend
