import ActorFrontend.Grammar.Parser
import ActorFrontend.Tree.Expr

/-!
# The nesting constructs of the grammar

Types, patterns, expressions and blocks hold constructs of the same sorts.  The rules for them
are written over a record of readings for what they hold, one nesting level further down; this
module also reads the paths that all of them share.
-/

namespace ActorFrontend

/-- Readings for the constructs that nest. -/
structure Rules where
  type : Parser TypeExpr
  pattern : Parser Pattern
  /-- Expressions whose operators all bind at least so tightly. -/
  expr : (minPower : Nat) → Parser Expr
  block : Parser Block
  /-- An expression that ends in a block, without operators after it. -/
  blockLike : Parser Expr

/-- The rules where no level is left: everything is nested too deep. -/
def Rules.refusing : Rules where
  type := Parser.tooDeep
  pattern := Parser.tooDeep
  expr _ := Parser.tooDeep
  block := Parser.tooDeep
  blockLike := Parser.tooDeep

namespace Parser

/-- A reading that is tried only where something announces it. -/
def optional {α : Type} (announced : Parser Bool) (p : Parser α) : Parser (Option α) := do
  if ← announced then
    let a ← p
    pure (some a)
  else
    pure none

/-- A list that is empty unless something announces it. -/
def listIf {α : Type} (announced : Parser Bool) (p : Parser (List α)) : Parser (List α) := do
  if ← announced then p else pure []

/-- `a::b::c` -/
def path : Parser (List String) := do
  let first ← name
  let more ← collect do
    if ← query fun s => s.kind.isSymbol .colonColon && (s.peek 1).isName then
      advance
      let part ← name
      pure (true, [part])
    else
      pure (false, [])
  pure (first :: more)

/-- A path with its separators, as bounds keep it. -/
def joinPath (path : List String) : String := "::".intercalate path

end Parser

end ActorFrontend
