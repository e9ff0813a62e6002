import ActorFrontend.Grammar.Rules

/-!
# Reading patterns
-/

namespace ActorFrontend.Parser

/-- The value of a token that is a literal. -/
def literal? : TokenKind → Option Literal
  | .int value => some (.int value)
  | .float value => some (.float value)
  | .string value => some (.string value)
  | .bool value => some (.bool value)
  | .keyword .noneKw => some .none
  | _ => none

/-- A literal, which is a node of its own. -/
def literalNode : Parser LiteralNode := do
  let start ← start
  let value ← valueOf literal? .pattern
  node start fun id span => ⟨id, span, value⟩

/-- Whether a token is a number. -/
def isNumber : TokenKind → Bool
  | .int _ | .float _ => true
  | _ => false

/-- `x` or `x: pattern` in a struct pattern. -/
def fieldPattern (g : Rules) : Parser FieldPattern := do
  let start ← start
  let name ← name
  let pattern ← optional (accept .colon) g.pattern
  pure ⟨name, pattern, ← spanFrom start⟩

/-- A name or a path, with what may follow it. -/
def pathPattern (g : Rules) : Parser PatternKind := do
  let path ← path
  if ← accept .leftParen then
    pure (.constructor path (← commaList .rightParen g.pattern))
  else if ← sees .leftBrace then
    expect .leftBrace
    pure (.struct path (← commaList .rightBrace (fieldPattern g)))
  else
    match path with
    | [name] => pure (.ident name)
    | _ => pure (.path path)

/-- What stands in parentheses: nothing, a pattern that is only grouped, or a tuple. -/
def parenPattern (g : Rules) (start : Nat) : Parser Pattern := do
  advance
  if ← accept .rightParen then
    node start fun id span => ⟨id, span, .tuple []⟩
  else
    let first ← g.pattern
    if ← accept .comma then
      let more ← commaList .rightParen g.pattern
      node start fun id span => ⟨id, span, .tuple (first :: more)⟩
    else
      expect .rightParen
      pure first

/-- A minus sign and a number. -/
def negatedPattern (start : Nat) : Parser PatternKind := do
  advance
  let number ← literalNode
  node start fun id span => .negated id span number

/-- A pattern without alternatives. -/
def singlePattern (g : Rules) : Parser Pattern := do
  let start ← start
  let finish (kind : Parser PatternKind) : Parser Pattern := do
    let kind ← kind
    node start fun id span => ⟨id, span, kind⟩
  match ← kind with
  | .ident "_" => finish do
      advance
      pure .wildcard
  | .ident _ => finish (pathPattern g)
  | .int _ | .float _ | .string _ | .bool _ | .keyword .noneKw => finish do
      pure (.literal (← literalNode))
  | .symbol .minus =>
      if ← query fun s => isNumber (s.peek 1) then finish (negatedPattern start)
      else expected .pattern
  | .symbol .leftParen => parenPattern g start
  | _ => expected .pattern

/-- The alternatives that a pattern amounts to as one of several. -/
def alternatives (p : Pattern) : List Pattern :=
  match p.kind with
  | .or inner => inner
  | _ => [p]

/-- A pattern with its alternatives, what it holds being read by `g`. -/
def patternRule (g : Rules) : Parser Pattern := do
  let start ← start
  let first ← singlePattern g
  if ← sees .pipe then
    let more ← collect do
      if ← accept .pipe then
        let next ← singlePattern g
        pure (true, alternatives next)
      else
        pure (false, [])
    node start fun id span => ⟨id, span, .or (alternatives first ++ more)⟩
  else
    pure first

end ActorFrontend.Parser
