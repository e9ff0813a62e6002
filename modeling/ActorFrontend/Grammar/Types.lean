import ActorFrontend.Grammar.Rules

/-!
# Reading types

Types, type parameters with their bounds, and `where` clauses.
-/

namespace ActorFrontend.Parser

/-- `<A, B>`, or nothing. -/
def typeArgs (g : Rules) : Parser (List TypeExpr) := listIf (accept .lt) (commaList .gt g.type)

/-- `Name<A, B>` -/
def bound (g : Rules) : Parser Bound := do
  let start ← start
  let path ← path
  let args ← typeArgs g
  pure ⟨joinPath path, args, ← spanFrom start⟩

/-- `A + B<T> + C` -/
def bounds (g : Rules) : Parser (List Bound) := do
  let first ← bound g
  let more ← collect do
    if ← accept .plus then
      let next ← bound g
      pure (true, [next])
    else
      pure (false, [])
  pure (first :: more)

/-- `: A + B`, or nothing. -/
def boundsAfterColon (g : Rules) : Parser (List Bound) := listIf (accept .colon) (bounds g)

/-- `: T`, or nothing. -/
def typeAfterColon (g : Rules) : Parser (Option TypeExpr) := optional (accept .colon) g.type

/-- `-> T`, or nothing. -/
def resultType (g : Rules) : Parser (Option TypeExpr) := optional (accept .arrow) g.type

def typeParam (g : Rules) : Parser TypeParam := do
  let start ← start
  let name ← name
  let bounds ← boundsAfterColon g
  pure ⟨name, bounds, ← spanFrom start⟩

/-- `<T, U: A + B>`, or nothing. -/
def typeParams (g : Rules) : Parser (List TypeParam) :=
  listIf (accept .lt) (commaList .gt (typeParam g))

def wherePredicate (g : Rules) : Parser WherePredicate := do
  let start ← start
  let type ← g.type
  expect .colon
  let bounds ← bounds g
  pure ⟨type, bounds, ← spanFrom start⟩

/-- `where T: A + B, U: C`, or nothing.  A comma may stand before the brace that follows. -/
def whereClause (g : Rules) : Parser (List WherePredicate) :=
  listIf (acceptKeyword .whereKw) <| collect do
    let predicate ← wherePredicate g
    if ← accept .comma then
      pure (!(← sees .leftBrace), [predicate])
    else
      pure (false, [predicate])

/-- What stands in parentheses: nothing, a type that is only grouped, or a tuple. -/
def parenType (g : Rules) (start : Nat) : Parser TypeExpr := do
  advance
  if ← accept .rightParen then
    node start fun id span => ⟨id, span, .unit⟩
  else
    let first ← g.type
    if ← accept .comma then
      let more ← commaList .rightParen g.type
      node start fun id span => ⟨id, span, .tuple (first :: more)⟩
    else
      expect .rightParen
      pure first

/-- `[T]` or `[T; n]` -/
def bracketType (g : Rules) : Parser TypeKind := do
  advance
  let elem ← g.type
  let length ← optional (accept .semicolon) integer
  expect .rightBracket
  match length with
  | some length => pure (.array elem length)
  | none => pure (.slice elem)

/-- `fn(A, B) -> R` -/
def functionType (g : Rules) : Parser TypeKind := do
  advance
  expect .leftParen
  let params ← commaList .rightParen g.type
  let ret ← resultType g
  pure (.function params ret)

/-- `*const T`, `*mut T` or `*T` -/
def pointerType (g : Rules) : Parser TypeKind := do
  advance
  if ← acceptKeyword .constKw then
    pure (.pointer (some .const) (← g.type))
  else if ← acceptWord "mut" then
    pure (.pointer (some .mut) (← g.type))
  else
    pure (.pointer none (← g.type))

/-- `dyn A` or `dyn (A + B)` -/
def traitObjectType (g : Rules) : Parser TypeKind := do
  advance
  if ← accept .leftParen then
    let bounds ← bounds g
    expect .rightParen
    pure (.traitObject bounds)
  else
    let only ← bound g
    pure (.traitObject [only])

def namedType (g : Rules) : Parser TypeKind := do
  let path ← path
  let args ← typeArgs g
  pure (.named path args)

/-- A type, what it holds being read by `g`. -/
def typeRule (g : Rules) : Parser TypeExpr := do
  let start ← start
  let finish (kind : Parser TypeKind) : Parser TypeExpr := do
    let kind ← kind
    node start fun id span => ⟨id, span, kind⟩
  match ← kind with
  | .ident _ => finish (namedType g)
  | .symbol .leftParen => parenType g start
  | .symbol .leftBracket => finish (bracketType g)
  | .keyword .fnKw => finish (functionType g)
  | .symbol .star => finish (pointerType g)
  | .keyword .dynKw => finish (traitObjectType g)
  | _ => expected .type

end ActorFrontend.Parser
