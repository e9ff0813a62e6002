import ActorFrontend.Grammar.Patterns
import ActorFrontend.Grammar.Precedence
import ActorFrontend.Grammar.Recovery
import ActorFrontend.Grammar.Types

/-!
# Reading expressions

An expression is an operand followed by operators, calls, indices and members, as far as these
bind tightly enough.
-/

namespace ActorFrontend

namespace Parser

/-- Any expression. -/
def expr (g : Rules) : Parser Expr := g.expr 0

/-- The expression that a node began at `start` is. -/
def exprNode (start : Nat) (kind : ExprKind) : Parser Expr :=
  node start fun id span => ⟨id, span, kind⟩

/-- Reads the kind of an expression and makes it a node. -/
def asExpr (kind : Parser ExprKind) : Parser Expr := do
  let start ← start
  let kind ← kind
  exprNode start kind

/-! ## Expressions in special contexts -/

/-- An expression before a block: a name and a brace are no struct literal there. -/
def condition (g : Rules) : Parser Expr := do
  let context ← query State.context
  withContext { context with structLiterals := false } (expr g)

/-- An expression before the arrow of an arm, which does not make a lambda. -/
def armHead (g : Rules) : Parser Expr := do
  let context ← query State.context
  withContext { context with lambdas := false } (expr g)

/-- A block as an expression. -/
def blockExpr (g : Rules) : Parser Expr := asExpr do
  let block ← g.block
  pure (.block block)

/-- What follows the arrow of an arm; a block stands alone there. -/
def armBody (g : Rules) : Parser Expr := do
  if ← sees .leftBrace then blockExpr g else expr g

/-- `(a, b, c)` -/
def args (g : Rules) : Parser (List Expr) := do
  expect .leftParen
  enclosed (commaList .rightParen (expr g))

/-! ## Literals -/

/-- The unit that is written directly after the integer read last. -/
def durationUnit? : Parser (Option DurationUnit) := fun setting s =>
  match s.kind with
  | .ident suffix =>
      if (s.span setting).start = s.previousEnd then .ok (DurationUnit.ofSuffix? suffix) s
      else .ok none s
  | _ => .ok none s

/-- An integer, or a duration if a unit is attached. -/
def integerOrDuration (value : UInt64) : Parser ExprKind := do
  advance
  match ← durationUnit? with
  | some unit =>
      advance
      pure (.duration ⟨value, unit⟩)
  | none => pure (.literal (.int value))

/-- A duration, where nothing else can stand. -/
def duration : Parser Duration := do
  let value ← valueOf (fun | .int value => some value | _ => none) .duration
  match ← durationUnit? with
  | some unit =>
      advance
      pure ⟨value, unit⟩
  | none => expected .duration

/-- Puts the state after a splice back into the string around it: the numbers given out are used
up, and the errors of the splice are recorded. -/
def leaveSplice (setting : Setting) (outer inner : State) : State :=
  inner.errors.foldl (fun s error => s.record setting error) { outer with nextId := inner.nextId }

/-- The expression of a splice.  It is read from tokens of its own, which must make up one
expression, at the nesting depth of the string and with numbers that follow those given out. -/
def splice (g : Rules) (tokens : List Token) (span : Span) : Parser Expr := fun setting s =>
  let within : Setting := { setting with endOfInput := .empty span.stop }
  let entry : State :=
    { State.initial within (Lexeme.significant false tokens) with
      nextId := s.nextId
      depth := s.depth }
  let whole : Parser Expr := do
    let e ← expr g
    if ← atEnd then pure e else expected (.symbol .rightBrace)
  match whole within entry with
  | .ok e inner => .ok e (leaveSplice setting s inner)
  | .fail error inner => .fail error (leaveSplice setting s inner)

/-- The parts of an interpolated string. -/
def stringParts (g : Rules) : List Fragment → Parser (List StringPart)
  | [] => pure []
  | .text value _ :: fragments => do
      let more ← stringParts g fragments
      pure (.text value :: more)
  | .splice tokens span :: fragments => do
      let e ← splice g tokens span
      let more ← stringParts g fragments
      pure (.expr e :: more)

def interpolatedString (g : Rules) (fragments : List Fragment) : Parser ExprKind := do
  advance
  pure (.interpolated (← stringParts g fragments))

/-! ## Names -/

/-- After a name, whether the brace at hand opens the fields of a struct literal: `{}`, `{ a: `,
`{ a, ` or `{ a }`. -/
def opensFields (s : State) : Bool :=
  match s.peek 1 with
  | .symbol .rightBrace => true
  | .ident _ =>
      match s.peek 2 with
      | .symbol .colon | .symbol .comma | .symbol .rightBrace => true
      | _ => false
  | _ => false

/-- `name: value`, or `name` for `name: name`. -/
def fieldInit (g : Rules) : Parser FieldInit := do
  let start ← start
  let nameSpan ← span
  let name ← name
  if ← accept .colon then
    let value ← expr g
    pure ⟨name, value, ← spanFrom start⟩
  else
    let id ← freshId
    pure ⟨name, ⟨id, nameSpan, .ident name⟩, ← spanFrom start⟩

/-- A name, a path or a struct literal. -/
def pathExpr (g : Rules) : Parser ExprKind := do
  let path ← path
  if ← query fun s => s.kind.isSymbol .leftBrace && s.context.structLiterals && opensFields s then
    expect .leftBrace
    let fields ← enclosed (commaList .rightBrace (fieldInit g))
    pure (.structLiteral path fields)
  else
    match path with
    | [name] => pure (.ident name)
    | _ => pure (.path path)

/-! ## Brackets and lambdas -/

def lambdaParam (g : Rules) : Parser LambdaParam := do
  let start ← start
  let name ← name
  let type ← typeAfterColon g
  pure ⟨name, type, ← spanFrom start⟩

/-- `(a, b: T) -> R =>`, up to and including the arrow. -/
def lambdaHead (g : Rules) : Parser (List LambdaParam × Option TypeExpr) := do
  expect .leftParen
  let params ← commaList .rightParen (lambdaParam g)
  let ret ← resultType g
  expect .fatArrow
  pure (params, ret)

/-- A lambda where nothing else can stand: `move (a) => body` or `(a) => body`. -/
def lambda (g : Rules) : Parser Lambda := do
  let isMove ← acceptKeyword .moveKw
  let (params, ret) ← lambdaHead g
  let body ← expr g
  pure ⟨isMove, params, ret, body⟩

/-- An empty tuple, an expression in parentheses, or a tuple. -/
def parenOrTuple (g : Rules) : Parser ExprKind := do
  advance
  enclosed do
    if ← accept .rightParen then
      pure (.tuple [])
    else
      let first ← expr g
      if ← accept .comma then
        let more ← commaList .rightParen (expr g)
        pure (.tuple (first :: more))
      else
        expect .rightParen
        pure (.paren first)

/-- What a parenthesis starts: a lambda if its head can be read here, else a bracketed
expression. -/
def parenOrLambda (g : Rules) : Parser ExprKind := do
  if ← query fun s => s.context.lambdas then
    match ← attempt (lambdaHead g) with
    | some (params, ret) =>
        let body ← expr g
        pure (.lambda ⟨false, params, ret, body⟩)
    | none => parenOrTuple g
  else
    parenOrTuple g

/-- `[a, b]` or `[value; count]` -/
def arrayExpr (g : Rules) : Parser ExprKind := do
  expect .leftBracket
  enclosed do
    if ← accept .rightBracket then
      pure (.array [])
    else
      let first ← expr g
      if ← accept .semicolon then
        let count ← expr g
        expect .rightBracket
        pure (.arrayRepeat first count)
      else
        let more ← commaTail .rightBracket (expr g)
        pure (.array (first :: more))

/-! ## Control flow -/

/-- An `if` whose `else` branch has still to be read. -/
structure OpenIf where
  start : Nat
  cond : Expr
  thenBranch : Block

/-- `if cond { … }` -/
def ifHead (g : Rules) : Parser OpenIf := do
  let start ← start
  expectKeyword .ifKw
  let cond ← condition g
  let thenBranch ← g.block
  pure ⟨start, cond, thenBranch⟩

/-- The `if` expressions of a chain, the last one given first, around what the last one has as its
`else` branch. -/
def closeIfs (elseBranch : Option Expr) : List OpenIf → Parser (Option Expr)
  | [] => pure elseBranch
  | head :: heads => do
      let e ← exprNode head.start (.ifElse head.cond head.thenBranch elseBranch)
      closeIfs (some e) heads

/-- `if … { … } else if … { … } else { … }`.  The chain is one construct and does not nest, so its
parts are read in a row: those after `first`, the last one given first, and the final `else`
branch. -/
def ifExpr (g : Rules) : Parser Expr := do
  let first ← ifHead g
  let (heads, elseBranch) ← loop (fun (heads, _) => do
      if ← acceptKeyword .elseKw then
        if ← seesKeyword .ifKw then
          let next ← ifHead g
          pure (true, next :: heads, none)
        else
          let e ← blockExpr g
          pure (false, heads, some e)
      else
        pure (false, heads, none))
    (([] : List OpenIf), (none : Option Expr))
  let inner ← closeIfs elseBranch heads
  exprNode first.start (.ifElse first.cond first.thenBranch inner)

/-- `pattern if guard => body`, and a comma after it if there is one. -/
def matchArm (g : Rules) : Parser MatchArm := do
  let start ← start
  let pattern ← g.pattern
  let guard ← optional (acceptKeyword .ifKw) (armHead g)
  expect .fatArrow
  let body ← armBody g
  let span ← spanFrom start
  let _ ← accept .comma
  pure ⟨pattern, guard, body, span⟩

def matchExpr (g : Rules) : Parser ExprKind := do
  expectKeyword .matchKw
  let scrutinee ← condition g
  expect .leftBrace
  let arms ← enclosed <| collect do
    if ← atBodyEnd then
      pure (false, [])
    else
      let arm ← matchArm g
      pure (true, [arm])
  expect .rightBrace
  pure (.matchWith scrutinee arms)

/-- `try { … } catch e { … }` -/
def tryExpr (g : Rules) : Parser ExprKind := do
  expectKeyword .tryKw
  let body ← g.block
  if ← seesKeyword .catchKw then
    let start ← start
    advance
    let binding ← optional (query fun s => s.kind.isName) name
    let handler ← g.block
    pure (.tryCatch body (some ⟨binding, handler, ← spanFrom start⟩))
  else
    pure (.tryCatch body none)

/-! ## Concurrency -/

/-- `spawn Actor<T>(args)` or `spawn (params) => body` -/
def spawnExpr (g : Rules) : Parser ExprKind := do
  expectKeyword .spawnKw
  if ← query fun s => s.kind.isKeyword .moveKw || s.kind.isSymbol .leftParen then
    pure (.spawnLambda (← lambda g))
  else
    let name ← name
    let typeArgs ← typeArgs g
    let args ← args g
    pure (.spawnActor name typeArgs args)

/-- `binding from source => body` -/
def selectArm (g : Rules) : Parser SelectArm := do
  let start ← start
  let binding ← name
  expectWord "from"
  let source ← armHead g
  expect .fatArrow
  let body ← armBody g
  pure ⟨binding, source, body, ← spanFrom start⟩

/-- `after duration => body` -/
def timeoutArm (g : Rules) : Parser TimeoutArm := do
  let start ← start
  advance
  let duration ← armHead g
  expect .fatArrow
  let body ← armBody g
  pure ⟨duration, body, ← spanFrom start⟩

/-- Whether an arm is a timeout; `after` may also be the name bound by an ordinary arm. -/
def seesTimeout : Parser Bool :=
  query fun s => s.kind.isWord "after" && !(s.peek 1).isWord "from"

/-- The end of an arm: a comma, or the closing brace ahead. -/
def armSeparator : Parser Unit := do
  if ← accept .comma then
    pure ()
  else if ← sees .rightBrace then
    pure ()
  else
    expected .armSeparator

/-- One arm, added to those read before, the last one first.  A second timeout is reported and
dropped. -/
def anyArm (g : Rules) (arms : List SelectArm × Option TimeoutArm) :
    Parser (List SelectArm × Option TimeoutArm) := do
  if ← seesTimeout then
    let keyword ← span
    let arm ← timeoutArm g
    match arms.2 with
    | none => pure (arms.1, some arm)
    | some first =>
        record ⟨.duplicate .afterArm, keyword⟩
        pure (arms.1, some first)
  else
    let arm ← selectArm g
    pure (arm :: arms.1, arms.2)

/-- `select { x from rx => body, after 1s => body }`; `race` has the same form. -/
def selectExpr (g : Rules) (kind : SelectKind) : Parser ExprKind := do
  advance
  expect .leftBrace
  let (arms, timeout) ← enclosed <| loop (fun arms => do
      if ← atBodyEnd then
        pure (false, arms)
      else
        let arms ← anyArm g arms
        armSeparator
        pure (true, arms))
    ([], none)
  expect .rightBrace
  pure (.select kind arms.reverse timeout)

/-- `join { a, b, c }` -/
def joinExpr (g : Rules) : Parser ExprKind := do
  expectKeyword .joinKw
  expect .leftBrace
  let elems ← enclosed do
    let first ← expr g
    let more ← commaTail .rightBrace (expr g)
    pure (first :: more)
  pure (.join elems)

/-- `scope { … }`, `scope.launch { … }`, `scope.cancel()` or `scope.is_cancelled()` -/
def scopeExpr (g : Rules) : Parser ExprKind := do
  expectKeyword .scopeKw
  if ← sees .leftBrace then
    pure (.scope (← g.block))
  else if ← accept .dot then
    if ← acceptWord "launch" then
      pure (.scopeLaunch (← g.block))
    else if ← acceptWord "cancel" then
      expect .leftParen
      expect .rightParen
      pure .scopeCancel
    else if ← acceptWord "is_cancelled" then
      expect .leftParen
      expect .rightParen
      pure .scopeIsCancelled
    else
      expected .scopeOperation
  else
    expected .scopeBody

/-! ## Operands and operators -/

/-- A token that is an expression by itself. -/
def single (kind : ExprKind) : Parser ExprKind := do
  advance
  pure kind

/-- An operator or a keyword, and what it applies to. -/
def applied (operand : Parser Expr) (make : Expr → ExprKind) : Parser ExprKind := do
  advance
  pure (make (← operand))

/-- An operand: everything up to the first operator or continuation. -/
def operand (g : Rules) : Parser Expr := do
  match ← kind with
  | .int value => asExpr (integerOrDuration value)
  | .float value => asExpr (single (.literal (.float value)))
  | .string value => asExpr (single (.literal (.string value)))
  | .interpolated fragments => asExpr (interpolatedString g fragments)
  | .bool value => asExpr (single (.literal (.bool value)))
  | .keyword .noneKw => asExpr (single (.literal .none))
  | .keyword .selfKw => asExpr (single .selfValue)
  | .keyword .cooperateKw => asExpr (single .cooperate)
  | .ident _ => asExpr (pathExpr g)
  | .symbol .leftParen => asExpr (parenOrLambda g)
  | .symbol .leftBracket => asExpr (arrayExpr g)
  | .symbol .leftBrace => blockExpr g
  | .symbol .minus => asExpr (applied (g.expr unaryPower) (.unary .neg))
  | .symbol .bang => asExpr (applied (g.expr unaryPower) (.unary .not))
  | .keyword .awaitKw => asExpr (applied (g.expr unaryPower) .await)
  | .keyword .yieldKw => asExpr (applied (expr g) .yieldValue)
  | .keyword .ifKw => ifExpr g
  | .keyword .matchKw => asExpr (matchExpr g)
  | .keyword .moveKw => asExpr do pure (.lambda (← lambda g))
  | .keyword .spawnKw => asExpr (spawnExpr g)
  | .keyword .selectKw => asExpr (selectExpr g .select)
  | .keyword .raceKw => asExpr (selectExpr g .race)
  | .keyword .joinKw => asExpr (joinExpr g)
  | .keyword .scopeKw => asExpr (scopeExpr g)
  | .keyword .tryKw => asExpr (tryExpr g)
  | .keyword .unsafeKw => asExpr do
      advance
      pure (.unsafeBlock (← g.block))
  | _ => expected .expression

/-- The two indices that a number with a point stands for after a dot: `t.0.1`. -/
def splitIndices (text : String) : List Char × List Char :=
  (text.toList.takeWhile (· ≠ '.'), (text.toList.dropWhile (· ≠ '.')).drop 1)

/-- Two tuple indices that were read as one number. -/
def indexPair (object : Expr) : Parser Expr := do
  let token ← span
  let (first, second) := splitIndices (← query State.text)
  advance
  let id ← freshId
  let inner : Expr :=
    ⟨id, ⟨object.span.start, token.start + Source.byteLength first⟩,
      .field object (String.ofList first)⟩
  exprNode object.span.start (.field inner (String.ofList second))

/-- After a dot: a field, a method call or a tuple index. -/
def member (g : Rules) (object : Expr) : Parser Expr := do
  match ← kind with
  | .ident name =>
      advance
      if ← sees .leftParen then
        let args ← args g
        exprNode object.span.start (.methodCall object name args)
      else
        exprNode object.span.start (.field object name)
  | .int _ =>
      let field ← query State.text
      advance
      exprNode object.span.start (.field object field)
  | .float _ => indexPair object
  | _ => expected .fieldName

/-- What continues the expression to its left. -/
def continuation (g : Rules) (left : Expr) : Parser Expr := do
  match ← kind with
  | .symbol .leftParen =>
      let args ← args g
      exprNode left.span.start (.call left args)
  | .symbol .leftBracket =>
      advance
      let index ← enclosed (expr g)
      expect .rightBracket
      exprNode left.span.start (.index left index)
  | .symbol .question =>
      advance
      exprNode left.span.start (.propagate left)
  | .symbol .dot =>
      advance
      member g left
  | _ => expected .expression

/-- An operator and its right operand; the node covers both operands. -/
def operation (g : Rules) (op : OperatorToken) (left : Expr) : Parser Expr := do
  advance
  let right ← g.expr op.rightPower
  let id ← freshId
  pure ⟨id, left.span.cover right.span, op.apply left right⟩

/-- Takes one operator or continuation into the expression read so far, if it binds at least so
tightly, and tells whether it did. -/
def extend (g : Rules) (minPower : Nat) (left : Expr) : Parser (Bool × Expr) := do
  let token ← kind
  match continuationPower? token with
  | some power =>
      if power < minPower then
        pure (false, left)
      else
        pure (true, ← continuation g left)
  | none =>
      match OperatorToken.ofToken? token with
      | some op =>
          if op.power < minPower then
            pure (false, left)
          else
            pure (true, ← operation g op left)
      | none => pure (false, left)

/-- An expression whose operators bind at least so tightly, what it holds being read by `g`. -/
def exprRule (g : Rules) (minPower : Nat) : Parser Expr := do
  let first ← operand g
  loop (extend g minPower) first

end Parser

end ActorFrontend
