import ActorFrontend.Grammar.Expressions

/-!
# Reading statements and blocks

This module also ties the rules of the grammar together: those for what nests on a level are made
from those for the levels below.
-/

namespace ActorFrontend

namespace Parser

/-- The operator of an assignment. -/
def assignOp? : TokenKind → Option AssignOp
  | .symbol .eq => some .assign
  | .symbol .plusEq => some .addAssign
  | .symbol .minusEq => some .subAssign
  | .symbol .starEq => some .mulAssign
  | .symbol .slashEq => some .divAssign
  | .symbol .percentEq => some .modAssign
  | _ => none

/-- A label, if there is one. -/
def label? : Parser (Option String) := do
  match ← kind with
  | .label name =>
      advance
      pure (some name)
  | _ => pure none

/-- The label before a loop, and its colon. -/
def loopLabel : Parser (Option String) := do
  match ← label? with
  | none => pure none
  | some name =>
      expect .colon
      let atLoop ← query fun s =>
        s.kind.isKeyword .loopKw || s.kind.isKeyword .forKw || s.kind.isKeyword .whileKw
      if atLoop then pure (some name) else expected .labelledLoop

/-- Whether nothing more belongs to the statement. -/
def atStatementEnd (s : State) : Bool :=
  s.kind.isSymbol .semicolon || s.kind.isSymbol .rightBrace || s.atEnd

/-- A value before the end of a statement, if there is one. -/
def valueBeforeEnd (g : Rules) : Parser (Option Expr) :=
  optional (query fun s => !atStatementEnd s) (expr g)

/-- Whether the token at hand starts an expression that ends in a block and may stand as a
statement without a semicolon. -/
def startsBlockLike (s : State) : Bool :=
  match s.kind with
  | .keyword .ifKw | .keyword .matchKw | .keyword .selectKw | .keyword .raceKw | .keyword .joinKw
  | .keyword .unsafeKw | .keyword .tryKw => true
  | .keyword .scopeKw =>
      match s.peek 1 with
      | .symbol .leftBrace => true
      | .symbol .dot => (s.peek 2).isWord "launch"
      | _ => false
  | _ => false

/-- `let pattern: T = init;` -/
def letStmt (g : Rules) : Parser StmtKind := do
  expectKeyword .letKw
  let pattern ← g.pattern
  let type ← typeAfterColon g
  expect .eq
  let init ← expr g
  semicolon
  pure (.letBinding pattern type init)

/-- `var name: T = init;` -/
def varStmt (g : Rules) : Parser StmtKind := do
  expectKeyword .varKw
  let name ← name
  let type ← typeAfterColon g
  expect .eq
  let init ← expr g
  semicolon
  pure (.varBinding name type init)

/-- `for await pattern in iter { … }` -/
def forStmt (g : Rules) (label : Option String) : Parser StmtKind := do
  expectKeyword .forKw
  let isAwait ← acceptKeyword .awaitKw
  let pattern ← g.pattern
  expectKeyword .inKw
  let iter ← condition g
  let body ← g.block
  pure (.forIn label isAwait pattern iter body)

/-- `while cond { … }` -/
def whileStmt (g : Rules) (label : Option String) : Parser StmtKind := do
  advance
  let cond ← condition g
  let body ← g.block
  pure (.whileLoop label cond body)

/-- `loop { … }` -/
def loopStmt (g : Rules) (label : Option String) : Parser StmtKind := do
  advance
  let body ← g.block
  pure (.loop label body)

/-- `break 'label value;` -/
def breakStmt (g : Rules) : Parser StmtKind := do
  advance
  let label ← label?
  let value ← valueBeforeEnd g
  semicolon
  pure (.breakLoop label value)

/-- `continue 'label;` -/
def continueStmt : Parser StmtKind := do
  advance
  let label ← label?
  semicolon
  pure (.continueLoop label)

/-- `return value;` -/
def returnStmt (g : Rules) : Parser StmtKind := do
  advance
  let value ← valueBeforeEnd g
  semicolon
  pure (.returnValue value)

/-- An expression that ends in a block; a semicolon may follow it. -/
def blockLikeStmt (g : Rules) : Parser StmtKind := do
  let e ← g.blockLike
  pure (.expr e (← accept .semicolon))

/-- An assignment, or an expression: one before the closing brace gives the block its value, and
one that ends in a block needs no semicolon. -/
def exprStmt (g : Rules) : Parser StmtKind := do
  let e ← expr g
  match assignOp? (← kind) with
  | some op =>
      advance
      let value ← expr g
      semicolon
      pure (.assign e op value)
  | none =>
      if ← accept .semicolon then
        pure (.expr e true)
      else if ← query fun s => s.kind.isSymbol .rightBrace || e.isBlockLike then
        pure (.expr e false)
      else
        semicolon
        pure (.expr e true)

def stmtKind (g : Rules) (label : Option String) : Parser StmtKind := do
  match ← kind with
  | .keyword .letKw => letStmt g
  | .keyword .varKw => varStmt g
  | .keyword .forKw => forStmt g label
  | .keyword .whileKw => whileStmt g label
  | .keyword .loopKw => loopStmt g label
  | .keyword .breakKw => breakStmt g
  | .keyword .continueKw => continueStmt
  | .keyword .returnKw => returnStmt g
  | .symbol .leftBrace => do
      let block ← g.block
      pure (.block block)
  | _ =>
      if ← query startsBlockLike then blockLikeStmt g else exprStmt g

/-- A statement, what it holds being read by `g`. -/
def stmt (g : Rules) : Parser Stmt := do
  let start ← start
  let label ← loopLabel
  let kind ← stmtKind g label
  node start fun id span => ⟨id, span, kind⟩

/-- A block, what it holds being read by `g`.  Errors in its statements stay within it. -/
def blockRule (g : Rules) : Parser Block := do
  let start ← start
  expect .leftBrace
  let stmts ← enclosed <| bodyParts .statements (fun stmts => do
    let next ← stmt g
    pure (next :: stmts)) []
  expect .rightBrace
  pure ⟨stmts.reverse, ← spanFrom start⟩

end Parser

/-- The rules of the grammar where so many nesting levels are left. -/
def Rules.within : Nat → Rules
  | 0 => .refusing
  | levels + 1 =>
      { type := Parser.nested fun setting s => Parser.typeRule (within levels) setting s
        pattern := Parser.nested fun setting s => Parser.patternRule (within levels) setting s
        expr := fun minPower =>
          Parser.nested fun setting s => Parser.exprRule (within levels) minPower setting s
        block := Parser.nested fun setting s => Parser.blockRule (within levels) setting s
        blockLike := Parser.nested fun setting s => Parser.operand (within levels) setting s }

end ActorFrontend
