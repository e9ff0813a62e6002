import ActorFrontend.Tree.Duration
import ActorFrontend.Tree.Pattern

/-!
# Expressions, statements and blocks

Blocks hold statements, statements hold expressions, and many expressions hold blocks.  Every
expression and every statement is a numbered node; a block is not.
-/

namespace ActorFrontend

/-- Operators between two operands. -/
inductive BinaryOp where
  | add | sub | mul | div | mod
  | eq | ne | lt | gt | le | ge
  | and | or
  /-- `target <- message` -/
  | send
  deriving DecidableEq, Repr

/-- Operators before their operand. -/
inductive UnaryOp where
  | neg
  | not
  deriving DecidableEq, Repr

/-- Plain assignment and assignment by an operator. -/
inductive AssignOp where
  | assign
  | addAssign
  | subAssign
  | mulAssign
  | divAssign
  | modAssign
  deriving DecidableEq, Repr

inductive SelectKind where
  | select
  | race
  deriving DecidableEq, Repr

/-- A parameter of a lambda. -/
structure LambdaParam where
  name : String
  type : Option TypeExpr
  span : Span

mutual

structure Expr where
  id : NodeId
  span : Span
  kind : ExprKind

inductive ExprKind where
  | literal (value : Literal)
  | interpolated (parts : List StringPart)
  | duration (duration : Duration)
  | ident (name : String)
  | selfValue
  /-- A path of several parts, such as `Color::Red`. -/
  | path (path : List String)
  | binary (op : BinaryOp) (left right : Expr)
  | range (start stop : Expr) (inclusive : Bool)
  | unary (op : UnaryOp) (operand : Expr)
  | await (operand : Expr)
  | call (function : Expr) (args : List Expr)
  | methodCall (object : Expr) (method : String) (args : List Expr)
  /-- A field by name or by number. -/
  | field (object : Expr) (field : String)
  | index (object index : Expr)
  /-- `e?` -/
  | propagate (operand : Expr)
  | structLiteral (path : List String) (fields : List FieldInit)
  | array (elems : List Expr)
  /-- `[value; count]` -/
  | arrayRepeat (value count : Expr)
  | tuple (elems : List Expr)
  | paren (inner : Expr)
  | block (block : Block)
  /-- The `else` branch is a block or another `if`. -/
  | ifElse (cond : Expr) (thenBranch : Block) (elseBranch : Option Expr)
  | matchWith (scrutinee : Expr) (arms : List MatchArm)
  | lambda (lambda : Lambda)
  /-- `spawn Worker<T>(args)` -/
  | spawnActor (name : String) (typeArgs : List TypeExpr) (args : List Expr)
  | spawnLambda (lambda : Lambda)
  | select (kind : SelectKind) (arms : List SelectArm) (timeout : Option TimeoutArm)
  | join (elems : List Expr)
  | scope (block : Block)
  /-- `scope.launch { }` -/
  | scopeLaunch (block : Block)
  | scopeCancel
  | scopeIsCancelled
  | cooperate
  | yieldValue (value : Expr)
  | tryCatch (body : Block) (clause : Option CatchClause)
  | unsafeBlock (block : Block)

/-- A part of an interpolated string. -/
inductive StringPart where
  | text (value : String)
  | expr (expr : Expr)

/-- A field of a struct literal. -/
structure FieldInit where
  name : String
  value : Expr
  span : Span

structure MatchArm where
  pattern : Pattern
  guard : Option Expr
  body : Expr
  span : Span

/-- `move (a, b: T) -> R => body` -/
structure Lambda where
  isMove : Bool
  params : List LambdaParam
  ret : Option TypeExpr
  body : Expr

/-- `binding from source => body` -/
structure SelectArm where
  binding : String
  source : Expr
  body : Expr
  span : Span

/-- `after duration => body` -/
structure TimeoutArm where
  duration : Expr
  body : Expr
  span : Span

/-- `catch binding { handler }` -/
structure CatchClause where
  binding : Option String
  handler : Block
  span : Span

/-- Statements in braces; the span covers both braces. -/
structure Block where
  stmts : List Stmt
  span : Span

structure Stmt where
  id : NodeId
  span : Span
  kind : StmtKind

inductive StmtKind where
  | letBinding (pattern : Pattern) (type : Option TypeExpr) (init : Expr)
  | varBinding (name : String) (type : Option TypeExpr) (init : Expr)
  | assign (target : Expr) (op : AssignOp) (value : Expr)
  | forIn (label : Option String) (isAwait : Bool) (pattern : Pattern) (iter : Expr)
      (body : Block)
  | whileLoop (label : Option String) (cond : Expr) (body : Block)
  | loop (label : Option String) (body : Block)
  | breakLoop (label : Option String) (value : Option Expr)
  | continueLoop (label : Option String)
  | returnValue (value : Option Expr)
  /-- Braces in statement position. -/
  | block (block : Block)
  /-- An expression, with or without a semicolon after it. -/
  | expr (expr : Expr) (hasSemicolon : Bool)

end

namespace Expr

/-- Expressions that end in a block, which may stand as statements without a semicolon. -/
def isBlockLike (e : Expr) : Bool :=
  match e.kind with
  | .block _ | .ifElse .. | .matchWith .. | .select .. | .join _ | .scope _ | .scopeLaunch _
  | .tryCatch .. | .unsafeBlock _ => true
  | _ => false

end Expr

/-- The expression that gives a block its value: the last one, if no semicolon follows it. -/
def Block.tail? (b : Block) : Option Expr :=
  match b.stmts.getLast? with
  | some ⟨_, _, .expr e false⟩ => some e
  | _ => none

/-- A literal as an expression. -/
def LiteralNode.toExpr (l : LiteralNode) : Expr := ⟨l.id, l.span, .literal l.value⟩

end ActorFrontend
