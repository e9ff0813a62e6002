import ActorFrontend.Grammar.Precedence

/-!
# Operators and what they apply to

The expressions made of names, integers, brackets, operators and what continues an expression,
without numbers and spans: which tokens spell them, and which of them need no further parentheses.
-/

namespace ActorFrontend

/-- What stands before its operand. -/
inductive PrefixOp where
  | neg
  | not
  | await
  deriving DecidableEq, Repr

/-- The token of the operator. -/
def PrefixOp.token : PrefixOp → TokenKind
  | .neg => .symbol .minus
  | .not => .symbol .bang
  | .await => .keyword .awaitKw

/-- An expression of operators, without numbers and spans. -/
inductive Term where
  | int (value : UInt64)
  | name (name : String)
  | paren (inner : Term)
  | call (callee : Term) (args : List Term)
  | index (object index : Term)
  | field (object : Term) (name : String)
  | methodCall (object : Term) (method : String) (args : List Term)
  /-- `e?` -/
  | propagate (operand : Term)
  | prefixed (op : PrefixOp) (operand : Term)
  | operation (op : OperatorToken) (left right : Term)

mutual

/-- The term that the expression is, if it is made of nothing else. -/
def Expr.term? : Expr → Option Term
  | ⟨_, _, kind⟩ => kind.term?

def ExprKind.term? : ExprKind → Option Term
  | .literal (.int value) => some (.int value)
  | .ident name => some (.name name)
  | .paren inner => do pure (.paren (← inner.term?))
  | .call function args => do pure (.call (← function.term?) (← terms? args))
  | .index object index => do pure (.index (← object.term?) (← index.term?))
  | .field object name => do pure (.field (← object.term?) name)
  | .methodCall object method args => do
      pure (.methodCall (← object.term?) method (← terms? args))
  | .propagate operand => do pure (.propagate (← operand.term?))
  | .unary .neg operand => do pure (.prefixed .neg (← operand.term?))
  | .unary .not operand => do pure (.prefixed .not (← operand.term?))
  | .await operand => do pure (.prefixed .await (← operand.term?))
  | .binary op left right => do
      pure (.operation (.binary op) (← left.term?) (← right.term?))
  | .range start stop inclusive => do
      pure (.operation (.range inclusive) (← start.term?) (← stop.term?))
  | _ => none

/-- The terms that the expressions are. -/
def terms? : List Expr → Option (List Term)
  | [] => some []
  | e :: es => do pure ((← e.term?) :: (← terms? es))

end

section

variable (e e' : Expr) (es : List Expr) (name : String)

@[simp] theorem ExprKind.term?_paren :
    (ExprKind.paren e).term? = e.term?.bind fun t => some (.paren t) := rfl

@[simp] theorem ExprKind.term?_call : (ExprKind.call e es).term? =
    e.term?.bind fun t => (terms? es).bind fun args => some (.call t args) := rfl

@[simp] theorem ExprKind.term?_index : (ExprKind.index e e').term? =
    e.term?.bind fun t => e'.term?.bind fun t' => some (.index t t') := rfl

@[simp] theorem ExprKind.term?_field :
    (ExprKind.field e name).term? = e.term?.bind fun t => some (.field t name) := rfl

@[simp] theorem ExprKind.term?_methodCall : (ExprKind.methodCall e name es).term? =
    e.term?.bind fun t => (terms? es).bind fun args => some (.methodCall t name args) := rfl

@[simp] theorem ExprKind.term?_propagate :
    (ExprKind.propagate e).term? = e.term?.bind fun t => some (.propagate t) := rfl

@[simp] theorem terms?_nil : terms? [] = some [] := rfl

@[simp] theorem terms?_cons :
    terms? (e :: es) = e.term?.bind fun t => (terms? es).bind fun ts => some (t :: ts) := rfl

end

/-- The expression that the operator makes of its operand. -/
def PrefixOp.apply (op : PrefixOp) (operand : Expr) : ExprKind :=
  match op with
  | .neg => .unary .neg operand
  | .not => .unary .not operand
  | .await => .await operand

theorem PrefixOp.term?_apply (op : PrefixOp) (operand : Expr) :
    (op.apply operand).term? = operand.term?.bind fun t => some (.prefixed op t) := by
  cases op <;> rfl

theorem OperatorToken.term?_apply (op : OperatorToken) (left right : Expr) :
    (op.apply left right).term? =
      left.term?.bind fun t => right.term?.bind fun t' => some (.operation op t t') := by
  cases op <;> rfl

namespace Term

/-! ## Tokens -/

mutual

/-- The tokens of these kinds spell the term. -/
inductive Spelled : Term → List TokenKind → Prop where
  | int {value : UInt64} : Spelled (.int value) [.int value]
  | name {name : String} : Spelled (.name name) [.ident name]
  | paren {inner : Term} {ks : List TokenKind} : Spelled inner ks →
      Spelled (.paren inner) (.symbol .leftParen :: (ks ++ [.symbol .rightParen]))
  | call {callee : Term} {args : List Term} {ks ks' : List TokenKind} : Spelled callee ks →
      SpelledArgs args ks' → Spelled (.call callee args) (ks ++ .symbol .leftParen :: ks')
  | index {object index : Term} {ks ks' : List TokenKind} : Spelled object ks →
      Spelled index ks' →
      Spelled (.index object index) (ks ++ .symbol .leftBracket :: (ks' ++ [.symbol .rightBracket]))
  | field {object : Term} {name : String} {ks : List TokenKind} : Spelled object ks →
      Spelled (.field object name) (ks ++ [.symbol .dot, .ident name])
  | methodCall {object : Term} {method : String} {args : List Term} {ks ks' : List TokenKind} :
      Spelled object ks → SpelledArgs args ks' →
      Spelled (.methodCall object method args)
        (ks ++ .symbol .dot :: .ident method :: .symbol .leftParen :: ks')
  | propagate {operand : Term} {ks : List TokenKind} : Spelled operand ks →
      Spelled (.propagate operand) (ks ++ [.symbol .question])
  | prefixed {op : PrefixOp} {operand : Term} {ks : List TokenKind} : Spelled operand ks →
      Spelled (.prefixed op operand) (op.token :: ks)
  | operation {op : OperatorToken} {k : TokenKind} {left right : Term} {ks ks' : List TokenKind} :
      OperatorToken.ofToken? k = some op → Spelled left ks → Spelled right ks' →
      Spelled (.operation op left right) (ks ++ k :: ks')

/-- The tokens of these kinds spell the arguments and the closing parenthesis; a comma may follow
the last argument. -/
inductive SpelledArgs : List Term → List TokenKind → Prop where
  | nil : SpelledArgs [] [.symbol .rightParen]
  | last {arg : Term} {ks : List TokenKind} : Spelled arg ks →
      SpelledArgs [arg] (ks ++ [.symbol .rightParen])
  | cons {arg : Term} {args : List Term} {ks ks' : List TokenKind} : Spelled arg ks →
      SpelledArgs args ks' → SpelledArgs (arg :: args) (ks ++ .symbol .comma :: ks')

end

/-! ## Levels -/

/-- Whether the term can be continued as it is: it is an operand by itself or continued already. -/
def isClosed : Term → Bool
  | .prefixed .. | .operation .. => false
  | _ => true

def isField : Term → Bool
  | .field .. => true
  | _ => false

end Term

/-- The power that the left operand's operators must have. -/
def OperatorToken.leftPower (op : OperatorToken) : Nat :=
  if op.groupsRight then op.power + 1 else op.power

/-- At a level where operators must have the power `m` at least, the term needs no further
parentheses. -/
inductive Term.Canonical : Nat → Term → Prop where
  | int {m : Nat} {value : UInt64} : Canonical m (.int value)
  | name {m : Nat} {name : String} : Canonical m (.name name)
  | paren {m : Nat} {inner : Term} : Canonical 0 inner → Canonical m (.paren inner)
  /-- A field that is called would be a method. -/
  | call {m : Nat} {callee : Term} {args : List Term} : callee.isClosed = true →
      callee.isField = false → Canonical m callee → (∀ arg ∈ args, Canonical 0 arg) →
      Canonical m (.call callee args)
  | index {m : Nat} {object index : Term} : object.isClosed = true → Canonical m object →
      Canonical 0 index → Canonical m (.index object index)
  | field {m : Nat} {object : Term} {name : String} : object.isClosed = true →
      Canonical m object → Canonical m (.field object name)
  | methodCall {m : Nat} {object : Term} {method : String} {args : List Term} :
      object.isClosed = true → Canonical m object → (∀ arg ∈ args, Canonical 0 arg) →
      Canonical m (.methodCall object method args)
  | propagate {m : Nat} {operand : Term} : operand.isClosed = true → Canonical m operand →
      Canonical m (.propagate operand)
  | prefixed {m : Nat} {op : PrefixOp} {operand : Term} : Canonical unaryPower operand →
      Canonical m (.prefixed op operand)
  | operation {m : Nat} {op : OperatorToken} {left right : Term} : m ≤ op.power →
      Canonical op.leftPower left → Canonical op.rightPower right →
      Canonical m (.operation op left right)

mutual

/-- How many levels the reading of the term goes down. -/
def Term.nesting : Term → Nat
  | .int _ | .name _ => 0
  | .paren inner => inner.nesting + 1
  | .call callee args => max callee.nesting (nestingOf args)
  | .index object index => max object.nesting (index.nesting + 1)
  | .field object _ => object.nesting
  | .methodCall object _ args => max object.nesting (nestingOf args)
  | .propagate operand => operand.nesting
  | .prefixed _ operand => operand.nesting + 1
  | .operation _ left right => max left.nesting (right.nesting + 1)

/-- How many levels the reading of arguments goes down. -/
def nestingOf : List Term → Nat
  | [] => 0
  | arg :: args => max (arg.nesting + 1) (nestingOf args)

end

end ActorFrontend
