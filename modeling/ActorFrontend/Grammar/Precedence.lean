import ActorFrontend.Token.Basic
import ActorFrontend.Tree.Expr

/-!
# Precedence

Operators bind their operands with a power; the higher power wins an operand that stands between
two operators.  An operator that groups to the left asks for a higher power on its right, one
that groups to the right for the same.
-/

namespace ActorFrontend

/-- What stands between two operands. -/
inductive OperatorToken where
  | binary (op : BinaryOp)
  | range (inclusive : Bool)
  deriving DecidableEq, Repr

namespace OperatorToken

/-- The operator that a token is, between two operands. -/
def ofToken? : TokenKind → Option OperatorToken
  | .symbol .plus => some (.binary .add)
  | .symbol .minus => some (.binary .sub)
  | .symbol .star => some (.binary .mul)
  | .symbol .slash => some (.binary .div)
  | .symbol .percent => some (.binary .mod)
  | .symbol .eqEq => some (.binary .eq)
  | .symbol .bangEq => some (.binary .ne)
  | .symbol .lt => some (.binary .lt)
  | .symbol .gt => some (.binary .gt)
  | .symbol .ltEq => some (.binary .le)
  | .symbol .gtEq => some (.binary .ge)
  | .symbol .ampAmp | .keyword .andKw => some (.binary .and)
  | .symbol .pipePipe | .keyword .orKw => some (.binary .or)
  | .symbol .leftArrow => some (.binary .send)
  | .symbol .dotDot => some (.range false)
  | .symbol .dotDotEq => some (.range true)
  | _ => none

/-- How tightly the operator binds. -/
def power : OperatorToken → Nat
  | .binary .send => 1
  | .binary .or => 3
  | .binary .and => 5
  | .binary .eq | .binary .ne => 7
  | .binary .lt | .binary .gt | .binary .le | .binary .ge => 9
  | .range _ => 11
  | .binary .add | .binary .sub => 13
  | .binary .mul | .binary .div | .binary .mod => 15

/-- Whether of two such operators in a row the second one is applied first. -/
def groupsRight : OperatorToken → Bool
  | .binary .send | .range _ => true
  | _ => false

/-- The power that the right operand's operators must have. -/
def rightPower (op : OperatorToken) : Nat := if op.groupsRight then op.power else op.power + 1

/-- The expression that the operator makes of its operands. -/
def apply (op : OperatorToken) (left right : Expr) : ExprKind :=
  match op with
  | .binary op => .binary op left right
  | .range inclusive => .range left right inclusive

end OperatorToken

/-- The power of the operators before an operand. -/
def unaryPower : Nat := 17

/-- The power with which a token binds that continues an expression to its left. -/
def continuationPower? : TokenKind → Option Nat
  | .symbol .leftParen | .symbol .leftBracket | .symbol .question => some 19
  | .symbol .dot => some 20
  | _ => none

end ActorFrontend
