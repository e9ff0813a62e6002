import ActorFrontend.Grammar.Error
import ActorFrontend.Tree.Type

/-!
# The state of a reading

What is left of the token sequence and what has been found so far.  White space and comments are
taken out beforehand; of the line breaks among them only this is kept, that one stands before a
token.
-/

namespace ActorFrontend

/-- A significant token. -/
structure Lexeme where
  token : Token
  /-- Whether a line break stands between the token before and this one. -/
  afterLineBreak : Bool

/-- The significant tokens of a token sequence, up to the end of the file.  `lineBreak` tells
whether a line break has been passed since the token before. -/
def Lexeme.significant (lineBreak : Bool) : List Token → List Lexeme
  | [] => []
  | t :: ts =>
      if t.isTrivia then significant (lineBreak || t.hasLineBreak) ts
      else if t.kind.isEndOfFile then []
      else ⟨t, lineBreak⟩ :: significant false ts

/-- The limits of a reading. -/
structure Limits where
  /-- How many errors are recorded before the reading gives up. -/
  maxErrors : Nat
  /-- How deep expressions, blocks, types and patterns may nest. -/
  maxDepth : Nat
  deriving DecidableEq, Repr

namespace Limits

def standard : Limits := ⟨20, 256⟩

/-- One error at least is recorded. -/
def withMaxErrors (n : Nat) (l : Limits) : Limits := { l with maxErrors := max n 1 }

def withMaxDepth (n : Nat) (l : Limits) : Limits := { l with maxDepth := n }

end Limits

/-- Which forms of expression are possible at a place. -/
structure Context where
  /-- `Name {` may start a struct literal.  It opens the block that follows the condition of an
  `if` or `while`, the subject of a `match` and the iterable of a `for`. -/
  structLiterals : Bool
  /-- `(…) =>` may start a lambda.  In a guard, and in the source of an arm, the arrow belongs to
  the arm. -/
  lambdas : Bool
  deriving DecidableEq, Repr

/-- Every form is possible, as it is inside brackets. -/
def Context.anything : Context := ⟨true, true⟩

/-- What does not change during a reading. -/
structure Setting where
  limits : Limits
  /-- Where the input ends. -/
  endOfInput : Span

/-- A point in a reading. -/
structure State where
  /-- The tokens still to be read. -/
  rest : List Lexeme
  /-- Where the token read last ends; before the first one is read, where that starts. -/
  previousEnd : Nat
  context : Context
  /-- How many nested constructs have been entered. -/
  depth : Nat
  /-- The number that the next finished node gets. -/
  nextId : NodeId
  /-- The errors recorded, in the order in which they were found. -/
  errors : List ParseError
  /-- Set once as many errors have been recorded as the limits allow; nothing more is. -/
  halted : Bool

namespace State

/-- A reading that is to start. -/
def initial (setting : Setting) (rest : List Lexeme) : State :=
  { rest
    previousEnd := match rest with
      | [] => setting.endOfInput.start
      | lexeme :: _ => lexeme.token.span.start
    context := .anything
    depth := 0
    nextId := 0
    errors := []
    halted := false }

/-- The kind of the token at hand. -/
def kind (s : State) : TokenKind :=
  match s.rest with
  | [] => .endOfFile
  | lexeme :: _ => lexeme.token.kind

/-- The kind of the token `n` places further on. -/
def peek (s : State) (n : Nat) : TokenKind :=
  match s.rest[n]? with
  | none => .endOfFile
  | some lexeme => lexeme.token.kind

/-- The place of the token at hand. -/
def span (setting : Setting) (s : State) : Span :=
  match s.rest with
  | [] => setting.endOfInput
  | lexeme :: _ => lexeme.token.span

/-- The text of the token at hand. -/
def text (s : State) : String :=
  match s.rest with
  | [] => ""
  | lexeme :: _ => lexeme.token.text

def afterLineBreak (s : State) : Bool :=
  match s.rest with
  | [] => false
  | lexeme :: _ => lexeme.afterLineBreak

/-- Whether all tokens have been read. -/
def atEnd (s : State) : Bool := s.rest.isEmpty

/-- Passes over the token at hand; the end cannot be passed. -/
def advance (s : State) : State :=
  match s.rest with
  | [] => s
  | lexeme :: rest => { s with rest, previousEnd := lexeme.token.span.stop }

/-- The error for a token at hand in place of what was wanted. -/
def expectedError (setting : Setting) (wanted : Expected) (s : State) : ParseError :=
  ⟨.expected wanted s.kind, s.span setting⟩

/-- Records an error, unless as many have been recorded as the limits allow. -/
def record (setting : Setting) (error : ParseError) (s : State) : State :=
  if s.halted then s
  else
    let errors := s.errors ++ [error]
    { s with errors, halted := decide (setting.limits.maxErrors ≤ errors.length) }

end State

end ActorFrontend
