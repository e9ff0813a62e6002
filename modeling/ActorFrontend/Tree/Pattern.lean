import ActorFrontend.Number.Binary64
import ActorFrontend.Tree.Type

/-!
# Patterns

Patterns take values apart in `let`, `for` and the arms of `match`.
-/

namespace ActorFrontend

/-- A value that is written as a single token. -/
inductive Literal where
  | int (value : UInt64)
  | float (value : Binary64)
  | string (value : String)
  | bool (value : Bool)
  | none
  deriving DecidableEq, Repr

/-- A literal as a node of its own. -/
structure LiteralNode where
  id : NodeId
  span : Span
  value : Literal
  deriving DecidableEq, Repr

mutual

structure Pattern where
  id : NodeId
  span : Span
  kind : PatternKind

inductive PatternKind where
  /-- `_` -/
  | wildcard
  | ident (name : String)
  /-- A path of several parts, such as `Color::Red`. -/
  | path (path : List String)
  | literal (literal : LiteralNode)
  /-- A number with a minus sign before it; the sign and the number make up a node. -/
  | negated (id : NodeId) (span : Span) (number : LiteralNode)
  | tuple (elems : List Pattern)
  /-- `Point { x, y: 0 }` -/
  | struct (path : List String) (fields : List FieldPattern)
  /-- `Some(x)` -/
  | constructor (path : List String) (args : List Pattern)
  /-- Alternatives, none of which is a list of alternatives itself. -/
  | or (alternatives : List Pattern)

/-- A field in a struct pattern; without a pattern it binds its own name. -/
structure FieldPattern where
  name : String
  pattern : Option Pattern
  span : Span

end

mutual

/-- The names that a pattern binds, in source order.  Alternatives bind the same names, so the
first of them stands for all. -/
def Pattern.bindings : Pattern → List String
  | ⟨_, _, kind⟩ => kind.bindings

def PatternKind.bindings : PatternKind → List String
  | .ident name => [name]
  | .tuple elems => bindingsOfAll elems
  | .constructor _ args => bindingsOfAll args
  | .struct _ fields => bindingsOfFields fields
  | .or (first :: _) => first.bindings
  | .or [] | .wildcard | .path _ | .literal _ | .negated .. => []

def bindingsOfAll : List Pattern → List String
  | [] => []
  | p :: ps => p.bindings ++ bindingsOfAll ps

def bindingsOfFields : List FieldPattern → List String
  | [] => []
  | ⟨name, none, _⟩ :: fields => name :: bindingsOfFields fields
  | ⟨_, some p, _⟩ :: fields => p.bindings ++ bindingsOfFields fields

end

end ActorFrontend
