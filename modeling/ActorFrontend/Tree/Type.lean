import ActorFrontend.Source.Span

/-!
# Types as written

The types that a source names, and the bounds that it puts on type parameters.
-/

namespace ActorFrontend

/-- The number of a node.  Numbers are given out in the order in which nodes are finished. -/
abbrev NodeId := Nat

/-- What a pointer type says about writing through it. -/
inductive PointerMutability where
  | const
  | mut
  deriving DecidableEq, Repr

mutual

/-- A type as written in the source. -/
structure TypeExpr where
  id : NodeId
  span : Span
  kind : TypeKind

inductive TypeKind where
  /-- A name with its arguments, such as `store::Map<K>`; primitive types are names as well. -/
  | named (path : List String) (args : List TypeExpr)
  | unit
  | tuple (elems : List TypeExpr)
  /-- `[T; n]` -/
  | array (elem : TypeExpr) (length : UInt64)
  /-- `[T]` -/
  | slice (elem : TypeExpr)
  /-- `fn(A, B) -> R` -/
  | function (params : List TypeExpr) (ret : Option TypeExpr)
  /-- `*const T`, `*mut T` or `*T` -/
  | pointer (mutability : Option PointerMutability) (pointee : TypeExpr)
  /-- `dyn A` or `dyn (A + B)` -/
  | traitObject (bounds : List Bound)

/-- A trait with its arguments, as an entry of a list of bounds. -/
structure Bound where
  name : String
  args : List TypeExpr
  span : Span

end

/-- A type parameter with its bounds. -/
structure TypeParam where
  name : String
  bounds : List Bound
  span : Span

/-- An entry of a `where` clause. -/
structure WherePredicate where
  type : TypeExpr
  bounds : List Bound
  span : Span

/-- The last part of a named type's path. -/
def TypeExpr.name? (t : TypeExpr) : Option String :=
  match t.kind with
  | .named path _ => path.getLast?
  | _ => none

end ActorFrontend
