import ActorFrontend.Tree.Item

/-!
# Outlines

The outline of a tree keeps of every node its number, its span and the nodes that it holds.  What
holds of trees of every kind alike is stated of their outlines.
-/

namespace ActorFrontend

/-- A node and what it holds: `parts` in source order, `aside` what may stand anywhere among them.
A node of the tree that has no number of its own has none here. -/
inductive Outline where
  | node (id : Option Nat) (span : Span) (parts aside : List Outline)

namespace Outline

def id : Outline → Option Nat
  | node id _ _ _ => id

def span : Outline → Span
  | node _ span _ _ => span

def parts : Outline → List Outline
  | node _ _ parts _ => parts

def aside : Outline → List Outline
  | node _ _ _ aside => aside

/-- The nodes that a node holds directly. -/
def children (o : Outline) : List Outline := o.parts ++ o.aside

mutual

/-- The node itself and all nodes below it. -/
def nodes : Outline → List Outline
  | node id span parts aside => node id span parts aside :: (nodesOf parts ++ nodesOf aside)

/-- The nodes of several outlines. -/
def nodesOf : List Outline → List Outline
  | [] => []
  | o :: os => o.nodes ++ nodesOf os

end

/-- The numbers of some nodes and of all nodes below them. -/
def idsOf (os : List Outline) : List Nat := (nodesOf os).filterMap Outline.id

end Outline

/-- Data of which a part of a tree is made. -/
class Outlined (α : Type) where
  /-- The topmost nodes of the data, in source order. -/
  outlines : α → List Outline

export Outlined (outlines)

instance {α : Type} [Outlined α] : Outlined (List α) := ⟨fun as => as.flatMap outlines⟩

instance {α : Type} [Outlined α] : Outlined (Option α) := ⟨fun a => a.toList.flatMap outlines⟩

instance {α β : Type} [Outlined α] [Outlined β] : Outlined (α × β) :=
  ⟨fun ab => outlines ab.1 ++ outlines ab.2⟩

/-! ## Types -/

mutual

def TypeExpr.outline : TypeExpr → Outline
  | ⟨id, span, kind⟩ => .node (some id) span kind.parts []

@[simp] def TypeKind.parts : TypeKind → List Outline
  | .named _ args => outlinesOfTypes args
  | .unit => []
  | .tuple elems => outlinesOfTypes elems
  | .array elem _ => [elem.outline]
  | .slice elem => [elem.outline]
  | .function params none => outlinesOfTypes params
  | .function params (some ret) => outlinesOfTypes params ++ [ret.outline]
  | .pointer _ pointee => [pointee.outline]
  | .traitObject bounds => outlinesOfBounds bounds

def Bound.outline : Bound → Outline
  | ⟨_, args, span⟩ => .node none span (outlinesOfTypes args) []

def outlinesOfTypes : List TypeExpr → List Outline
  | [] => []
  | t :: ts => t.outline :: outlinesOfTypes ts

def outlinesOfBounds : List Bound → List Outline
  | [] => []
  | b :: bs => b.outline :: outlinesOfBounds bs

end

mutual

def Pattern.outline : Pattern → Outline
  | ⟨id, span, kind⟩ => .node (some id) span kind.parts []

@[simp] def PatternKind.parts : PatternKind → List Outline
  | .literal l => [.node (some l.id) l.span [] []]
  | .negated id span number =>
      [.node (some id) span [.node (some number.id) number.span [] []] []]
  | .tuple elems => outlinesOfPatterns elems
  | .struct _ fields => outlinesOfFieldPatterns fields
  | .constructor _ args => outlinesOfPatterns args
  | .or alternatives => outlinesOfPatterns alternatives
  | .wildcard | .ident _ | .path _ => []

def FieldPattern.outline : FieldPattern → Outline
  | ⟨_, none, span⟩ => .node none span [] []
  | ⟨_, some p, span⟩ => .node none span [p.outline] []

def outlinesOfPatterns : List Pattern → List Outline
  | [] => []
  | p :: ps => p.outline :: outlinesOfPatterns ps

def outlinesOfFieldPatterns : List FieldPattern → List Outline
  | [] => []
  | f :: fs => f.outline :: outlinesOfFieldPatterns fs

end

instance : Outlined TypeExpr := ⟨fun t => [t.outline]⟩

instance : Outlined LambdaParam := ⟨fun p => [.node none p.span (outlines p.type) []]⟩

mutual

def Expr.outline : Expr → Outline
  | ⟨id, span, kind⟩ => .node (some id) span kind.parts kind.aside

@[simp] def ExprKind.parts : ExprKind → List Outline
  | .interpolated parts => outlinesOfStringParts parts
  | .binary _ left right => [left.outline, right.outline]
  | .range start stop _ => [start.outline, stop.outline]
  | .unary _ operand => [operand.outline]
  | .await operand => [operand.outline]
  | .call function args => function.outline :: outlinesOfExprs args
  | .methodCall object _ args => object.outline :: outlinesOfExprs args
  | .field object _ => [object.outline]
  | .index object index => [object.outline, index.outline]
  | .propagate operand => [operand.outline]
  | .structLiteral _ fields => outlinesOfFieldInits fields
  | .array elems => outlinesOfExprs elems
  | .arrayRepeat value count => [value.outline, count.outline]
  | .tuple elems => outlinesOfExprs elems
  | .paren inner => [inner.outline]
  | .block block => [block.outline]
  | .ifElse cond thenBranch none => [cond.outline, thenBranch.outline]
  | .ifElse cond thenBranch (some elseBranch) =>
      [cond.outline, thenBranch.outline, elseBranch.outline]
  | .matchWith scrutinee arms => scrutinee.outline :: outlinesOfMatchArms arms
  | .lambda lambda => lambda.parts
  | .spawnActor _ typeArgs args => outlines typeArgs ++ outlinesOfExprs args
  | .spawnLambda lambda => lambda.parts
  | .select _ arms _ => outlinesOfSelectArms arms
  | .join elems => outlinesOfExprs elems
  | .scope block => [block.outline]
  | .scopeLaunch block => [block.outline]
  | .yieldValue value => [value.outline]
  | .tryCatch body none => [body.outline]
  | .tryCatch body (some clause) => [body.outline, clause.outline]
  | .unsafeBlock block => [block.outline]
  | .literal _ | .duration _ | .ident _ | .selfValue | .path _ | .scopeCancel | .scopeIsCancelled
  | .cooperate => []

/-- The timeout of a `select` may stand before, between and behind the arms. -/
def ExprKind.aside : ExprKind → List Outline
  | .select _ _ (some timeout) => [timeout.outline]
  | _ => []

def Lambda.parts : Lambda → List Outline
  | ⟨_, params, ret, body⟩ => outlines params ++ outlines ret ++ [body.outline]

def FieldInit.outline : FieldInit → Outline
  | ⟨_, value, span⟩ => .node none span [value.outline] []

def MatchArm.outline : MatchArm → Outline
  | ⟨pattern, none, body, span⟩ => .node none span [pattern.outline, body.outline] []
  | ⟨pattern, some guard, body, span⟩ =>
      .node none span [pattern.outline, guard.outline, body.outline] []

def SelectArm.outline : SelectArm → Outline
  | ⟨_, source, body, span⟩ => .node none span [source.outline, body.outline] []

def TimeoutArm.outline : TimeoutArm → Outline
  | ⟨duration, body, span⟩ => .node none span [duration.outline, body.outline] []

def CatchClause.outline : CatchClause → Outline
  | ⟨_, handler, span⟩ => .node none span [handler.outline] []

def Block.outline : Block → Outline
  | ⟨stmts, span⟩ => .node none span (outlinesOfStmts stmts) []

def Stmt.outline : Stmt → Outline
  | ⟨id, span, kind⟩ => .node (some id) span kind.parts []

@[simp] def StmtKind.parts : StmtKind → List Outline
  | .letBinding pattern type init => pattern.outline :: outlines type ++ [init.outline]
  | .varBinding _ type init => outlines type ++ [init.outline]
  | .assign target _ value => [target.outline, value.outline]
  | .forIn _ _ pattern iter body => [pattern.outline, iter.outline, body.outline]
  | .whileLoop _ cond body => [cond.outline, body.outline]
  | .loop _ body => [body.outline]
  | .breakLoop _ (some value) => [value.outline]
  | .returnValue (some value) => [value.outline]
  | .block block => [block.outline]
  | .expr expr _ => [expr.outline]
  | .breakLoop _ none | .continueLoop _ | .returnValue none => []

def outlinesOfExprs : List Expr → List Outline
  | [] => []
  | e :: es => e.outline :: outlinesOfExprs es

def outlinesOfStringParts : List StringPart → List Outline
  | [] => []
  | .text _ :: parts => outlinesOfStringParts parts
  | .expr e :: parts => e.outline :: outlinesOfStringParts parts

def outlinesOfFieldInits : List FieldInit → List Outline
  | [] => []
  | f :: fs => f.outline :: outlinesOfFieldInits fs

def outlinesOfMatchArms : List MatchArm → List Outline
  | [] => []
  | a :: as => a.outline :: outlinesOfMatchArms as

def outlinesOfSelectArms : List SelectArm → List Outline
  | [] => []
  | a :: as => a.outline :: outlinesOfSelectArms as

def outlinesOfStmts : List Stmt → List Outline
  | [] => []
  | s :: ss => s.outline :: outlinesOfStmts ss

end

instance : Outlined Bound := ⟨fun b => [b.outline]⟩

instance : Outlined TypeParam := ⟨fun p => [.node none p.span (outlines p.bounds) []]⟩

instance : Outlined WherePredicate :=
  ⟨fun p => [.node none p.span (outlines p.type ++ outlines p.bounds) []]⟩

instance : Outlined LiteralNode := ⟨fun l => [.node (some l.id) l.span [] []]⟩

instance : Outlined Pattern := ⟨fun p => [p.outline]⟩

instance : Outlined FieldPattern := ⟨fun f => [f.outline]⟩

instance : Outlined Expr := ⟨fun e => [e.outline]⟩

instance : Outlined StringPart := ⟨fun
  | .text _ => []
  | .expr e => [e.outline]⟩

instance : Outlined FieldInit := ⟨fun f => [f.outline]⟩

instance : Outlined MatchArm := ⟨fun a => [a.outline]⟩

instance : Outlined Lambda := ⟨Lambda.parts⟩

instance : Outlined SelectArm := ⟨fun a => [a.outline]⟩

instance : Outlined TimeoutArm := ⟨fun a => [a.outline]⟩

instance : Outlined CatchClause := ⟨fun c => [c.outline]⟩

instance : Outlined Block := ⟨fun b => [b.outline]⟩

instance : Outlined Stmt := ⟨fun s => [s.outline]⟩

/-! ## The outlines of compound data -/

section

variable {α : Type} [Outlined α]

@[simp] theorem outlines_nil : outlines ([] : List α) = [] := rfl

@[simp] theorem outlines_cons (a : α) (as : List α) :
    outlines (a :: as) = outlines a ++ outlines as := rfl

@[simp] theorem outlines_append (as as' : List α) :
    outlines (as ++ as') = outlines as ++ outlines as' :=
  List.flatMap_append

@[simp] theorem outlines_none : outlines (none : Option α) = [] := rfl

@[simp] theorem outlines_some (a : α) : outlines (some a) = outlines a := by
  simp [outlines]

end

@[simp] theorem outlinesOfTypes_eq (ts : List TypeExpr) : outlinesOfTypes ts = outlines ts := by
  induction ts with
  | nil => rfl
  | cons t ts ih => rw [outlinesOfTypes, ih]; rfl

@[simp] theorem outlinesOfBounds_eq (bs : List Bound) : outlinesOfBounds bs = outlines bs := by
  induction bs with
  | nil => rfl
  | cons b bs ih => rw [outlinesOfBounds, ih]; rfl

@[simp] theorem outlinesOfPatterns_eq (ps : List Pattern) :
    outlinesOfPatterns ps = outlines ps := by
  induction ps with
  | nil => rfl
  | cons p ps ih => rw [outlinesOfPatterns, ih]; rfl

@[simp] theorem outlinesOfFieldPatterns_eq (fs : List FieldPattern) :
    outlinesOfFieldPatterns fs = outlines fs := by
  induction fs with
  | nil => rfl
  | cons f fs ih => rw [outlinesOfFieldPatterns, ih]; rfl

@[simp] theorem outlinesOfExprs_eq (es : List Expr) : outlinesOfExprs es = outlines es := by
  induction es with
  | nil => rfl
  | cons e es ih => rw [outlinesOfExprs, ih]; rfl

@[simp] theorem outlinesOfStringParts_eq (parts : List StringPart) :
    outlinesOfStringParts parts = outlines parts := by
  induction parts with
  | nil => rfl
  | cons part parts ih => cases part <;> rw [outlinesOfStringParts, ih] <;> rfl

@[simp] theorem outlinesOfFieldInits_eq (fs : List FieldInit) :
    outlinesOfFieldInits fs = outlines fs := by
  induction fs with
  | nil => rfl
  | cons f fs ih => rw [outlinesOfFieldInits, ih]; rfl

@[simp] theorem outlinesOfMatchArms_eq (as : List MatchArm) :
    outlinesOfMatchArms as = outlines as := by
  induction as with
  | nil => rfl
  | cons a as ih => rw [outlinesOfMatchArms, ih]; rfl

@[simp] theorem outlinesOfSelectArms_eq (as : List SelectArm) :
    outlinesOfSelectArms as = outlines as := by
  induction as with
  | nil => rfl
  | cons a as ih => rw [outlinesOfSelectArms, ih]; rfl

@[simp] theorem outlinesOfStmts_eq (ss : List Stmt) : outlinesOfStmts ss = outlines ss := by
  induction ss with
  | nil => rfl
  | cons s ss ih => rw [outlinesOfStmts, ih]; rfl

/-! ## Declarations -/

instance : Outlined FieldDecl := ⟨fun f => [.node none f.span (outlines f.type) []]⟩

instance : Outlined VariantKind := ⟨fun
  | .unit => []
  | .tuple types => outlines types
  | .struct fields => outlines fields⟩

instance : Outlined Variant := ⟨fun v => [.node none v.span (outlines v.kind) []]⟩

instance : Outlined WireAttr := ⟨fun
  | .default value => outlines value
  | .optional | .deprecated | .reserved _ => []⟩

instance : Outlined WireField := ⟨fun f => [.node none f.span (outlines f.attrs) []]⟩

instance : Outlined WireMember := ⟨fun
  | .field f => outlines f
  | .variant v => outlines v
  | .reserved _ span => [.node none span [] []]⟩

instance : Outlined Param := ⟨fun p => [.node none p.span (outlines p.type) []]⟩

instance : Outlined FnDecl := ⟨fun f => [.node none f.span
  (outlines f.typeParams ++ outlines f.params ++ outlines f.ret ++ outlines f.whereClause ++
    outlines f.body) []]⟩

instance : Outlined ExternFn :=
  ⟨fun f => [.node none f.span (outlines f.params ++ outlines f.ret) []]⟩

instance : Outlined TraitItem := ⟨fun
  | .method fn => outlines fn
  | .assocType _ bounds default span =>
      [.node none span (outlines bounds ++ outlines default) []]⟩

instance : Outlined ImplItem := ⟨fun
  | .method fn => outlines fn
  | .assocType _ type span => [.node none span (outlines type) []]⟩

instance : Outlined ActorInit :=
  ⟨fun i => [.node none i.span (outlines i.params ++ outlines i.body) []]⟩

instance : Outlined ActorMember := ⟨fun
  | .field _ _ type init span => [.node none span (outlines type ++ outlines init) []]
  | .mailbox mailbox => [.node none mailbox.span [] []]
  | .receive fn => outlines fn
  | .method fn => outlines fn⟩

instance : Outlined SupervisorMember := ⟨fun
  | .child child => [.node none child.span [] []]
  | .field _ value span => [.node none span (outlines value) []]⟩

@[simp] def ItemKind.parts : ItemKind → List Outline
  | .importDecl _ => []
  | .const d => outlines d.type ++ outlines d.value
  | .typeAlias d => outlines d.typeParams ++ outlines d.type
  | .struct d => outlines d.typeParams ++ outlines d.whereClause ++ outlines d.fields
  | .enum d => outlines d.typeParams ++ outlines d.whereClause ++ outlines d.variants
  | .wire d => outlines d.members
  | .trait d =>
      outlines d.typeParams ++ outlines d.supertraits ++ outlines d.whereClause ++
        outlines d.items
  | .impl d =>
      outlines d.typeParams ++ outlines d.traitRef ++ outlines d.selfType ++
        outlines d.whereClause ++ outlines d.items
  | .fn d => outlines d
  | .externBlock d => outlines d.fns
  | .actor d =>
      outlines d.typeParams ++ outlines d.bounds ++ outlines d.whereClause ++ outlines d.members
  | .supervisor d => outlines d.members

/-- The `init` block of an actor may stand before, between and behind the members. -/
def ItemKind.aside : ItemKind → List Outline
  | .actor d => outlines d.init
  | _ => []

instance : Outlined Item :=
  ⟨fun i => [.node (some i.id) i.span i.kind.parts i.kind.aside]⟩

def Program.outline (p : Program) : Outline := .node none p.span (outlines p.items) []

end ActorFrontend
