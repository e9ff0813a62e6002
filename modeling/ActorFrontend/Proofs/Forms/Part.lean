import ActorFrontend.Grammar.Expressions
import ActorFrontend.Tree.Item
import Mathlib.Data.List.Chain

/-!
# The parts of a program

A declaration is made up of parts of nine sorts, which are made up of such parts themselves.  What the
syntax tree promises of the form of a part, and of the expressions that stand at its head, is a property
of that part and of what it is directly made up of.
-/

namespace ActorFrontend

/-- A part of a program, of one of the sorts of which something is said here. -/
inductive Part where
  | type (type : TypeExpr)
  | predicate (predicate : WherePredicate)
  | pattern (pattern : Pattern)
  | expr (expr : Expr)
  | block (block : Block)
  | stmt (stmt : Stmt)
  | param (param : Param)
  | function (fn : FnDecl)
  | item (item : Item)

/-- Data that is made up of parts. -/
class Composed (α : Type) where
  /-- The parts that the data is directly made up of. -/
  components : α → List Part

export Composed (components)

instance {α : Type} [Composed α] : Composed (List α) := ⟨fun as => as.flatMap components⟩

instance {α : Type} [Composed α] : Composed (Option α) := ⟨fun a => a.toList.flatMap components⟩

instance {α β : Type} [Composed α] [Composed β] : Composed (α × β) :=
  ⟨fun ab => components ab.1 ++ components ab.2⟩

/-! ## Types and patterns -/

instance : Composed TypeExpr := ⟨fun t => [.type t]⟩

instance : Composed Bound := ⟨fun b => components b.args⟩

instance : Composed TypeParam := ⟨fun p => components p.bounds⟩

instance : Composed WherePredicate := ⟨fun p => [.predicate p]⟩

instance : Composed Pattern := ⟨fun p => [.pattern p]⟩

instance : Composed FieldPattern := ⟨fun f => components f.pattern⟩

@[simp] def TypeKind.contents : TypeKind → List Part
  | .named _ args => components args
  | .unit => []
  | .tuple elems => components elems
  | .array elem _ | .slice elem => components elem
  | .function params ret => components params ++ components ret
  | .pointer _ pointee => components pointee
  | .traitObject bounds => components bounds

@[simp] def PatternKind.contents : PatternKind → List Part
  | .tuple elems => components elems
  | .struct _ fields => components fields
  | .constructor _ args => components args
  | .or alternatives => components alternatives
  | .wildcard | .ident _ | .path _ | .literal _ | .negated .. => []

/-! ## Expressions and statements -/

instance : Composed Expr := ⟨fun e => [.expr e]⟩

instance : Composed Block := ⟨fun b => [.block b]⟩

instance : Composed Stmt := ⟨fun s => [.stmt s]⟩

instance : Composed StringPart := ⟨fun
  | .text _ => []
  | .expr e => components e⟩

instance : Composed FieldInit := ⟨fun f => components f.value⟩

instance : Composed MatchArm := ⟨fun a => components a.pattern ++ components a.guard ++ components a.body⟩

instance : Composed LambdaParam := ⟨fun p => components p.type⟩

instance : Composed Lambda := ⟨fun l => components l.params ++ components l.ret ++ components l.body⟩

instance : Composed SelectArm := ⟨fun a => components a.source ++ components a.body⟩

instance : Composed TimeoutArm := ⟨fun a => components a.duration ++ components a.body⟩

instance : Composed CatchClause := ⟨fun c => components c.handler⟩

@[simp] def ExprKind.contents : ExprKind → List Part
  | .interpolated fragments => components fragments
  | .binary _ left right => components left ++ components right
  | .range start stop _ => components start ++ components stop
  | .unary _ operand | .await operand | .propagate operand => components operand
  | .call function args => components function ++ components args
  | .methodCall object _ args => components object ++ components args
  | .field object _ => components object
  | .index object i => components object ++ components i
  | .structLiteral _ fields => components fields
  | .array elems | .tuple elems | .join elems => components elems
  | .arrayRepeat value count => components value ++ components count
  | .paren inner => components inner
  | .block b | .scope b | .scopeLaunch b | .unsafeBlock b => components b
  | .ifElse cond thenBranch elseBranch =>
      components cond ++ components thenBranch ++ components elseBranch
  | .matchWith scrutinee arms => components scrutinee ++ components arms
  | .lambda l | .spawnLambda l => components l
  | .spawnActor _ typeArgs args => components typeArgs ++ components args
  | .select _ arms timeout => components arms ++ components timeout
  | .yieldValue value => components value
  | .tryCatch body clause => components body ++ components clause
  | .literal _ | .duration _ | .ident _ | .selfValue | .path _ | .scopeCancel | .scopeIsCancelled
  | .cooperate => []

@[simp] def StmtKind.contents : StmtKind → List Part
  | .letBinding pattern type init =>
      components pattern ++ components type ++ components init
  | .varBinding _ type init => components type ++ components init
  | .assign target _ value => components target ++ components value
  | .forIn _ _ pattern iter body => components pattern ++ components iter ++ components body
  | .whileLoop _ cond body => components cond ++ components body
  | .loop _ body | .block body => components body
  | .breakLoop _ value | .returnValue value => components value
  | .continueLoop _ => []
  | .expr e _ => components e

/-! ## Declarations -/

instance : Composed FieldDecl := ⟨fun f => components f.type⟩

instance : Composed VariantKind := ⟨fun
  | .unit => []
  | .tuple types => components types
  | .struct fields => components fields⟩

instance : Composed Variant := ⟨fun v => components v.kind⟩

instance : Composed WireAttr := ⟨fun
  | .default value => components value
  | .optional | .deprecated | .reserved _ => []⟩

instance : Composed WireField := ⟨fun f => components f.attrs⟩

instance : Composed WireMember := ⟨fun
  | .field f => components f
  | .variant v => components v
  | .reserved _ _ => []⟩

instance : Composed Param := ⟨fun p => [.param p]⟩

instance : Composed FnDecl := ⟨fun f => [.function f]⟩

instance : Composed ExternFn := ⟨fun f => components f.params ++ components f.ret⟩

instance : Composed TraitItem := ⟨fun
  | .method fn => components fn
  | .assocType _ bounds default _ => components bounds ++ components default⟩

instance : Composed ImplItem := ⟨fun
  | .method fn => components fn
  | .assocType _ type _ => components type⟩

instance : Composed ActorInit := ⟨fun i => components i.params ++ components i.body⟩

instance : Composed ActorMember := ⟨fun
  | .field _ _ type init _ => components type ++ components init
  | .mailbox _ => []
  | .receive fn | .method fn => components fn⟩

instance : Composed SupervisorMember := ⟨fun
  | .child _ => []
  | .field _ value _ => components value⟩

@[simp] def ItemKind.contents : ItemKind → List Part
  | .importDecl _ => []
  | .const d => components d.type ++ components d.value
  | .typeAlias d => components d.typeParams ++ components d.type
  | .struct d => components d.typeParams ++ components d.whereClause ++ components d.fields
  | .enum d => components d.typeParams ++ components d.whereClause ++ components d.variants
  | .wire d => components d.members
  | .trait d =>
      components d.typeParams ++ components d.supertraits ++ components d.whereClause ++
        components d.items
  | .impl d =>
      components d.typeParams ++ components d.traitRef ++ components d.selfType ++
        components d.whereClause ++ components d.items
  | .fn d => components d
  | .externBlock d => components d.fns
  | .actor d =>
      components d.typeParams ++ components d.bounds ++ components d.whereClause ++
        components d.init ++ components d.members
  | .supervisor d => components d.members

instance : Composed Item := ⟨fun i => [.item i]⟩

instance : Composed Program := ⟨fun p => components p.items⟩

/-! ## Parts of parts -/

/-- The parts that a part is directly made up of. -/
def Part.children : Part → List Part
  | .type t => t.kind.contents
  | .predicate p => components p.type ++ components p.bounds
  | .pattern p => p.kind.contents
  | .expr e => e.kind.contents
  | .block b => components b.stmts
  | .stmt s => s.kind.contents
  | .param p => components p.type
  | .function f =>
      components f.typeParams ++ components f.params ++ components f.ret ++
        components f.whereClause ++ components f.body
  | .item i => i.kind.contents

/-- The one part stands in the other one, at any depth, or is that part itself. -/
inductive Part.Within : Part → Part → Prop where
  | self (p : Part) : Within p p
  | inside {p q r : Part} (hq : q ∈ p.children) (h : Within r q) : Within r p

/-- The part stands somewhere in the program. -/
def Program.Has (program : Program) (part : Part) : Prop := ∃ p ∈ components program, part.Within p

/-! ## The shapes of parts -/

def Literal.isNumber : Literal → Bool
  | .int _ | .float _ => true
  | .string _ | .bool _ | .none => false

def PatternKind.isOr : PatternKind → Bool
  | .or _ => true
  | _ => false

/-- What a pattern looks like: of alternatives there are two at least, none of them a list of
alternatives; a path has two parts at least; behind a minus sign stands a number. -/
def PatternKind.Shaped : PatternKind → Prop
  | .or alternatives => 2 ≤ alternatives.length ∧ ∀ p ∈ alternatives, p.kind.isOr = false
  | .path segments => 2 ≤ segments.length
  | .negated _ _ number => number.value.isNumber = true
  | _ => True

/-- No tuple and no list of bounds is empty. -/
def TypeKind.Shaped : TypeKind → Prop
  | .tuple elems => elems ≠ []
  | .traitObject bounds => bounds ≠ []
  | _ => True

/-- The text that the part of a string consists of, if it is no expression. -/
def StringPart.text? : StringPart → Option String
  | .text value => some value
  | .expr _ => none

/-- Of what stands between them, texts are not empty and do not stand next to each other. -/
structure TextsApart (texts : List (Option String)) : Prop where
  nonempty : ∀ value, some value ∈ texts → value ≠ ""
  apart : texts.IsChain fun a b => a = none ∨ b = none

def ExprKind.isIfElse : ExprKind → Bool
  | .ifElse .. => true
  | _ => false

def ExprKind.isBlock : ExprKind → Bool
  | .block _ => true
  | _ => false

/-- What an expression looks like: a path has two parts at least, an `else` branch is another `if` or
a block, the texts in a string stand apart, and something is joined. -/
def ExprKind.Shaped : ExprKind → Prop
  | .path segments => 2 ≤ segments.length
  | .ifElse _ _ (some e) => (e.kind.isIfElse || e.kind.isBlock) = true
  | .interpolated fragments => TextsApart (fragments.map StringPart.text?)
  | .join elems => elems ≠ []
  | _ => True

/-- An expression without a semicolon that does not end in a block. -/
def StmtKind.isOpen : StmtKind → Bool
  | .expr e hasSemicolon => !hasSemicolon && !e.isBlockLike
  | _ => false

def WireAttr.Shaped : WireAttr → Prop
  | .reserved tags => tags ≠ []
  | _ => True

def WireMember.Shaped : WireMember → Prop
  | .field f => ∀ attr ∈ f.attrs, attr.Shaped
  | .variant _ => True
  | .reserved tags _ => tags ≠ []

def ImportSpec.Shaped : ImportSpec → Prop
  | .names imported => imported ≠ []
  | .whole | .glob => True

def ImplItem.Shaped : ImplItem → Prop
  | .method fn => fn.body.isSome = true
  | .assocType .. => True

def ActorMember.Shaped : ActorMember → Prop
  | .receive fn | .method fn => fn.body.isSome = true
  | .field .. | .mailbox _ => True

/-- What a declaration looks like: no list of imported names or of reserved tags is empty, and
functions have bodies, but for the methods of a trait. -/
def ItemKind.Shaped : ItemKind → Prop
  | .importDecl d => d.spec.Shaped
  | .wire d => ∀ m ∈ d.members, m.Shaped
  | .fn d => d.body.isSome = true
  | .impl d => ∀ i ∈ d.items, i.Shaped
  | .actor d => ∀ m ∈ d.members, m.Shaped
  | _ => True

/-- What the syntax tree promises of the form of a part.  That of literal patterns is built into the
type of patterns. -/
def Part.Shaped : Part → Prop
  | .type t => t.kind.Shaped
  | .predicate p => p.bounds ≠ []
  | .pattern p => p.kind.Shaped
  | .expr e => e.kind.Shaped
  | .block b => ∀ s ∈ b.stmts.dropLast, s.kind.isOpen = false
  | .stmt _ => True
  | .param p => p.type = none → p.name = "self"
  | .function f => f.flavor.isGenerator = true → f.ret.isSome = true
  | .item i => i.kind.Shaped

/-! ## What stands at the head of a part -/

/-- The expressions that an expression is made up of without brackets around them: those in
parentheses, in indices and arguments, in blocks and arms, among elements and fields and in strings
are left out. -/
def ExprKind.bare : ExprKind → List Expr
  | .binary _ left right => [left, right]
  | .range start stop _ => [start, stop]
  | .unary _ operand | .await operand | .propagate operand => [operand]
  | .call function _ => [function]
  | .methodCall object _ _ | .field object _ | .index object _ => [object]
  | .ifElse cond _ elseBranch => cond :: elseBranch.toList
  | .matchWith scrutinee _ => [scrutinee]
  | .lambda l | .spawnLambda l => [l.body]
  | .yieldValue value => [value]
  | _ => []

/-- The one expression stands in the other one with no brackets in between, or is that expression
itself. -/
inductive Expr.Bare : Expr → Expr → Prop where
  | self (e : Expr) : Bare e e
  | inside {e e' r : Expr} (he : e' ∈ e.kind.bare) (h : Bare r e') : Bare r e

def ExprKind.isStructLiteral : ExprKind → Bool
  | .structLiteral .. => true
  | _ => false

/-- A lambda without `move`.  A lambda behind `spawn` is a form of its own. -/
def ExprKind.isPlainLambda : ExprKind → Bool
  | .lambda l => !l.isMove
  | _ => false

/-- The condition of an `if` and the subject of a `match`. -/
def ExprKind.conditions : ExprKind → List Expr
  | .ifElse cond _ _ => [cond]
  | .matchWith scrutinee _ => [scrutinee]
  | _ => []

/-- The iterable of a `for` and the condition of a `while`. -/
def StmtKind.conditions : StmtKind → List Expr
  | .forIn _ _ _ iter _ => [iter]
  | .whileLoop _ cond _ => [cond]
  | _ => []

/-- The guards of a `match`, and the sources and the duration in the arms of a `select` or `race`. -/
def ExprKind.armHeads : ExprKind → List Expr
  | .matchWith _ arms => arms.filterMap (·.guard)
  | .select _ arms timeout => arms.map (·.source) ++ timeout.toList.map (·.duration)
  | _ => []

/-- The expressions that a block follows. -/
def Part.conditions : Part → List Expr
  | .expr e => e.kind.conditions
  | .stmt s => s.kind.conditions
  | _ => []

/-- The expressions that the arrow of an arm follows. -/
def Part.armHeads : Part → List Expr
  | .expr e => e.kind.armHeads
  | _ => []

end ActorFrontend
