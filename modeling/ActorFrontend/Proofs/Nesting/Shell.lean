import ActorFrontend.Tree.Item

/-!
# What nests in a tree

Of a tree only this is kept: which blocks, expressions in parentheses, types and tuple patterns stand
in which others, and which expressions are spliced into strings.
-/

namespace ActorFrontend

/-- Something that holds parts of a tree. -/
inductive Shell where
  /-- A block, an expression in parentheses, a type or a tuple pattern. -/
  | nest (inner : List Shell)
  /-- An expression in a string, with what nests in it. -/
  | splice (e : Expr) (inner : List Shell)

namespace Shell

mutual

/-- How many blocks, parentheses, types and tuple patterns stand in each other at most. -/
def depth : Shell → Nat
  | nest inner => depthOf inner + 1
  | splice _ inner => depthOf inner

/-- The greatest depth among several. -/
def depthOf : List Shell → Nat
  | [] => 0
  | t :: ts => max t.depth (depthOf ts)

end

mutual

/-- The expressions that are spliced into strings, at any depth. -/
def splices : Shell → List Expr
  | nest inner => splicesOf inner
  | splice e inner => e :: splicesOf inner

def splicesOf : List Shell → List Expr
  | [] => []
  | t :: ts => t.splices ++ splicesOf ts

end

theorem depthOf_le_iff {ts : List Shell} {n : Nat} : depthOf ts ≤ n ↔ ∀ t ∈ ts, t.depth ≤ n := by
  induction ts with
  | nil => simp [depthOf]
  | cons t ts ih => rw [depthOf, Nat.max_le, ih, List.forall_mem_cons]

theorem mem_splicesOf {ts : List Shell} {e : Expr} : e ∈ splicesOf ts ↔ ∃ t ∈ ts, e ∈ t.splices := by
  induction ts with
  | nil => simp [splicesOf]
  | cons t ts ih => simp [splicesOf, ih]

end Shell

/-- Data of which a part of a tree is made. -/
class Shelled (α : Type) where
  /-- What nests in the data, the outermost shells of it. -/
  shells : α → List Shell

export Shelled (shells)

instance {α : Type} [Shelled α] : Shelled (List α) := ⟨fun as => as.flatMap shells⟩

instance {α : Type} [Shelled α] : Shelled (Option α) := ⟨fun a => a.toList.flatMap shells⟩

instance {α β : Type} [Shelled α] [Shelled β] : Shelled (α × β) :=
  ⟨fun ab => shells ab.1 ++ shells ab.2⟩

/-! ## Types and patterns -/

mutual

@[simp] def TypeExpr.shells : TypeExpr → List Shell
  | ⟨_, _, kind⟩ => [.nest kind.shells]

@[simp] def TypeKind.shells : TypeKind → List Shell
  | .named _ args => shellsOfTypes args
  | .unit => []
  | .tuple elems => shellsOfTypes elems
  | .array elem _ => elem.shells
  | .slice elem => elem.shells
  | .function params none => shellsOfTypes params
  | .function params (some ret) => shellsOfTypes params ++ ret.shells
  | .pointer _ pointee => pointee.shells
  | .traitObject bounds => shellsOfBounds bounds

@[simp] def Bound.shells : Bound → List Shell
  | ⟨_, args, _⟩ => shellsOfTypes args

def shellsOfTypes : List TypeExpr → List Shell
  | [] => []
  | t :: ts => t.shells ++ shellsOfTypes ts

def shellsOfBounds : List Bound → List Shell
  | [] => []
  | b :: bs => b.shells ++ shellsOfBounds bs

end

mutual

@[simp] def Pattern.shells : Pattern → List Shell
  | ⟨_, _, kind⟩ => kind.shells

@[simp] def PatternKind.shells : PatternKind → List Shell
  | .tuple elems => [.nest (shellsOfPatterns elems)]
  | .struct _ fields => shellsOfFieldPatterns fields
  | .constructor _ args => shellsOfPatterns args
  | .or alternatives => shellsOfPatterns alternatives
  | .wildcard | .ident _ | .path _ | .literal _ | .negated .. => []

@[simp] def FieldPattern.shells : FieldPattern → List Shell
  | ⟨_, none, _⟩ => []
  | ⟨_, some p, _⟩ => p.shells

def shellsOfPatterns : List Pattern → List Shell
  | [] => []
  | p :: ps => p.shells ++ shellsOfPatterns ps

def shellsOfFieldPatterns : List FieldPattern → List Shell
  | [] => []
  | f :: fs => f.shells ++ shellsOfFieldPatterns fs

end

instance : Shelled TypeExpr := ⟨TypeExpr.shells⟩

instance : Shelled LambdaParam := ⟨fun p => shells p.type⟩

/-! ## Expressions -/

mutual

@[simp] def Expr.shells : Expr → List Shell
  | ⟨_, _, kind⟩ => kind.shells

@[simp] def ExprKind.shells : ExprKind → List Shell
  | .interpolated parts => shellsOfStringParts parts
  | .binary _ left right => left.shells ++ right.shells
  | .range start stop _ => start.shells ++ stop.shells
  | .unary _ operand => operand.shells
  | .await operand => operand.shells
  | .call function args => function.shells ++ shellsOfExprs args
  | .methodCall object _ args => object.shells ++ shellsOfExprs args
  | .field object _ => object.shells
  | .index object index => object.shells ++ index.shells
  | .propagate operand => operand.shells
  | .structLiteral _ fields => shellsOfFieldInits fields
  | .array elems => shellsOfExprs elems
  | .arrayRepeat value count => value.shells ++ count.shells
  | .tuple elems => shellsOfExprs elems
  | .paren inner => [.nest inner.shells]
  | .block block => block.shells
  | .ifElse cond thenBranch none => cond.shells ++ thenBranch.shells
  | .ifElse cond thenBranch (some elseBranch) =>
      cond.shells ++ thenBranch.shells ++ elseBranch.shells
  | .matchWith scrutinee arms => scrutinee.shells ++ shellsOfMatchArms arms
  | .lambda lambda => lambda.shells
  | .spawnActor _ typeArgs args => shells typeArgs ++ shellsOfExprs args
  | .spawnLambda lambda => lambda.shells
  | .select _ arms none => shellsOfSelectArms arms
  | .select _ arms (some timeout) => shellsOfSelectArms arms ++ timeout.shells
  | .join elems => shellsOfExprs elems
  | .scope block => block.shells
  | .scopeLaunch block => block.shells
  | .yieldValue value => value.shells
  | .tryCatch body none => body.shells
  | .tryCatch body (some clause) => body.shells ++ clause.shells
  | .unsafeBlock block => block.shells
  | .literal _ | .duration _ | .ident _ | .selfValue | .path _ | .scopeCancel | .scopeIsCancelled
  | .cooperate => []

@[simp] def Lambda.shells : Lambda → List Shell
  | ⟨_, params, ret, body⟩ => shells params ++ shells ret ++ body.shells

@[simp] def FieldInit.shells : FieldInit → List Shell
  | ⟨_, value, _⟩ => value.shells

@[simp] def MatchArm.shells : MatchArm → List Shell
  | ⟨pattern, none, body, _⟩ => pattern.shells ++ body.shells
  | ⟨pattern, some guard, body, _⟩ => pattern.shells ++ guard.shells ++ body.shells

@[simp] def SelectArm.shells : SelectArm → List Shell
  | ⟨_, source, body, _⟩ => source.shells ++ body.shells

@[simp] def TimeoutArm.shells : TimeoutArm → List Shell
  | ⟨duration, body, _⟩ => duration.shells ++ body.shells

@[simp] def CatchClause.shells : CatchClause → List Shell
  | ⟨_, handler, _⟩ => handler.shells

@[simp] def Block.shells : Block → List Shell
  | ⟨stmts, _⟩ => [.nest (shellsOfStmts stmts)]

@[simp] def Stmt.shells : Stmt → List Shell
  | ⟨_, _, kind⟩ => kind.shells

@[simp] def StmtKind.shells : StmtKind → List Shell
  | .letBinding pattern type init => pattern.shells ++ shells type ++ init.shells
  | .varBinding _ type init => shells type ++ init.shells
  | .assign target _ value => target.shells ++ value.shells
  | .forIn _ _ pattern iter body => pattern.shells ++ iter.shells ++ body.shells
  | .whileLoop _ cond body => cond.shells ++ body.shells
  | .loop _ body => body.shells
  | .breakLoop _ (some value) => value.shells
  | .returnValue (some value) => value.shells
  | .block block => block.shells
  | .expr expr _ => expr.shells
  | .breakLoop _ none | .continueLoop _ | .returnValue none => []

def shellsOfExprs : List Expr → List Shell
  | [] => []
  | e :: es => e.shells ++ shellsOfExprs es

def shellsOfStringParts : List StringPart → List Shell
  | [] => []
  | .text _ :: parts => shellsOfStringParts parts
  | .expr e :: parts => .splice e e.shells :: shellsOfStringParts parts

def shellsOfFieldInits : List FieldInit → List Shell
  | [] => []
  | f :: fs => f.shells ++ shellsOfFieldInits fs

def shellsOfMatchArms : List MatchArm → List Shell
  | [] => []
  | a :: as => a.shells ++ shellsOfMatchArms as

def shellsOfSelectArms : List SelectArm → List Shell
  | [] => []
  | a :: as => a.shells ++ shellsOfSelectArms as

def shellsOfStmts : List Stmt → List Shell
  | [] => []
  | s :: ss => s.shells ++ shellsOfStmts ss

end

instance : Shelled Bound := ⟨Bound.shells⟩

instance : Shelled TypeParam := ⟨fun p => shells p.bounds⟩

instance : Shelled WherePredicate := ⟨fun p => shells p.type ++ shells p.bounds⟩

instance : Shelled Pattern := ⟨Pattern.shells⟩

instance : Shelled FieldPattern := ⟨FieldPattern.shells⟩

instance : Shelled Expr := ⟨Expr.shells⟩

instance : Shelled StringPart := ⟨fun
  | .text _ => []
  | .expr e => [.splice e (shells e)]⟩

instance : Shelled FieldInit := ⟨FieldInit.shells⟩

instance : Shelled MatchArm := ⟨MatchArm.shells⟩

instance : Shelled Lambda := ⟨Lambda.shells⟩

instance : Shelled SelectArm := ⟨SelectArm.shells⟩

instance : Shelled TimeoutArm := ⟨TimeoutArm.shells⟩

instance : Shelled CatchClause := ⟨CatchClause.shells⟩

instance : Shelled Block := ⟨Block.shells⟩

instance : Shelled Stmt := ⟨Stmt.shells⟩

/-! ## Compound data -/

section

variable {α : Type} [Shelled α]

@[simp] theorem shells_nil : shells ([] : List α) = [] := rfl

@[simp] theorem shells_cons (a : α) (as : List α) : shells (a :: as) = shells a ++ shells as := rfl

@[simp] theorem shells_append (as as' : List α) : shells (as ++ as') = shells as ++ shells as' :=
  List.flatMap_append

@[simp] theorem shells_none : shells (none : Option α) = [] := rfl

@[simp] theorem shells_some (a : α) : shells (some a) = shells a := by
  simp [shells]

@[simp] theorem shells_pair {β : Type} [Shelled β] (a : α) (b : β) :
    shells (a, b) = shells a ++ shells b := rfl

theorem mem_shells_list {as : List α} {t : Shell} : t ∈ shells as ↔ ∃ a ∈ as, t ∈ shells a :=
  List.mem_flatMap

end

@[simp] theorem shells_typeExpr (t : TypeExpr) : shells t = t.shells := rfl

@[simp] theorem shells_bound (b : Bound) : shells b = b.shells := rfl

@[simp] theorem shells_pattern (p : Pattern) : shells p = p.shells := rfl

@[simp] theorem shells_fieldPattern (f : FieldPattern) : shells f = f.shells := rfl

@[simp] theorem shells_expr (e : Expr) : shells e = e.shells := rfl

@[simp] theorem shells_fieldInit (f : FieldInit) : shells f = f.shells := rfl

@[simp] theorem shells_matchArm (a : MatchArm) : shells a = a.shells := rfl

@[simp] theorem shells_lambda (l : Lambda) : shells l = l.shells := rfl

@[simp] theorem shells_selectArm (a : SelectArm) : shells a = a.shells := rfl

@[simp] theorem shells_timeoutArm (a : TimeoutArm) : shells a = a.shells := rfl

@[simp] theorem shells_catchClause (c : CatchClause) : shells c = c.shells := rfl

@[simp] theorem shells_block (b : Block) : shells b = b.shells := rfl

@[simp] theorem shells_stmt (s : Stmt) : shells s = s.shells := rfl

@[simp] theorem shells_text (value : String) : shells (StringPart.text value) = [] := rfl

@[simp] theorem shells_spliced (e : Expr) : shells (StringPart.expr e) = [.splice e (shells e)] := rfl

@[simp] theorem shells_lambdaParam (p : LambdaParam) : shells p = shells p.type := rfl

@[simp] theorem shells_typeParam (p : TypeParam) : shells p = shells p.bounds := rfl

@[simp] theorem shells_wherePredicate (p : WherePredicate) :
    shells p = shells p.type ++ shells p.bounds := rfl

@[simp] theorem shellsOfTypes_eq (ts : List TypeExpr) : shellsOfTypes ts = shells ts := by
  induction ts with
  | nil => rfl
  | cons t ts ih => rw [shellsOfTypes, ih]; rfl

@[simp] theorem shellsOfBounds_eq (bs : List Bound) : shellsOfBounds bs = shells bs := by
  induction bs with
  | nil => rfl
  | cons b bs ih => rw [shellsOfBounds, ih]; rfl

@[simp] theorem shellsOfPatterns_eq (ps : List Pattern) : shellsOfPatterns ps = shells ps := by
  induction ps with
  | nil => rfl
  | cons p ps ih => rw [shellsOfPatterns, ih]; rfl

@[simp] theorem shellsOfFieldPatterns_eq (fs : List FieldPattern) :
    shellsOfFieldPatterns fs = shells fs := by
  induction fs with
  | nil => rfl
  | cons f fs ih => rw [shellsOfFieldPatterns, ih]; rfl

@[simp] theorem shellsOfExprs_eq (es : List Expr) : shellsOfExprs es = shells es := by
  induction es with
  | nil => rfl
  | cons e es ih => rw [shellsOfExprs, ih]; rfl

@[simp] theorem shellsOfStringParts_eq (parts : List StringPart) :
    shellsOfStringParts parts = shells parts := by
  induction parts with
  | nil => rfl
  | cons part parts ih => cases part <;> rw [shellsOfStringParts, ih] <;> rfl

@[simp] theorem shellsOfFieldInits_eq (fs : List FieldInit) : shellsOfFieldInits fs = shells fs := by
  induction fs with
  | nil => rfl
  | cons f fs ih => rw [shellsOfFieldInits, ih]; rfl

@[simp] theorem shellsOfMatchArms_eq (as : List MatchArm) : shellsOfMatchArms as = shells as := by
  induction as with
  | nil => rfl
  | cons a as ih => rw [shellsOfMatchArms, ih]; rfl

@[simp] theorem shellsOfSelectArms_eq (as : List SelectArm) : shellsOfSelectArms as = shells as := by
  induction as with
  | nil => rfl
  | cons a as ih => rw [shellsOfSelectArms, ih]; rfl

@[simp] theorem shellsOfStmts_eq (ss : List Stmt) : shellsOfStmts ss = shells ss := by
  induction ss with
  | nil => rfl
  | cons s ss ih => rw [shellsOfStmts, ih]; rfl

/-! ## Declarations -/

instance : Shelled FieldDecl := ⟨fun f => shells f.type⟩

instance : Shelled VariantKind := ⟨fun
  | .unit => []
  | .tuple types => shells types
  | .struct fields => shells fields⟩

instance : Shelled Variant := ⟨fun v => shells v.kind⟩

instance : Shelled WireAttr := ⟨fun
  | .default value => shells value
  | .optional | .deprecated | .reserved _ => []⟩

instance : Shelled WireField := ⟨fun f => shells f.attrs⟩

instance : Shelled WireMember := ⟨fun
  | .field f => shells f
  | .variant v => shells v
  | .reserved _ _ => []⟩

instance : Shelled Param := ⟨fun p => shells p.type⟩

instance : Shelled FnDecl := ⟨fun f =>
  shells f.typeParams ++ shells f.params ++ shells f.ret ++ shells f.whereClause ++ shells f.body⟩

instance : Shelled ExternFn := ⟨fun f => shells f.params ++ shells f.ret⟩

instance : Shelled TraitItem := ⟨fun
  | .method fn => shells fn
  | .assocType _ bounds default _ => shells bounds ++ shells default⟩

instance : Shelled ImplItem := ⟨fun
  | .method fn => shells fn
  | .assocType _ type _ => shells type⟩

instance : Shelled ActorInit := ⟨fun i => shells i.params ++ shells i.body⟩

instance : Shelled ActorMember := ⟨fun
  | .field _ _ type init _ => shells type ++ shells init
  | .mailbox _ => []
  | .receive fn => shells fn
  | .method fn => shells fn⟩

instance : Shelled SupervisorMember := ⟨fun
  | .child _ => []
  | .field _ value _ => shells value⟩

@[simp] def ItemKind.shells : ItemKind → List Shell
  | .importDecl _ => []
  | .const d => Shelled.shells d.type ++ Shelled.shells d.value
  | .typeAlias d => Shelled.shells d.typeParams ++ Shelled.shells d.type
  | .struct d => Shelled.shells d.typeParams ++ Shelled.shells d.whereClause ++ Shelled.shells d.fields
  | .enum d => Shelled.shells d.typeParams ++ Shelled.shells d.whereClause ++ Shelled.shells d.variants
  | .wire d => Shelled.shells d.members
  | .trait d =>
      Shelled.shells d.typeParams ++ Shelled.shells d.supertraits ++ Shelled.shells d.whereClause ++
        Shelled.shells d.items
  | .impl d =>
      Shelled.shells d.typeParams ++ Shelled.shells d.traitRef ++ Shelled.shells d.selfType ++
        Shelled.shells d.whereClause ++ Shelled.shells d.items
  | .fn d => Shelled.shells d
  | .externBlock d => Shelled.shells d.fns
  | .actor d =>
      Shelled.shells d.typeParams ++ Shelled.shells d.bounds ++ Shelled.shells d.whereClause ++
        Shelled.shells d.init ++ Shelled.shells d.members
  | .supervisor d => Shelled.shells d.members

instance : Shelled ItemKind := ⟨ItemKind.shells⟩

instance : Shelled Item := ⟨fun i => shells i.kind⟩

instance : Shelled Program := ⟨fun p => shells p.items⟩

@[simp] theorem shells_fieldDecl (f : FieldDecl) : shells f = shells f.type := rfl

@[simp] theorem shells_variantKind_tuple (types : List TypeExpr) :
    shells (VariantKind.tuple types) = shells types := rfl

@[simp] theorem shells_variantKind_struct (fields : List FieldDecl) :
    shells (VariantKind.struct fields) = shells fields := rfl

@[simp] theorem shells_variant (v : Variant) : shells v = shells v.kind := rfl

@[simp] theorem shells_wireAttr_default (value : Expr) :
    shells (WireAttr.default value) = shells value := rfl

@[simp] theorem shells_wireField (f : WireField) : shells f = shells f.attrs := rfl

@[simp] theorem shells_param (p : Param) : shells p = shells p.type := rfl

@[simp] theorem shells_fnDecl (f : FnDecl) : shells f =
    shells f.typeParams ++ shells f.params ++ shells f.ret ++ shells f.whereClause ++ shells f.body := rfl

@[simp] theorem shells_externFn (f : ExternFn) : shells f = shells f.params ++ shells f.ret := rfl

@[simp] theorem shells_actorInit (i : ActorInit) : shells i = shells i.params ++ shells i.body := rfl

/-- How many blocks, parentheses, types and tuple patterns stand in each other at most. -/
def Program.depth (p : Program) : Nat := Shell.depthOf (shells p)

/-- The expressions that are spliced into the strings of the program, at any depth. -/
def Program.splices (p : Program) : List Expr := Shell.splicesOf (shells p)

end ActorFrontend
