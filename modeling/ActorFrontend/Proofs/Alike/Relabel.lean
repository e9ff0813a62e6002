import ActorFrontend.Tree.Item

/-!
# Trees with other places and numbers

A renaming gives every node of a tree another place and another number and leaves the rest of the
tree as it is.  Two trees are the same up to places if one renaming that forgets the places makes
them equal.
-/

namespace ActorFrontend

/-- Other spans and other numbers for the nodes of a tree. -/
structure Renaming where
  span : Span → Span
  id : NodeId → NodeId

/-- All spans are forgotten, the numbers are kept. -/
def Renaming.withoutSpans : Renaming := ⟨fun _ => .empty 0, fun id => id⟩

/-- Neither places nor numbers of nodes count. -/
def Renaming.bare : Renaming := ⟨fun _ => .empty 0, fun _ => 0⟩

/-- Data of which a part of a tree is made. -/
class Relabeled (α : Type) where
  /-- The same data, its nodes renamed. -/
  relabel : Renaming → α → α

export Relabeled (relabel)

section

variable {α β : Type} [Relabeled α] [Relabeled β]

instance : Relabeled (List α) := ⟨fun r as => as.map (relabel r)⟩

instance : Relabeled (Option α) := ⟨fun r a => a.map (relabel r)⟩

instance : Relabeled (α × β) := ⟨fun r ab => (relabel r ab.1, relabel r ab.2)⟩

@[simp] theorem relabel_nil (r : Renaming) : relabel r ([] : List α) = [] := rfl

@[simp] theorem relabel_cons (r : Renaming) (a : α) (as : List α) :
    relabel r (a :: as) = relabel r a :: relabel r as := rfl

@[simp] theorem relabel_append (r : Renaming) (as as' : List α) :
    relabel r (as ++ as') = relabel r as ++ relabel r as' :=
  List.map_append

@[simp] theorem relabel_reverse (r : Renaming) (as : List α) :
    relabel r as.reverse = (relabel r as).reverse :=
  List.map_reverse

@[simp] theorem relabel_none (r : Renaming) : relabel r (none : Option α) = none := rfl

@[simp] theorem relabel_some (r : Renaming) (a : α) : relabel r (some a) = some (relabel r a) := rfl

@[simp] theorem relabel_pair (r : Renaming) (a : α) (b : β) :
    relabel r (a, b) = (relabel r a, relabel r b) := rfl

end

/-! ## Types -/

mutual

@[simp] def TypeExpr.relabel (r : Renaming) : TypeExpr → TypeExpr
  | ⟨id, span, kind⟩ => ⟨r.id id, r.span span, kind.relabel r⟩

@[simp] def TypeKind.relabel (r : Renaming) : TypeKind → TypeKind
  | .named path args => .named path (relabelTypes r args)
  | .unit => .unit
  | .tuple elems => .tuple (relabelTypes r elems)
  | .array elem length => .array (elem.relabel r) length
  | .slice elem => .slice (elem.relabel r)
  | .function params ret => .function (relabelTypes r params) (relabelResult r ret)
  | .pointer mutability pointee => .pointer mutability (pointee.relabel r)
  | .traitObject bounds => .traitObject (relabelBounds r bounds)

@[simp] def Bound.relabel (r : Renaming) : Bound → Bound
  | ⟨name, args, span⟩ => ⟨name, relabelTypes r args, r.span span⟩

def relabelResult (r : Renaming) : Option TypeExpr → Option TypeExpr
  | none => none
  | some t => some (t.relabel r)

def relabelTypes (r : Renaming) : List TypeExpr → List TypeExpr
  | [] => []
  | t :: ts => t.relabel r :: relabelTypes r ts

def relabelBounds (r : Renaming) : List Bound → List Bound
  | [] => []
  | b :: bs => b.relabel r :: relabelBounds r bs

end

instance : Relabeled TypeExpr := ⟨TypeExpr.relabel⟩

instance : Relabeled TypeKind := ⟨TypeKind.relabel⟩

instance : Relabeled Bound := ⟨Bound.relabel⟩

@[simp] theorem relabel_typeExpr (r : Renaming) (t : TypeExpr) : relabel r t = t.relabel r := rfl

@[simp] theorem relabel_typeKind (r : Renaming) (k : TypeKind) : relabel r k = k.relabel r := rfl

@[simp] theorem relabel_bound (r : Renaming) (b : Bound) : relabel r b = b.relabel r := rfl

@[simp] theorem relabelResult_eq (r : Renaming) (t : Option TypeExpr) :
    relabelResult r t = relabel r t := by
  cases t <;> rfl

@[simp] theorem relabelTypes_eq (r : Renaming) (ts : List TypeExpr) :
    relabelTypes r ts = relabel r ts := by
  induction ts with
  | nil => rfl
  | cons t ts ih => rw [relabelTypes, ih]; rfl

@[simp] theorem relabelBounds_eq (r : Renaming) (bs : List Bound) :
    relabelBounds r bs = relabel r bs := by
  induction bs with
  | nil => rfl
  | cons b bs ih => rw [relabelBounds, ih]; rfl

instance : Relabeled TypeParam := ⟨fun r p => ⟨p.name, relabel r p.bounds, r.span p.span⟩⟩

instance : Relabeled WherePredicate :=
  ⟨fun r p => ⟨relabel r p.type, relabel r p.bounds, r.span p.span⟩⟩

/-! ## Patterns -/

@[simp] def LiteralNode.relabel (r : Renaming) : LiteralNode → LiteralNode
  | ⟨id, span, value⟩ => ⟨r.id id, r.span span, value⟩

instance : Relabeled LiteralNode := ⟨LiteralNode.relabel⟩

mutual

@[simp] def Pattern.relabel (r : Renaming) : Pattern → Pattern
  | ⟨id, span, kind⟩ => ⟨r.id id, r.span span, kind.relabel r⟩

@[simp] def PatternKind.relabel (r : Renaming) : PatternKind → PatternKind
  | .wildcard => .wildcard
  | .ident name => .ident name
  | .path path => .path path
  | .literal literal => .literal (literal.relabel r)
  | .negated id span number => .negated (r.id id) (r.span span) (number.relabel r)
  | .tuple elems => .tuple (relabelPatterns r elems)
  | .struct path fields => .struct path (relabelFieldPatterns r fields)
  | .constructor path args => .constructor path (relabelPatterns r args)
  | .or alternatives => .or (relabelPatterns r alternatives)

@[simp] def FieldPattern.relabel (r : Renaming) : FieldPattern → FieldPattern
  | ⟨name, pattern, span⟩ => ⟨name, relabelFieldValue r pattern, r.span span⟩

def relabelFieldValue (r : Renaming) : Option Pattern → Option Pattern
  | none => none
  | some p => some (p.relabel r)

def relabelPatterns (r : Renaming) : List Pattern → List Pattern
  | [] => []
  | p :: ps => p.relabel r :: relabelPatterns r ps

def relabelFieldPatterns (r : Renaming) : List FieldPattern → List FieldPattern
  | [] => []
  | f :: fs => f.relabel r :: relabelFieldPatterns r fs

end

instance : Relabeled Pattern := ⟨Pattern.relabel⟩

instance : Relabeled PatternKind := ⟨PatternKind.relabel⟩

instance : Relabeled FieldPattern := ⟨FieldPattern.relabel⟩

@[simp] theorem relabel_literalNode (r : Renaming) (n : LiteralNode) : relabel r n = n.relabel r :=
  rfl

@[simp] theorem relabel_pattern (r : Renaming) (p : Pattern) : relabel r p = p.relabel r := rfl

@[simp] theorem relabel_patternKind (r : Renaming) (k : PatternKind) : relabel r k = k.relabel r :=
  rfl

@[simp] theorem relabel_fieldPattern (r : Renaming) (f : FieldPattern) :
    relabel r f = f.relabel r := rfl

@[simp] theorem relabelFieldValue_eq (r : Renaming) (p : Option Pattern) :
    relabelFieldValue r p = relabel r p := by
  cases p <;> rfl

@[simp] theorem relabelPatterns_eq (r : Renaming) (ps : List Pattern) :
    relabelPatterns r ps = relabel r ps := by
  induction ps with
  | nil => rfl
  | cons p ps ih => rw [relabelPatterns, ih]; rfl

@[simp] theorem relabelFieldPatterns_eq (r : Renaming) (fs : List FieldPattern) :
    relabelFieldPatterns r fs = relabel r fs := by
  induction fs with
  | nil => rfl
  | cons f fs ih => rw [relabelFieldPatterns, ih]; rfl

/-! ## Expressions, statements and blocks -/

instance : Relabeled LambdaParam := ⟨fun r p => ⟨p.name, relabel r p.type, r.span p.span⟩⟩

mutual

@[simp] def Expr.relabel (r : Renaming) : Expr → Expr
  | ⟨id, span, kind⟩ => ⟨r.id id, r.span span, kind.relabel r⟩

@[simp] def ExprKind.relabel (r : Renaming) : ExprKind → ExprKind
  | .literal value => .literal value
  | .interpolated parts => .interpolated (relabelStringParts r parts)
  | .duration duration => .duration duration
  | .ident name => .ident name
  | .selfValue => .selfValue
  | .path path => .path path
  | .binary op left right => .binary op (left.relabel r) (right.relabel r)
  | .range start stop inclusive => .range (start.relabel r) (stop.relabel r) inclusive
  | .unary op operand => .unary op (operand.relabel r)
  | .await operand => .await (operand.relabel r)
  | .call function args => .call (function.relabel r) (relabelExprs r args)
  | .methodCall object method args =>
      .methodCall (object.relabel r) method (relabelExprs r args)
  | .field object field => .field (object.relabel r) field
  | .index object index => .index (object.relabel r) (index.relabel r)
  | .propagate operand => .propagate (operand.relabel r)
  | .structLiteral path fields => .structLiteral path (relabelFieldInits r fields)
  | .array elems => .array (relabelExprs r elems)
  | .arrayRepeat value count => .arrayRepeat (value.relabel r) (count.relabel r)
  | .tuple elems => .tuple (relabelExprs r elems)
  | .paren inner => .paren (inner.relabel r)
  | .block block => .block (block.relabel r)
  | .ifElse cond thenBranch elseBranch =>
      .ifElse (cond.relabel r) (thenBranch.relabel r) (relabelExprOption r elseBranch)
  | .matchWith scrutinee arms => .matchWith (scrutinee.relabel r) (relabelMatchArms r arms)
  | .lambda lambda => .lambda (lambda.relabel r)
  | .spawnActor name typeArgs args =>
      .spawnActor name (relabel r typeArgs) (relabelExprs r args)
  | .spawnLambda lambda => .spawnLambda (lambda.relabel r)
  | .select kind arms timeout =>
      .select kind (relabelSelectArms r arms) (relabelTimeout r timeout)
  | .join elems => .join (relabelExprs r elems)
  | .scope block => .scope (block.relabel r)
  | .scopeLaunch block => .scopeLaunch (block.relabel r)
  | .scopeCancel => .scopeCancel
  | .scopeIsCancelled => .scopeIsCancelled
  | .cooperate => .cooperate
  | .yieldValue value => .yieldValue (value.relabel r)
  | .tryCatch body clause => .tryCatch (body.relabel r) (relabelCatch r clause)
  | .unsafeBlock block => .unsafeBlock (block.relabel r)

@[simp] def StringPart.relabel (r : Renaming) : StringPart → StringPart
  | .text value => .text value
  | .expr e => .expr (e.relabel r)

@[simp] def FieldInit.relabel (r : Renaming) : FieldInit → FieldInit
  | ⟨name, value, span⟩ => ⟨name, value.relabel r, r.span span⟩

@[simp] def MatchArm.relabel (r : Renaming) : MatchArm → MatchArm
  | ⟨pattern, guard, body, span⟩ =>
      ⟨Relabeled.relabel r pattern, relabelExprOption r guard, body.relabel r, r.span span⟩

@[simp] def Lambda.relabel (r : Renaming) : Lambda → Lambda
  | ⟨isMove, params, ret, body⟩ =>
      ⟨isMove, Relabeled.relabel r params, Relabeled.relabel r ret, body.relabel r⟩

@[simp] def SelectArm.relabel (r : Renaming) : SelectArm → SelectArm
  | ⟨binding, source, body, span⟩ => ⟨binding, source.relabel r, body.relabel r, r.span span⟩

@[simp] def TimeoutArm.relabel (r : Renaming) : TimeoutArm → TimeoutArm
  | ⟨duration, body, span⟩ => ⟨duration.relabel r, body.relabel r, r.span span⟩

@[simp] def CatchClause.relabel (r : Renaming) : CatchClause → CatchClause
  | ⟨binding, handler, span⟩ => ⟨binding, handler.relabel r, r.span span⟩

@[simp] def Block.relabel (r : Renaming) : Block → Block
  | ⟨stmts, span⟩ => ⟨relabelStmts r stmts, r.span span⟩

@[simp] def Stmt.relabel (r : Renaming) : Stmt → Stmt
  | ⟨id, span, kind⟩ => ⟨r.id id, r.span span, kind.relabel r⟩

@[simp] def StmtKind.relabel (r : Renaming) : StmtKind → StmtKind
  | .letBinding pattern type init =>
      .letBinding (Relabeled.relabel r pattern) (Relabeled.relabel r type) (init.relabel r)
  | .varBinding name type init => .varBinding name (Relabeled.relabel r type) (init.relabel r)
  | .assign target op value => .assign (target.relabel r) op (value.relabel r)
  | .forIn label isAwait pattern iter body =>
      .forIn label isAwait (Relabeled.relabel r pattern) (iter.relabel r) (body.relabel r)
  | .whileLoop label cond body => .whileLoop label (cond.relabel r) (body.relabel r)
  | .loop label body => .loop label (body.relabel r)
  | .breakLoop label value => .breakLoop label (relabelExprOption r value)
  | .continueLoop label => .continueLoop label
  | .returnValue value => .returnValue (relabelExprOption r value)
  | .block block => .block (block.relabel r)
  | .expr e hasSemicolon => .expr (e.relabel r) hasSemicolon

def relabelExprOption (r : Renaming) : Option Expr → Option Expr
  | none => none
  | some e => some (e.relabel r)

def relabelTimeout (r : Renaming) : Option TimeoutArm → Option TimeoutArm
  | none => none
  | some a => some (a.relabel r)

def relabelCatch (r : Renaming) : Option CatchClause → Option CatchClause
  | none => none
  | some c => some (c.relabel r)

def relabelExprs (r : Renaming) : List Expr → List Expr
  | [] => []
  | e :: es => e.relabel r :: relabelExprs r es

def relabelStringParts (r : Renaming) : List StringPart → List StringPart
  | [] => []
  | p :: ps => p.relabel r :: relabelStringParts r ps

def relabelFieldInits (r : Renaming) : List FieldInit → List FieldInit
  | [] => []
  | f :: fs => f.relabel r :: relabelFieldInits r fs

def relabelMatchArms (r : Renaming) : List MatchArm → List MatchArm
  | [] => []
  | a :: as => a.relabel r :: relabelMatchArms r as

def relabelSelectArms (r : Renaming) : List SelectArm → List SelectArm
  | [] => []
  | a :: as => a.relabel r :: relabelSelectArms r as

def relabelStmts (r : Renaming) : List Stmt → List Stmt
  | [] => []
  | s :: ss => s.relabel r :: relabelStmts r ss

end

instance : Relabeled Expr := ⟨Expr.relabel⟩

instance : Relabeled ExprKind := ⟨ExprKind.relabel⟩

instance : Relabeled StringPart := ⟨StringPart.relabel⟩

instance : Relabeled FieldInit := ⟨FieldInit.relabel⟩

instance : Relabeled MatchArm := ⟨MatchArm.relabel⟩

instance : Relabeled Lambda := ⟨Lambda.relabel⟩

instance : Relabeled SelectArm := ⟨SelectArm.relabel⟩

instance : Relabeled TimeoutArm := ⟨TimeoutArm.relabel⟩

instance : Relabeled CatchClause := ⟨CatchClause.relabel⟩

instance : Relabeled Block := ⟨Block.relabel⟩

instance : Relabeled Stmt := ⟨Stmt.relabel⟩

instance : Relabeled StmtKind := ⟨StmtKind.relabel⟩

@[simp] theorem relabel_expr (r : Renaming) (a : Expr) : relabel r a = a.relabel r := rfl

@[simp] theorem relabel_exprKind (r : Renaming) (a : ExprKind) : relabel r a = a.relabel r := rfl

@[simp] theorem relabel_stringPart (r : Renaming) (a : StringPart) : relabel r a = a.relabel r := rfl

@[simp] theorem relabel_fieldInit (r : Renaming) (a : FieldInit) : relabel r a = a.relabel r := rfl

@[simp] theorem relabel_matchArm (r : Renaming) (a : MatchArm) : relabel r a = a.relabel r := rfl

@[simp] theorem relabel_lambda (r : Renaming) (a : Lambda) : relabel r a = a.relabel r := rfl

@[simp] theorem relabel_selectArm (r : Renaming) (a : SelectArm) : relabel r a = a.relabel r := rfl

@[simp] theorem relabel_timeoutArm (r : Renaming) (a : TimeoutArm) : relabel r a = a.relabel r := rfl

@[simp] theorem relabel_catchClause (r : Renaming) (a : CatchClause) : relabel r a = a.relabel r := rfl

@[simp] theorem relabel_block (r : Renaming) (a : Block) : relabel r a = a.relabel r := rfl

@[simp] theorem relabel_stmt (r : Renaming) (a : Stmt) : relabel r a = a.relabel r := rfl

@[simp] theorem relabel_stmtKind (r : Renaming) (a : StmtKind) : relabel r a = a.relabel r := rfl

@[simp] theorem relabelExprOption_eq (r : Renaming) (a : Option Expr) :
    relabelExprOption r a = relabel r a := by
  cases a <;> rfl

@[simp] theorem relabelTimeout_eq (r : Renaming) (a : Option TimeoutArm) :
    relabelTimeout r a = relabel r a := by
  cases a <;> rfl

@[simp] theorem relabelCatch_eq (r : Renaming) (a : Option CatchClause) :
    relabelCatch r a = relabel r a := by
  cases a <;> rfl

@[simp] theorem relabelExprs_eq (r : Renaming) (es : List Expr) :
    relabelExprs r es = relabel r es := by
  induction es with
  | nil => rfl
  | cons e es ih => rw [relabelExprs, ih]; rfl

@[simp] theorem relabelStringParts_eq (r : Renaming) (ps : List StringPart) :
    relabelStringParts r ps = relabel r ps := by
  induction ps with
  | nil => rfl
  | cons p ps ih => rw [relabelStringParts, ih]; rfl

@[simp] theorem relabelFieldInits_eq (r : Renaming) (fs : List FieldInit) :
    relabelFieldInits r fs = relabel r fs := by
  induction fs with
  | nil => rfl
  | cons f fs ih => rw [relabelFieldInits, ih]; rfl

@[simp] theorem relabelMatchArms_eq (r : Renaming) (as : List MatchArm) :
    relabelMatchArms r as = relabel r as := by
  induction as with
  | nil => rfl
  | cons a as ih => rw [relabelMatchArms, ih]; rfl

@[simp] theorem relabelSelectArms_eq (r : Renaming) (as : List SelectArm) :
    relabelSelectArms r as = relabel r as := by
  induction as with
  | nil => rfl
  | cons a as ih => rw [relabelSelectArms, ih]; rfl

@[simp] theorem relabelStmts_eq (r : Renaming) (ss : List Stmt) :
    relabelStmts r ss = relabel r ss := by
  induction ss with
  | nil => rfl
  | cons s ss ih => rw [relabelStmts, ih]; rfl

/-! ## Declarations -/

instance : Relabeled ConstDecl := ⟨fun r d => ⟨d.name, relabel r d.type, relabel r d.value⟩⟩

instance : Relabeled TypeAliasDecl :=
  ⟨fun r d => ⟨d.name, relabel r d.typeParams, relabel r d.type⟩⟩

instance : Relabeled FieldDecl :=
  ⟨fun r f => ⟨f.isVar, f.name, relabel r f.type, r.span f.span⟩⟩

instance : Relabeled StructDecl :=
  ⟨fun r d => ⟨d.name, relabel r d.typeParams, relabel r d.whereClause, relabel r d.fields⟩⟩

instance : Relabeled VariantKind := ⟨fun r => fun
  | .unit => .unit
  | .tuple types => .tuple (relabel r types)
  | .struct fields => .struct (relabel r fields)⟩

instance : Relabeled Variant := ⟨fun r v => ⟨v.name, relabel r v.kind, r.span v.span⟩⟩

instance : Relabeled EnumDecl :=
  ⟨fun r d => ⟨d.name, relabel r d.typeParams, relabel r d.whereClause, relabel r d.variants⟩⟩

instance : Relabeled WireAttr := ⟨fun r => fun
  | .optional => .optional
  | .deprecated => .deprecated
  | .default value => .default (relabel r value)
  | .reserved tags => .reserved tags⟩

instance : Relabeled WireField :=
  ⟨fun r f => ⟨f.name, f.type, f.tag, relabel r f.attrs, r.span f.span⟩⟩

instance : Relabeled WireMember := ⟨fun r => fun
  | .field f => .field (relabel r f)
  | .variant v => .variant (relabel r v)
  | .reserved tags span => .reserved tags (r.span span)⟩

instance : Relabeled WireDecl := ⟨fun r d => ⟨d.kind, d.name, relabel r d.members⟩⟩

instance : Relabeled Param := ⟨fun r p => ⟨p.name, relabel r p.type, r.span p.span⟩⟩

instance : Relabeled FnDecl := ⟨fun r f =>
  { f with
    typeParams := relabel r f.typeParams
    params := relabel r f.params
    ret := relabel r f.ret
    whereClause := relabel r f.whereClause
    body := relabel r f.body
    span := r.span f.span }⟩

instance : Relabeled ExternFn :=
  ⟨fun r f => ⟨f.name, relabel r f.params, relabel r f.ret, f.isVariadic, r.span f.span⟩⟩

instance : Relabeled ExternBlock := ⟨fun r b => ⟨b.abi, relabel r b.fns⟩⟩

instance : Relabeled TraitItem := ⟨fun r => fun
  | .method fn => .method (relabel r fn)
  | .assocType name bounds default span =>
      .assocType name (relabel r bounds) (relabel r default) (r.span span)⟩

instance : Relabeled TraitDecl := ⟨fun r d =>
  ⟨d.name, relabel r d.typeParams, relabel r d.supertraits, relabel r d.whereClause,
    relabel r d.items⟩⟩

instance : Relabeled ImplItem := ⟨fun r => fun
  | .method fn => .method (relabel r fn)
  | .assocType name type span => .assocType name (relabel r type) (r.span span)⟩

instance : Relabeled ImplDecl := ⟨fun r d =>
  ⟨relabel r d.typeParams, relabel r d.traitRef, relabel r d.selfType, relabel r d.whereClause,
    relabel r d.items⟩⟩

instance : Relabeled MailboxDecl := ⟨fun r d => ⟨d.capacity, d.overflow, r.span d.span⟩⟩

instance : Relabeled ActorInit :=
  ⟨fun r i => ⟨relabel r i.params, relabel r i.body, r.span i.span⟩⟩

instance : Relabeled ActorMember := ⟨fun r => fun
  | .field isVar name type init span =>
      .field isVar name (relabel r type) (relabel r init) (r.span span)
  | .mailbox mailbox => .mailbox (relabel r mailbox)
  | .receive fn => .receive (relabel r fn)
  | .method fn => .method (relabel r fn)⟩

instance : Relabeled ActorDecl := ⟨fun r d =>
  ⟨d.name, relabel r d.typeParams, relabel r d.bounds, relabel r d.whereClause, relabel r d.init,
    relabel r d.members⟩⟩

instance : Relabeled ChildSpec := ⟨fun r c => ⟨c.name, c.actor, c.restart, r.span c.span⟩⟩

instance : Relabeled SupervisorMember := ⟨fun r => fun
  | .child child => .child (relabel r child)
  | .field name value span => .field name (relabel r value) (r.span span)⟩

instance : Relabeled SupervisorDecl := ⟨fun r d => ⟨d.name, relabel r d.members⟩⟩

instance : Relabeled ItemKind := ⟨fun r => fun
  | .importDecl d => .importDecl d
  | .const d => .const (relabel r d)
  | .typeAlias d => .typeAlias (relabel r d)
  | .struct d => .struct (relabel r d)
  | .enum d => .enum (relabel r d)
  | .wire d => .wire (relabel r d)
  | .trait d => .trait (relabel r d)
  | .impl d => .impl (relabel r d)
  | .fn d => .fn (relabel r d)
  | .externBlock d => .externBlock (relabel r d)
  | .actor d => .actor (relabel r d)
  | .supervisor d => .supervisor (relabel r d)⟩

instance : Relabeled Item :=
  ⟨fun r i => ⟨r.id i.id, i.vis, relabel r i.kind, r.span i.span⟩⟩

instance : Relabeled Program := ⟨fun r p => ⟨relabel r p.items, r.span p.span⟩⟩

end ActorFrontend
