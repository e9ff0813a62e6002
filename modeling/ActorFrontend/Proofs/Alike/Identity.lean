import ActorFrontend.Proofs.Alike.Relabel

/-!
# Renaming nothing

The renaming that keeps all spans and all numbers leaves every tree as it is.
-/

namespace ActorFrontend

/-- Nothing is renamed. -/
def Renaming.identity : Renaming := ⟨fun span => span, fun id => id⟩

/-- Data that is left as it is where nothing is renamed. -/
class RelabeledFaithfully (α : Type) [Relabeled α] : Prop where
  relabel_identity (a : α) : relabel .identity a = a

export RelabeledFaithfully (relabel_identity)

attribute [simp] relabel_identity

@[simp] theorem Renaming.span_identity (span : Span) : Renaming.identity.span span = span := rfl

@[simp] theorem Renaming.id_identity (id : NodeId) : Renaming.identity.id id = id := rfl

section

variable {α : Type} [Relabeled α] [RelabeledFaithfully α]

instance : RelabeledFaithfully (List α) where
  relabel_identity as := by
    induction as with
    | nil => rfl
    | cons a as ih => rw [relabel_cons, ih, relabel_identity]

instance : RelabeledFaithfully (Option α) where
  relabel_identity a := by
    cases a with
    | none => rfl
    | some a => rw [relabel_some, relabel_identity]

end

/-! ## Types -/

mutual

theorem TypeExpr.relabel_identity : ∀ t : TypeExpr, t.relabel .identity = t
  | ⟨_, _, kind⟩ => by rw [TypeExpr.relabel, kind.relabel_identity]; rfl

theorem TypeKind.relabel_identity : ∀ k : TypeKind, k.relabel .identity = k
  | .named path args => by rw [TypeKind.relabel, relabelTypes_identity args]
  | .unit => rfl
  | .tuple elems => by rw [TypeKind.relabel, relabelTypes_identity elems]
  | .array elem length => by rw [TypeKind.relabel, elem.relabel_identity]
  | .slice elem => by rw [TypeKind.relabel, elem.relabel_identity]
  | .function params ret => by
      rw [TypeKind.relabel, relabelTypes_identity params, relabelResult_identity ret]
  | .pointer mutability pointee => by rw [TypeKind.relabel, pointee.relabel_identity]
  | .traitObject bounds => by rw [TypeKind.relabel, relabelBounds_identity bounds]

theorem Bound.relabel_identity : ∀ b : Bound, b.relabel .identity = b
  | ⟨_, args, _⟩ => by rw [Bound.relabel, relabelTypes_identity args]; rfl

theorem relabelResult_identity : ∀ t : Option TypeExpr, relabelResult .identity t = t
  | none => rfl
  | some t => by rw [relabelResult, t.relabel_identity]

theorem relabelTypes_identity : ∀ ts : List TypeExpr, relabelTypes .identity ts = ts
  | [] => rfl
  | t :: ts => by rw [relabelTypes, t.relabel_identity, relabelTypes_identity ts]

theorem relabelBounds_identity : ∀ bs : List Bound, relabelBounds .identity bs = bs
  | [] => rfl
  | b :: bs => by rw [relabelBounds, b.relabel_identity, relabelBounds_identity bs]

end

instance : RelabeledFaithfully TypeExpr := ⟨TypeExpr.relabel_identity⟩

instance : RelabeledFaithfully Bound := ⟨Bound.relabel_identity⟩

instance : RelabeledFaithfully TypeParam where
  relabel_identity d := by
    change TypeParam.mk d.name (relabel .identity d.bounds) d.span = d
    simp only [relabel_identity]

instance : RelabeledFaithfully WherePredicate where
  relabel_identity d := by
    change WherePredicate.mk (relabel .identity d.type) (relabel .identity d.bounds) d.span = d
    simp only [relabel_identity]

/-! ## Patterns -/

theorem LiteralNode.relabel_identity : ∀ n : LiteralNode, n.relabel .identity = n
  | ⟨_, _, _⟩ => rfl

mutual

theorem Pattern.relabel_identity : ∀ p : Pattern, p.relabel .identity = p
  | ⟨_, _, kind⟩ => by rw [Pattern.relabel, kind.relabel_identity]; rfl

theorem PatternKind.relabel_identity : ∀ k : PatternKind, k.relabel .identity = k
  | .wildcard => rfl
  | .ident _ => rfl
  | .path _ => rfl
  | .literal literal => by rw [PatternKind.relabel, literal.relabel_identity]
  | .negated _ _ number => by rw [PatternKind.relabel, number.relabel_identity]; rfl
  | .tuple elems => by rw [PatternKind.relabel, relabelPatterns_identity elems]
  | .struct _ fields => by rw [PatternKind.relabel, relabelFieldPatterns_identity fields]
  | .constructor _ args => by rw [PatternKind.relabel, relabelPatterns_identity args]
  | .or alternatives => by rw [PatternKind.relabel, relabelPatterns_identity alternatives]

theorem FieldPattern.relabel_identity : ∀ f : FieldPattern, f.relabel .identity = f
  | ⟨_, pattern, _⟩ => by rw [FieldPattern.relabel, relabelFieldValue_identity pattern]; rfl

theorem relabelFieldValue_identity : ∀ p : Option Pattern, relabelFieldValue .identity p = p
  | none => rfl
  | some p => by rw [relabelFieldValue, p.relabel_identity]

theorem relabelPatterns_identity : ∀ ps : List Pattern, relabelPatterns .identity ps = ps
  | [] => rfl
  | p :: ps => by rw [relabelPatterns, p.relabel_identity, relabelPatterns_identity ps]

theorem relabelFieldPatterns_identity :
    ∀ fs : List FieldPattern, relabelFieldPatterns .identity fs = fs
  | [] => rfl
  | f :: fs => by rw [relabelFieldPatterns, f.relabel_identity, relabelFieldPatterns_identity fs]

end

instance : RelabeledFaithfully Pattern := ⟨Pattern.relabel_identity⟩

/-! ## Expressions, statements and blocks -/

instance : RelabeledFaithfully LambdaParam where
  relabel_identity d := by
    change LambdaParam.mk d.name (relabel .identity d.type) d.span = d
    simp only [relabel_identity]

mutual

theorem Expr.relabel_identity : ∀ e : Expr, e.relabel .identity = e
  | ⟨_, _, kind⟩ => by rw [Expr.relabel, kind.relabel_identity]; rfl

theorem ExprKind.relabel_identity : ∀ k : ExprKind, k.relabel .identity = k
  | .literal _ => rfl
  | .interpolated parts => by rw [ExprKind.relabel, relabelStringParts_identity parts]
  | .duration _ => rfl
  | .ident _ => rfl
  | .selfValue => rfl
  | .path _ => rfl
  | .binary _ left right => by rw [ExprKind.relabel, left.relabel_identity, right.relabel_identity]
  | .range start stop _ => by rw [ExprKind.relabel, start.relabel_identity, stop.relabel_identity]
  | .unary _ operand => by rw [ExprKind.relabel, operand.relabel_identity]
  | .await operand => by rw [ExprKind.relabel, operand.relabel_identity]
  | .call function args => by
      rw [ExprKind.relabel, function.relabel_identity, relabelExprs_identity args]
  | .methodCall object _ args => by
      rw [ExprKind.relabel, object.relabel_identity, relabelExprs_identity args]
  | .field object _ => by rw [ExprKind.relabel, object.relabel_identity]
  | .index object index => by rw [ExprKind.relabel, object.relabel_identity, index.relabel_identity]
  | .propagate operand => by rw [ExprKind.relabel, operand.relabel_identity]
  | .structLiteral _ fields => by rw [ExprKind.relabel, relabelFieldInits_identity fields]
  | .array elems => by rw [ExprKind.relabel, relabelExprs_identity elems]
  | .arrayRepeat value count => by
      rw [ExprKind.relabel, value.relabel_identity, count.relabel_identity]
  | .tuple elems => by rw [ExprKind.relabel, relabelExprs_identity elems]
  | .paren inner => by rw [ExprKind.relabel, inner.relabel_identity]
  | .block block => by rw [ExprKind.relabel, block.relabel_identity]
  | .ifElse cond thenBranch elseBranch => by
      rw [ExprKind.relabel, cond.relabel_identity, thenBranch.relabel_identity,
        relabelExprOption_identity elseBranch]
  | .matchWith scrutinee arms => by
      rw [ExprKind.relabel, scrutinee.relabel_identity, relabelMatchArms_identity arms]
  | .lambda lambda => by rw [ExprKind.relabel, lambda.relabel_identity]
  | .spawnActor _ typeArgs args => by
      rw [ExprKind.relabel, ActorFrontend.relabel_identity, relabelExprs_identity args]
  | .spawnLambda lambda => by rw [ExprKind.relabel, lambda.relabel_identity]
  | .select _ arms timeout => by
      rw [ExprKind.relabel, relabelSelectArms_identity arms, relabelTimeout_identity timeout]
  | .join elems => by rw [ExprKind.relabel, relabelExprs_identity elems]
  | .scope block => by rw [ExprKind.relabel, block.relabel_identity]
  | .scopeLaunch block => by rw [ExprKind.relabel, block.relabel_identity]
  | .scopeCancel => rfl
  | .scopeIsCancelled => rfl
  | .cooperate => rfl
  | .yieldValue value => by rw [ExprKind.relabel, value.relabel_identity]
  | .tryCatch body clause => by
      rw [ExprKind.relabel, body.relabel_identity, relabelCatch_identity clause]
  | .unsafeBlock block => by rw [ExprKind.relabel, block.relabel_identity]

theorem StringPart.relabel_identity : ∀ p : StringPart, p.relabel .identity = p
  | .text _ => rfl
  | .expr e => by rw [StringPart.relabel, e.relabel_identity]

theorem FieldInit.relabel_identity : ∀ f : FieldInit, f.relabel .identity = f
  | ⟨_, value, _⟩ => by rw [FieldInit.relabel, value.relabel_identity]; rfl

theorem MatchArm.relabel_identity : ∀ a : MatchArm, a.relabel .identity = a
  | ⟨_, guard, body, _⟩ => by
      rw [MatchArm.relabel, ActorFrontend.relabel_identity, relabelExprOption_identity guard,
        body.relabel_identity]; rfl

theorem Lambda.relabel_identity : ∀ l : Lambda, l.relabel .identity = l
  | ⟨_, _, _, body⟩ => by
      rw [Lambda.relabel, ActorFrontend.relabel_identity, ActorFrontend.relabel_identity,
        body.relabel_identity]

theorem SelectArm.relabel_identity : ∀ a : SelectArm, a.relabel .identity = a
  | ⟨_, source, body, _⟩ => by
      rw [SelectArm.relabel, source.relabel_identity, body.relabel_identity]; rfl

theorem TimeoutArm.relabel_identity : ∀ a : TimeoutArm, a.relabel .identity = a
  | ⟨duration, body, _⟩ => by
      rw [TimeoutArm.relabel, duration.relabel_identity, body.relabel_identity]; rfl

theorem CatchClause.relabel_identity : ∀ c : CatchClause, c.relabel .identity = c
  | ⟨_, handler, _⟩ => by rw [CatchClause.relabel, handler.relabel_identity]; rfl

theorem Block.relabel_identity : ∀ b : Block, b.relabel .identity = b
  | ⟨stmts, _⟩ => by rw [Block.relabel, relabelStmts_identity stmts]; rfl

theorem Stmt.relabel_identity : ∀ s : Stmt, s.relabel .identity = s
  | ⟨_, _, kind⟩ => by rw [Stmt.relabel, kind.relabel_identity]; rfl

theorem StmtKind.relabel_identity : ∀ k : StmtKind, k.relabel .identity = k
  | .letBinding _ _ init => by
      rw [StmtKind.relabel, ActorFrontend.relabel_identity, ActorFrontend.relabel_identity,
        init.relabel_identity]
  | .varBinding _ _ init => by
      rw [StmtKind.relabel, ActorFrontend.relabel_identity, init.relabel_identity]
  | .assign target _ value => by
      rw [StmtKind.relabel, target.relabel_identity, value.relabel_identity]
  | .forIn _ _ _ iter body => by
      rw [StmtKind.relabel, ActorFrontend.relabel_identity, iter.relabel_identity,
        body.relabel_identity]
  | .whileLoop _ cond body => by rw [StmtKind.relabel, cond.relabel_identity, body.relabel_identity]
  | .loop _ body => by rw [StmtKind.relabel, body.relabel_identity]
  | .breakLoop _ value => by rw [StmtKind.relabel, relabelExprOption_identity value]
  | .continueLoop _ => rfl
  | .returnValue value => by rw [StmtKind.relabel, relabelExprOption_identity value]
  | .block block => by rw [StmtKind.relabel, block.relabel_identity]
  | .expr e _ => by rw [StmtKind.relabel, e.relabel_identity]

theorem relabelExprOption_identity : ∀ e : Option Expr, relabelExprOption .identity e = e
  | none => rfl
  | some e => by rw [relabelExprOption, e.relabel_identity]

theorem relabelTimeout_identity : ∀ a : Option TimeoutArm, relabelTimeout .identity a = a
  | none => rfl
  | some a => by rw [relabelTimeout, a.relabel_identity]

theorem relabelCatch_identity : ∀ c : Option CatchClause, relabelCatch .identity c = c
  | none => rfl
  | some c => by rw [relabelCatch, c.relabel_identity]

theorem relabelExprs_identity : ∀ es : List Expr, relabelExprs .identity es = es
  | [] => rfl
  | e :: es => by rw [relabelExprs, e.relabel_identity, relabelExprs_identity es]

theorem relabelStringParts_identity : ∀ ps : List StringPart, relabelStringParts .identity ps = ps
  | [] => rfl
  | p :: ps => by rw [relabelStringParts, p.relabel_identity, relabelStringParts_identity ps]

theorem relabelFieldInits_identity : ∀ fs : List FieldInit, relabelFieldInits .identity fs = fs
  | [] => rfl
  | f :: fs => by rw [relabelFieldInits, f.relabel_identity, relabelFieldInits_identity fs]

theorem relabelMatchArms_identity : ∀ as : List MatchArm, relabelMatchArms .identity as = as
  | [] => rfl
  | a :: as => by rw [relabelMatchArms, a.relabel_identity, relabelMatchArms_identity as]

theorem relabelSelectArms_identity : ∀ as : List SelectArm, relabelSelectArms .identity as = as
  | [] => rfl
  | a :: as => by rw [relabelSelectArms, a.relabel_identity, relabelSelectArms_identity as]

theorem relabelStmts_identity : ∀ ss : List Stmt, relabelStmts .identity ss = ss
  | [] => rfl
  | s :: ss => by rw [relabelStmts, s.relabel_identity, relabelStmts_identity ss]

end

instance : RelabeledFaithfully Expr := ⟨Expr.relabel_identity⟩

instance : RelabeledFaithfully Block := ⟨Block.relabel_identity⟩

/-! ## Declarations -/

instance : RelabeledFaithfully ConstDecl where
  relabel_identity d := by
    change ConstDecl.mk d.name (relabel .identity d.type) (relabel .identity d.value) = d
    simp only [relabel_identity]

instance : RelabeledFaithfully TypeAliasDecl where
  relabel_identity d := by
    change TypeAliasDecl.mk d.name (relabel .identity d.typeParams) (relabel .identity d.type) = d
    simp only [relabel_identity]

instance : RelabeledFaithfully FieldDecl where
  relabel_identity d := by
    change FieldDecl.mk d.isVar d.name (relabel .identity d.type) d.span = d
    simp only [relabel_identity]

instance : RelabeledFaithfully StructDecl where
  relabel_identity d := by
    change StructDecl.mk d.name (relabel .identity d.typeParams) (relabel .identity d.whereClause)
      (relabel .identity d.fields) = d
    simp only [relabel_identity]

instance : RelabeledFaithfully VariantKind where
  relabel_identity d := by
    cases d with
    | unit => rfl
    | tuple types => exact congrArg VariantKind.tuple (relabel_identity types)
    | struct fields => exact congrArg VariantKind.struct (relabel_identity fields)

instance : RelabeledFaithfully Variant where
  relabel_identity d := by
    change Variant.mk d.name (relabel .identity d.kind) d.span = d
    simp only [relabel_identity]

instance : RelabeledFaithfully EnumDecl where
  relabel_identity d := by
    change EnumDecl.mk d.name (relabel .identity d.typeParams) (relabel .identity d.whereClause)
      (relabel .identity d.variants) = d
    simp only [relabel_identity]

instance : RelabeledFaithfully WireAttr where
  relabel_identity d := by
    cases d with
    | optional => rfl
    | deprecated => rfl
    | default value => exact congrArg WireAttr.default (relabel_identity value)
    | reserved tags => rfl

instance : RelabeledFaithfully WireField where
  relabel_identity d := by
    change WireField.mk d.name d.type d.tag (relabel .identity d.attrs) d.span = d
    simp only [relabel_identity]

instance : RelabeledFaithfully WireMember where
  relabel_identity d := by
    cases d with
    | field f => exact congrArg WireMember.field (relabel_identity f)
    | variant v => exact congrArg WireMember.variant (relabel_identity v)
    | reserved tags span => rfl

instance : RelabeledFaithfully WireDecl where
  relabel_identity d := by
    change WireDecl.mk d.kind d.name (relabel .identity d.members) = d
    simp only [relabel_identity]

instance : RelabeledFaithfully Param where
  relabel_identity d := by
    change Param.mk d.name (relabel .identity d.type) d.span = d
    simp only [relabel_identity]

instance : RelabeledFaithfully FnDecl where
  relabel_identity d := by
    change FnDecl.mk d.flavor d.name (relabel .identity d.typeParams) (relabel .identity d.params)
      (relabel .identity d.ret) (relabel .identity d.whereClause) (relabel .identity d.body)
      d.span = d
    simp only [relabel_identity]

instance : RelabeledFaithfully ExternFn where
  relabel_identity d := by
    change ExternFn.mk d.name (relabel .identity d.params) (relabel .identity d.ret) d.isVariadic
      d.span = d
    simp only [relabel_identity]

instance : RelabeledFaithfully ExternBlock where
  relabel_identity d := by
    change ExternBlock.mk d.abi (relabel .identity d.fns) = d
    simp only [relabel_identity]

instance : RelabeledFaithfully TraitItem where
  relabel_identity d := by
    cases d with
    | method fn => exact congrArg TraitItem.method (relabel_identity fn)
    | assocType name bounds default span =>
      change TraitItem.assocType name (relabel .identity bounds)
        (relabel .identity default) span = _
      simp only [relabel_identity]

instance : RelabeledFaithfully TraitDecl where
  relabel_identity d := by
    change TraitDecl.mk d.name (relabel .identity d.typeParams) (relabel .identity d.supertraits)
      (relabel .identity d.whereClause) (relabel .identity d.items) = d
    simp only [relabel_identity]

instance : RelabeledFaithfully ImplItem where
  relabel_identity d := by
    cases d with
    | method fn => exact congrArg ImplItem.method (relabel_identity fn)
    | assocType name type span =>
      change ImplItem.assocType name (relabel .identity type) span = _
      simp only [relabel_identity]

instance : RelabeledFaithfully ImplDecl where
  relabel_identity d := by
    change ImplDecl.mk (relabel .identity d.typeParams) (relabel .identity d.traitRef)
      (relabel .identity d.selfType) (relabel .identity d.whereClause)
        (relabel .identity d.items) = d
    simp only [relabel_identity]

instance : RelabeledFaithfully ActorInit where
  relabel_identity d := by
    change ActorInit.mk (relabel .identity d.params) (relabel .identity d.body) d.span = d
    simp only [relabel_identity]

instance : RelabeledFaithfully ActorMember where
  relabel_identity d := by
    cases d with
    | field isVar name type init span =>
      change ActorMember.field isVar name (relabel .identity type) (relabel .identity init) span = _
      simp only [relabel_identity]
    | mailbox mailbox => rfl
    | receive fn => exact congrArg ActorMember.receive (relabel_identity fn)
    | method fn => exact congrArg ActorMember.method (relabel_identity fn)

instance : RelabeledFaithfully ActorDecl where
  relabel_identity d := by
    change ActorDecl.mk d.name (relabel .identity d.typeParams) (relabel .identity d.bounds)
      (relabel .identity d.whereClause) (relabel .identity d.init) (relabel .identity d.members) = d
    simp only [relabel_identity]

instance : RelabeledFaithfully SupervisorMember where
  relabel_identity d := by
    cases d with
    | child child => rfl
    | field name value span =>
      change SupervisorMember.field name (relabel .identity value) span = _
      simp only [relabel_identity]

instance : RelabeledFaithfully SupervisorDecl where
  relabel_identity d := by
    change SupervisorDecl.mk d.name (relabel .identity d.members) = d
    simp only [relabel_identity]

instance : RelabeledFaithfully ItemKind where
  relabel_identity d := by
    cases d with
    | importDecl d => rfl
    | const d => exact congrArg ItemKind.const (relabel_identity d)
    | typeAlias d => exact congrArg ItemKind.typeAlias (relabel_identity d)
    | struct d => exact congrArg ItemKind.struct (relabel_identity d)
    | enum d => exact congrArg ItemKind.enum (relabel_identity d)
    | wire d => exact congrArg ItemKind.wire (relabel_identity d)
    | trait d => exact congrArg ItemKind.trait (relabel_identity d)
    | impl d => exact congrArg ItemKind.impl (relabel_identity d)
    | fn d => exact congrArg ItemKind.fn (relabel_identity d)
    | externBlock d => exact congrArg ItemKind.externBlock (relabel_identity d)
    | actor d => exact congrArg ItemKind.actor (relabel_identity d)
    | supervisor d => exact congrArg ItemKind.supervisor (relabel_identity d)

instance : RelabeledFaithfully Item where
  relabel_identity d := by
    change Item.mk d.id d.vis (relabel .identity d.kind) d.span = d
    simp only [relabel_identity]

instance : RelabeledFaithfully Program where
  relabel_identity d := by
    change Program.mk (relabel .identity d.items) d.span = d
    simp only [relabel_identity]

end ActorFrontend
