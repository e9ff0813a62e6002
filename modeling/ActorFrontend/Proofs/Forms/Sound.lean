import ActorFrontend.Proofs.Forms.Part

/-!
# Sound parts

A part is sound if it and all parts in it have the shape that the syntax tree promises, and nothing
stands at their heads that a block or an arrow behind it would be taken for a part of.
-/

namespace ActorFrontend

variable {α β : Type} {c : Context}

/-! ## What a context permits -/

/-- The context does not rule out that form of expression. -/
def Context.Allows (c : Context) (kind : ExprKind) : Prop :=
  (kind.isStructLiteral = true → c.structLiterals = true) ∧
    (kind.isPlainLambda = true → c.lambdas = true)

/-- Nothing that the context rules out stands in the expression outside of brackets. -/
def Context.Permits (c : Context) (e : Expr) : Prop := ∀ r : Expr, r.Bare e → c.Allows r.kind

namespace Context

/-- The context of a condition. -/
def beforeBlock : Context := ⟨false, true⟩

/-- The context of a guard. -/
def beforeArrow : Context := ⟨true, false⟩

theorem permits_iff {e : Expr} : c.Permits e ↔ c.Allows e.kind ∧ ∀ e' ∈ e.kind.bare, c.Permits e' := by
  constructor
  · exact fun h => ⟨h e (.self e), fun e' he r hr => h r (.inside he hr)⟩
  · rintro ⟨hself, hinner⟩ r hr
    cases hr with
    | self => exact hself
    | inside he hr => exact hinner _ he r hr

/-- A context that allows more permits more. -/
theorem Permits.mono {c' : Context} {e : Expr} (h : c.Permits e)
    (hstruct : c.structLiterals = true → c'.structLiterals = true)
    (hlambda : c.lambdas = true → c'.lambdas = true) : c'.Permits e :=
  fun r hr => ⟨fun hkind => hstruct ((h r hr).1 hkind), fun hkind => hlambda ((h r hr).2 hkind)⟩

end Context

/-! ## Sound parts -/

namespace Part

/-- Neither a struct literal stands before a block nor a lambda before the arrow of an arm. -/
structure HeadsClear (p : Part) : Prop where
  conditions : ∀ e ∈ p.conditions, Context.beforeBlock.Permits e
  armHeads : ∀ e ∈ p.armHeads, Context.beforeArrow.Permits e

/-- What the syntax tree promises holds of the part and of all parts in it. -/
def Sound (p : Part) : Prop := ∀ q : Part, q.Within p → q.Shaped ∧ q.HeadsClear

theorem sound_iff {p : Part} : p.Sound ↔ (p.Shaped ∧ p.HeadsClear) ∧ ∀ q ∈ p.children, q.Sound := by
  constructor
  · exact fun h => ⟨h p (.self p), fun q hq r hr => h r (.inside hq hr)⟩
  · rintro ⟨hself, hinner⟩ q hq
    cases hq with
    | self => exact hself
    | inside hr hq => exact hinner _ hr q hq

end Part

def AllSound (ps : List Part) : Prop := ∀ p ∈ ps, p.Sound

/-- All that the data is made up of is sound. -/
def Sound [Composed α] (a : α) : Prop := AllSound (components a)

section

variable {ps qs : List Part}

@[simp] theorem allSound_nil : AllSound [] := List.forall_mem_nil _

@[simp] theorem allSound_append : AllSound (ps ++ qs) ↔ AllSound ps ∧ AllSound qs :=
  List.forall_mem_append

@[simp] theorem allSound_parts [Composed α] {a : α} : AllSound (components a) ↔ Sound a := .rfl

theorem allSound_single {p : Part} : AllSound [p] ↔ p.Sound := List.forall_mem_singleton

end

section

variable [Composed α] [Composed β]

theorem sound_list {as : List α} : Sound as ↔ ∀ a ∈ as, Sound a := by
  constructor
  · exact fun h a ha p hp => h p (List.mem_flatMap.2 ⟨a, ha, hp⟩)
  · intro h p hp
    obtain ⟨a, ha, hp⟩ := List.mem_flatMap.1 hp
    exact h a ha p hp

@[simp] theorem sound_nil : Sound ([] : List α) := allSound_nil

@[simp] theorem sound_cons {a : α} {as : List α} : Sound (a :: as) ↔ Sound a ∧ Sound as := by
  rw [sound_list, List.forall_mem_cons, ← sound_list]

@[simp] theorem sound_append {as bs : List α} : Sound (as ++ bs) ↔ Sound as ∧ Sound bs := by
  rw [sound_list, List.forall_mem_append, ← sound_list, ← sound_list]

@[simp] theorem sound_reverse {as : List α} : Sound as.reverse ↔ Sound as := by
  simp only [sound_list, List.mem_reverse]

@[simp] theorem sound_none : Sound (none : Option α) := allSound_nil

@[simp] theorem sound_some {a : α} : Sound (some a) ↔ Sound a := by
  show Sound [a] ↔ Sound a
  simp

@[simp] theorem sound_pair {a : α} {b : β} : Sound (a, b) ↔ Sound a ∧ Sound b := allSound_append

end

/-! ### Data that is no part itself -/

@[simp] theorem sound_bound {b : Bound} : Sound b ↔ Sound b.args := .rfl

@[simp] theorem sound_typeParam {p : TypeParam} : Sound p ↔ Sound p.bounds := .rfl

@[simp] theorem sound_fieldPattern {f : FieldPattern} : Sound f ↔ Sound f.pattern := .rfl

@[simp] theorem sound_text {value : String} : Sound (StringPart.text value) := allSound_nil

@[simp] theorem sound_spliced {e : Expr} : Sound (StringPart.expr e) ↔ Sound e := .rfl

@[simp] theorem sound_fieldInit {f : FieldInit} : Sound f ↔ Sound f.value := .rfl

@[simp] theorem sound_matchArm {a : MatchArm} :
    Sound a ↔ Sound a.pattern ∧ Sound a.guard ∧ Sound a.body := by
  show AllSound (components a.pattern ++ components a.guard ++ components a.body) ↔ _
  simp

@[simp] theorem sound_lambdaParam {p : LambdaParam} : Sound p ↔ Sound p.type := .rfl

@[simp] theorem sound_lambda {l : Lambda} : Sound l ↔ Sound l.params ∧ Sound l.ret ∧ Sound l.body := by
  show AllSound (components l.params ++ components l.ret ++ components l.body) ↔ _
  simp

@[simp] theorem sound_selectArm {a : SelectArm} : Sound a ↔ Sound a.source ∧ Sound a.body :=
  allSound_append

@[simp] theorem sound_timeoutArm {a : TimeoutArm} : Sound a ↔ Sound a.duration ∧ Sound a.body :=
  allSound_append

@[simp] theorem sound_catchClause {c : CatchClause} : Sound c ↔ Sound c.handler := .rfl

@[simp] theorem sound_fieldDecl {f : FieldDecl} : Sound f ↔ Sound f.type := .rfl

@[simp] theorem sound_variantKind_unit : Sound VariantKind.unit := allSound_nil

@[simp] theorem sound_variantKind_tuple {types : List TypeExpr} :
    Sound (VariantKind.tuple types) ↔ Sound types := .rfl

@[simp] theorem sound_variantKind_struct {fields : List FieldDecl} :
    Sound (VariantKind.struct fields) ↔ Sound fields := .rfl

@[simp] theorem sound_variant {v : Variant} : Sound v ↔ Sound v.kind := .rfl

@[simp] theorem sound_externFn {f : ExternFn} : Sound f ↔ Sound f.params ∧ Sound f.ret :=
  allSound_append

@[simp] theorem sound_actorInit {i : ActorInit} : Sound i ↔ Sound i.params ∧ Sound i.body :=
  allSound_append

@[simp] theorem sound_wireOptional : Sound WireAttr.optional := allSound_nil

@[simp] theorem sound_wireDeprecated : Sound WireAttr.deprecated := allSound_nil

@[simp] theorem sound_wireReserved {tags : List UInt64} : Sound (WireAttr.reserved tags) := allSound_nil

@[simp] theorem sound_wireDefault {value : Expr} : Sound (WireAttr.default value) ↔ Sound value := .rfl

@[simp] theorem sound_wireField {f : WireField} : Sound f ↔ Sound f.attrs := .rfl

@[simp] theorem sound_wireMember_field {f : WireField} : Sound (WireMember.field f) ↔ Sound f := .rfl

@[simp] theorem sound_wireMember_variant {v : Variant} : Sound (WireMember.variant v) ↔ Sound v := .rfl

@[simp] theorem sound_wireMember_reserved {tags : List UInt64} {span : Span} :
    Sound (WireMember.reserved tags span) := allSound_nil

@[simp] theorem sound_traitMethod {f : FnDecl} : Sound (TraitItem.method f) ↔ Sound f := .rfl

@[simp] theorem sound_assocType {name : String} {bounds : List Bound} {default : Option TypeExpr}
    {span : Span} : Sound (TraitItem.assocType name bounds default span) ↔ Sound bounds ∧ Sound default :=
  allSound_append

@[simp] theorem sound_implMethod {f : FnDecl} : Sound (ImplItem.method f) ↔ Sound f := .rfl

@[simp] theorem sound_implType {name : String} {type : TypeExpr} {span : Span} :
    Sound (ImplItem.assocType name type span) ↔ Sound type := .rfl

@[simp] theorem sound_actorField {isVar : Bool} {name : String} {type : TypeExpr} {init : Option Expr}
    {span : Span} : Sound (ActorMember.field isVar name type init span) ↔ Sound type ∧ Sound init :=
  allSound_append

@[simp] theorem sound_mailbox {mailbox : MailboxDecl} : Sound (ActorMember.mailbox mailbox) := allSound_nil

@[simp] theorem sound_receive {f : FnDecl} : Sound (ActorMember.receive f) ↔ Sound f := .rfl

@[simp] theorem sound_actorMethod {f : FnDecl} : Sound (ActorMember.method f) ↔ Sound f := .rfl

@[simp] theorem sound_child {child : ChildSpec} : Sound (SupervisorMember.child child) := allSound_nil

@[simp] theorem sound_supervisorField {name : String} {value : Expr} {span : Span} :
    Sound (SupervisorMember.field name value span) ↔ Sound value := .rfl

@[simp] theorem sound_program {p : Program} : Sound p ↔ Sound p.items := .rfl

/-! ### Parts -/

/-- What makes a type sound. -/
structure TypeKind.Fits (kind : TypeKind) : Prop where
  shaped : kind.Shaped
  contents : AllSound kind.contents

theorem sound_type {id : NodeId} {span : Span} {kind : TypeKind} (h : kind.Fits) :
    Sound (⟨id, span, kind⟩ : TypeExpr) :=
  allSound_single.2 (Part.sound_iff.2 ⟨⟨h.shaped, nofun, nofun⟩, h.contents⟩)

/-- A sound type is made up as its kind says. -/
theorem TypeKind.fits_of_sound {t : TypeExpr} (h : Sound t) : t.kind.Fits :=
  have hparts := Part.sound_iff.1 (allSound_single.1 h)
  ⟨hparts.1.1, hparts.2⟩

theorem sound_predicate {p : WherePredicate} (hshape : p.bounds ≠ []) (htype : Sound p.type)
    (hbounds : Sound p.bounds) : Sound p :=
  allSound_single.2 (Part.sound_iff.2 ⟨⟨hshape, nofun, nofun⟩, allSound_append.2 ⟨htype, hbounds⟩⟩)

/-- What makes a pattern sound. -/
structure PatternKind.Fits (kind : PatternKind) : Prop where
  shaped : kind.Shaped
  contents : AllSound kind.contents

theorem sound_pattern {id : NodeId} {span : Span} {kind : PatternKind} (h : kind.Fits) :
    Sound (⟨id, span, kind⟩ : Pattern) :=
  allSound_single.2 (Part.sound_iff.2 ⟨⟨h.shaped, nofun, nofun⟩, h.contents⟩)

/-- A sound pattern is made up as its kind says. -/
theorem PatternKind.fits_of_sound {p : Pattern} (h : Sound p) : p.kind.Fits :=
  have hparts := Part.sound_iff.1 (allSound_single.1 h)
  ⟨hparts.1.1, hparts.2⟩

theorem sound_param {p : Param} (hshape : p.type = none → p.name = "self") (h : Sound p.type) : Sound p :=
  allSound_single.2 (Part.sound_iff.2 ⟨⟨hshape, nofun, nofun⟩, h⟩)

theorem sound_block {stmts : List Stmt} {span : Span} (hshape : ∀ s ∈ stmts.dropLast, s.kind.isOpen = false)
    (h : Sound stmts) : Sound (⟨stmts, span⟩ : Block) :=
  allSound_single.2 (Part.sound_iff.2 ⟨⟨hshape, nofun, nofun⟩, h⟩)

/-- What makes a declaration sound. -/
structure ItemKind.Fits (kind : ItemKind) : Prop where
  shaped : kind.Shaped
  contents : AllSound kind.contents

theorem sound_item {i : Item} (h : i.kind.Fits) : Sound i :=
  allSound_single.2 (Part.sound_iff.2 ⟨⟨h.shaped, nofun, nofun⟩, h.contents⟩)

theorem sound_fnDecl {f : FnDecl} (hshape : f.flavor.isGenerator = true → f.ret.isSome = true)
    (htypeParams : Sound f.typeParams) (hparams : Sound f.params) (hret : Sound f.ret)
    (hwhere : Sound f.whereClause) (hbody : Sound f.body) : Sound f := by
  refine allSound_single.2 (Part.sound_iff.2 ⟨⟨hshape, nofun, nofun⟩, ?_⟩)
  show AllSound (components f.typeParams ++ components f.params ++ components f.ret ++
    components f.whereClause ++ components f.body)
  simp only [allSound_append, allSound_parts]
  exact ⟨⟨⟨⟨htypeParams, hparams⟩, hret⟩, hwhere⟩, hbody⟩

/-- What makes a statement sound. -/
structure StmtKind.Fits (kind : StmtKind) : Prop where
  conditions : ∀ e ∈ kind.conditions, Context.beforeBlock.Permits e
  contents : AllSound kind.contents

theorem sound_stmt {id : NodeId} {span : Span} {kind : StmtKind} (h : kind.Fits) :
    Sound (⟨id, span, kind⟩ : Stmt) :=
  allSound_single.2 (Part.sound_iff.2 ⟨⟨trivial, h.conditions, nofun⟩, h.contents⟩)

/-! ### Expressions -/

/-- The expression is sound, and the context rules out nothing in it. -/
structure Context.Fits (c : Context) (e : Expr) : Prop where
  sound : Sound e
  permits : c.Permits e

/-- What makes an expression fit a context. -/
structure Context.FitsKind (c : Context) (kind : ExprKind) : Prop where
  shaped : kind.Shaped
  conditions : ∀ e ∈ kind.conditions, Context.beforeBlock.Permits e
  armHeads : ∀ e ∈ kind.armHeads, Context.beforeArrow.Permits e
  contents : AllSound kind.contents
  allows : c.Allows kind
  bare : ∀ e ∈ kind.bare, c.Permits e

theorem Context.FitsKind.fits {id : NodeId} {span : Span} {kind : ExprKind} (h : c.FitsKind kind) :
    c.Fits ⟨id, span, kind⟩ where
  sound := allSound_single.2 (Part.sound_iff.2 ⟨⟨h.shaped, h.conditions, h.armHeads⟩, h.contents⟩)
  permits := permits_iff.2 ⟨h.allows, h.bare⟩

end ActorFrontend
