import ActorFrontend.Grammar.Items
import ActorFrontend.Proofs.Frames.Statements

/-!
# The frames of declarations
-/

namespace ActorFrontend.Parser

open Framed

variable {α σ : Type} {deepest : Nat} {g g' : Rules}

/-! ## Bodies -/

theorem framed_membersIn {part part' : σ → Parser σ}
    (hpart : ∀ a, Framed deepest (part a) (part' a)) (a : σ) :
    Framed deepest (membersIn part a) (membersIn part' a) :=
  .bind (.expect _) fun _ => .bind (.bodyParts _ hpart a) fun _ => .map (.expect _)

theorem framed_members {member member' : Parser α} (h : Framed deepest member member') :
    Framed deepest (members member) (members member') :=
  .map (framed_membersIn (fun _ => .map h) [])

theorem framed_memberSeparator : Framed deepest memberSeparator memberSeparator :=
  .bind (.accept _) fun _ => .ite (.value _) (.map (.accept _))

theorem framed_separatedMembers {member member' : Parser α} (h : Framed deepest member member') :
    Framed deepest (separatedMembers member) (separatedMembers member') := by
  refine .bind (.expect _) fun _ => .bind (.collect ?_) fun found => .map (.expect _)
  refine .bind (.query _) fun closed => .ite (.value _) ?_
  exact .bind h fun _ => .map framed_memberSeparator

/-! ## Visibility, imports, constants -/

theorem framed_visibility : Framed deepest visibility visibility := by
  refine .bind (.acceptKeyword _) fun isPublic => .ite (.bind (.query _) fun restriction => ?_) (.value _)
  split
  · exact .bind .advance fun _ => .bind .advance fun _ => .map .advance
  · exact .value _

theorem framed_importStep : Framed deepest importStep importStep := by
  refine .bind .kind fun kind => ?_
  split
  · exact .map .advance
  · exact .bind .advance fun _ => .bind .name fun _ => .map (.commaTail _ .name)
  · exact .map .name

theorem framed_importDecl : Framed deepest importDecl importDecl := by
  refine .bind (.expectKeyword _) fun _ => .bind .name fun first =>
    .bind (.loop (fun found => ?_) _) fun found => .map .semicolon
  refine .bind (.accept _) fun goesOn => .ite (.bind framed_importStep fun step => ?_) (.value _)
  cases step <;> exact .value _

theorem framed_constDecl (hg : g.Framed deepest g') : Framed deepest (constDecl g) (constDecl g') :=
  .bind (.expectKeyword _) fun _ => .bind .name fun _ => .bind (.expect _) fun _ =>
    .bind hg.type fun _ => .bind (.expect _) fun _ => .bind (hg.expr 0) fun _ => .map .semicolon

/-! ## Structs, aliases and enums -/

theorem framed_fieldDecl (hg : g.Framed deepest g') : Framed deepest (fieldDecl g) (fieldDecl g') :=
  .bind .start fun start => .bind (.acceptKeyword _) fun _ => .bind .name fun _ =>
    .bind (.expect _) fun _ => .bind hg.type fun _ => .map (.spanFrom start)

theorem framed_fieldDecls (hg : g.Framed deepest g') :
    Framed deepest (fieldDecls g) (fieldDecls g') :=
  framed_separatedMembers (framed_fieldDecl hg)

theorem framed_structRest (hg : g.Framed deepest g') :
    Framed deepest (structRest g) (structRest g') :=
  .bind .name fun _ => .bind (framed_typeParams hg) fun _ => .bind (framed_whereClause hg) fun _ =>
    .map (framed_fieldDecls hg)

theorem framed_typeDecl (hg : g.Framed deepest g') : Framed deepest (typeDecl g) (typeDecl g') := by
  refine .bind (.expectKeyword _) fun _ => .bind (.query _) fun isStruct =>
    .ite (.map (framed_structRest hg)) ?_
  refine .bind .name fun name => .bind (framed_typeParams hg) fun typeParams =>
    .bind (.accept _) fun isAlias => .ite ?_ (.expected _)
  exact .bind hg.type fun _ => .map .semicolon

theorem framed_structDecl (hg : g.Framed deepest g') :
    Framed deepest (structDecl g) (structDecl g') :=
  .bind .advance fun _ => framed_structRest hg

theorem framed_variantKind (hg : g.Framed deepest g') :
    Framed deepest (variantKind g) (variantKind g') :=
  .bind (.accept _) fun _ => .ite (.map (.commaList _ hg.type)) <|
    .bind (.query _) fun _ => .ite (.map (framed_fieldDecls hg)) (.value _)

theorem framed_variant (hg : g.Framed deepest g') : Framed deepest (variant g) (variant g') :=
  .bind .start fun start => .bind .name fun _ => .bind (framed_variantKind hg) fun _ =>
    .map (.spanFrom start)

theorem framed_enumDecl (hg : g.Framed deepest g') : Framed deepest (enumDecl g) (enumDecl g') :=
  .bind (.expectKeyword _) fun _ => .bind .name fun _ => .bind (framed_typeParams hg) fun _ =>
    .bind (framed_whereClause hg) fun _ => .map (framed_separatedMembers (framed_variant hg))

/-! ## Wire types -/

theorem framed_closeLists (depth : Nat) (type : WireType) :
    Framed deepest (closeLists depth type) (closeLists depth type) := by
  induction depth generalizing type with
  | zero => exact .value _
  | succ depth ih => exact .bind (.expect _) fun _ => ih _

theorem framed_wireType : Framed deepest wireType wireType := by
  refine .bind (.loop (fun found => ?_) _) fun found => framed_closeLists _ _
  refine .bind (.valueOf _ _) fun name => .bind (.query _) fun isList => .ite ?_ (.value _)
  exact .map .advance

theorem framed_tagList : Framed deepest tagList tagList :=
  .bind (.expect _) fun _ => .bind .integer fun _ => .map (.commaTail _ .integer)

theorem framed_wireAttr (hg : g.Framed deepest g') : Framed deepest (wireAttr g) (wireAttr g') := by
  refine .bind (.acceptWord _) fun isOptional => .ite (.value _) ?_
  refine .bind (.acceptWord _) fun isDeprecated => .ite (.value _) ?_
  refine .bind (.acceptWord _) fun isDefault => .ite ?_ ?_
  · exact .bind (.expect _) fun _ => .bind (hg.expr 0) fun _ => .map (.expect _)
  · exact .bind (.acceptWord _) fun _ => .ite (.map framed_tagList) (.value _)

theorem framed_wireField (hg : g.Framed deepest g') : Framed deepest (wireField g) (wireField g') := by
  refine .bind .start fun start => .bind .name fun name => .bind (.expect _) fun _ =>
    .bind framed_wireType fun type => .bind (.optional (.accept _) .integer) fun tag =>
    .bind (.collect (.bind (framed_wireAttr hg) fun attr => ?_)) fun attrs => .map (.spanFrom start)
  cases attr <;> exact .value _

theorem framed_reservedTags : Framed deepest reservedTags reservedTags :=
  .bind .start fun start => .bind .advance fun _ => .bind framed_tagList fun _ =>
    .map (.spanFrom start)

theorem framed_wireMember (hg : g.Framed deepest g') :
    Framed deepest (wireMember g) (wireMember g') :=
  .bind (.query _) fun _ => .ite framed_reservedTags <|
    .bind (.query _) fun _ => .ite (.map (framed_wireField hg)) (.map (framed_variant hg))

theorem framed_wireKind : Framed deepest wireKind wireKind :=
  .bind (.acceptKeyword _) fun _ => .ite (.value _) <|
    .bind (.acceptKeyword _) fun _ => .ite (.value _) (.expected _)

theorem framed_wireDecl (hg : g.Framed deepest g') : Framed deepest (wireDecl g) (wireDecl g') :=
  .bind (.expectKeyword _) fun _ => .bind framed_wireKind fun _ => .bind .name fun _ =>
    .map (framed_separatedMembers (framed_wireMember hg))

/-! ## Functions -/

theorem framed_param (hg : g.Framed deepest g') : Framed deepest (param g) (param g') := by
  refine .bind .start fun start => .bind (.acceptKeyword _) fun isSelf => .ite ?_ ?_
  · exact .bind (framed_typeAfterColon hg) fun _ => .map (.spanFrom start)
  · exact .bind .name fun _ => .bind (.expect _) fun _ => .bind hg.type fun _ =>
      .map (.spanFrom start)

theorem framed_params (hg : g.Framed deepest g') : Framed deepest (params g) (params g') :=
  .bind (.expect _) fun _ => .commaList _ (framed_param hg)

theorem framed_variadicParams (hg : g.Framed deepest g') :
    Framed deepest (variadicParams g) (variadicParams g') := by
  refine .bind (.expect _) fun _ => .bind (.loop (fun found => ?_) _) fun found => .map (.expect _)
  refine .bind (.query _) fun closed => .ite (.value _) ?_
  refine .bind (.accept _) fun dots => .ite (.value _) ?_
  exact .bind (framed_param hg) fun _ => .map (.accept _)

theorem framed_fnBody (hg : g.Framed deepest g') (rule : BodyRule) :
    Framed deepest (fnBody g rule) (fnBody g' rule) :=
  .bind (.query _) fun _ => .ite (.map .advance) (.map hg.block)

theorem framed_fnResult (hg : g.Framed deepest g') (flavor : FnFlavor) :
    Framed deepest (fnResult g flavor) (fnResult g' flavor) :=
  .bind (framed_resultType hg) fun _ => .ite (.expected _) (.value _)

theorem framed_fnRest (hg : g.Framed deepest g') (start : Nat) (flavor : FnFlavor)
    (rule : BodyRule) :
    Framed deepest (fnRest g start flavor rule) (fnRest g' start flavor rule) :=
  .bind .name fun _ => .bind (framed_typeParams hg) fun _ => .bind (framed_params hg) fun _ =>
    .bind (framed_fnResult hg flavor) fun _ => .bind (framed_whereClause hg) fun _ =>
    .bind (framed_fnBody hg rule) fun _ => .map (.spanFrom start)

theorem framed_fnDecl (hg : g.Framed deepest g') (rule : BodyRule) :
    Framed deepest (fnDecl g rule) (fnDecl g' rule) :=
  .bind .start fun start => .bind (.acceptKeyword _) fun _ => .bind (.acceptKeyword _) fun _ =>
    .bind (.expectKeyword _) fun _ => framed_fnRest hg start _ rule

theorem framed_externFn (hg : g.Framed deepest g') : Framed deepest (externFn g) (externFn g') :=
  .bind .start fun start => .bind (.expectKeyword _) fun _ => .bind .name fun _ =>
    .bind (framed_variadicParams hg) fun _ => .bind (framed_resultType hg) fun _ =>
    .bind (.accept _) fun _ => .bind .semicolon fun _ => .map (.spanFrom start)

theorem framed_externBlock (hg : g.Framed deepest g') :
    Framed deepest (externBlock g) (externBlock g') :=
  .bind (.expectKeyword _) fun _ => .bind .string fun _ => .map (framed_members (framed_externFn hg))

/-! ## Traits and implementations -/

theorem framed_traitType (hg : g.Framed deepest g') : Framed deepest (traitType g) (traitType g') :=
  .bind .start fun start => .bind .advance fun _ => .bind .name fun _ =>
    .bind (framed_boundsAfterColon hg) fun _ => .bind (.optional (.accept _) hg.type) fun _ =>
    .bind .semicolon fun _ => .map (.spanFrom start)

theorem framed_traitItem (hg : g.Framed deepest g') : Framed deepest (traitItem g) (traitItem g') :=
  .bind (.query _) fun _ => .ite (framed_traitType hg) (.map (framed_fnDecl hg .optional))

theorem framed_traitDecl (hg : g.Framed deepest g') : Framed deepest (traitDecl g) (traitDecl g') :=
  .bind (.expectKeyword _) fun _ => .bind .name fun _ => .bind (framed_typeParams hg) fun _ =>
    .bind (framed_boundsAfterColon hg) fun _ => .bind (framed_whereClause hg) fun _ =>
    .map (framed_members (framed_traitItem hg))

theorem framed_implType (hg : g.Framed deepest g') : Framed deepest (implType g) (implType g') :=
  .bind .start fun start => .bind .advance fun _ => .bind .name fun _ => .bind (.expect _) fun _ =>
    .bind hg.type fun _ => .bind .semicolon fun _ => .map (.spanFrom start)

theorem framed_implItem (hg : g.Framed deepest g') : Framed deepest (implItem g) (implItem g') :=
  .bind (.query _) fun _ => .ite (framed_implType hg) (.map (framed_fnDecl hg .required))

theorem framed_traitOf (type : TypeExpr) : Framed deepest (traitOf type) (traitOf type) := by
  obtain ⟨id, span, kind⟩ := type
  cases kind with
  | named path args => exact .value _
  | _ => exact .fails _

theorem framed_implHead (hg : g.Framed deepest g') : Framed deepest (implHead g) (implHead g') := by
  refine .bind hg.type fun first => .bind (.acceptKeyword _) fun ofTrait => .ite ?_ (.value _)
  exact .bind (framed_traitOf first) fun _ => .map hg.type

theorem framed_implDecl (hg : g.Framed deepest g') : Framed deepest (implDecl g) (implDecl g') :=
  .bind (.expectKeyword _) fun _ => .bind (framed_typeParams hg) fun _ =>
    .bind (framed_implHead hg) fun _ => .bind (framed_whereClause hg) fun _ =>
    .map (framed_members (framed_implItem hg))

/-! ## Actors -/

theorem framed_overflowFallback : Framed deepest overflowFallback overflowFallback := .valueOf _ _

theorem framed_overflowPolicy : Framed deepest overflowPolicy overflowPolicy := by
  refine .bind (.acceptWord _) fun coalesces => .ite ?_ (.map (.valueOf _ _))
  exact .bind (.expect _) fun _ => .bind .name fun _ => .bind (.expect _) fun _ =>
    .map (.optional (.acceptWord _) framed_overflowFallback)

theorem framed_mailboxDecl : Framed deepest mailboxDecl mailboxDecl :=
  .bind .start fun start => .bind (.expectKeyword _) fun _ => .bind .integer fun _ =>
    .bind (.optional (.acceptWord _) framed_overflowPolicy) fun _ => .bind .semicolon fun _ =>
    .map (.spanFrom start)

theorem framed_actorField (hg : g.Framed deepest g') :
    Framed deepest (actorField g) (actorField g') :=
  .bind .start fun start => .bind (.query _) fun _ => .bind .advance fun _ => .bind .name fun _ =>
    .bind (.expect _) fun _ => .bind hg.type fun _ => .bind (.optional (.accept _) (hg.expr 0)) fun _ =>
    .bind .semicolon fun _ => .map (.spanFrom start)

theorem framed_receiveFn (hg : g.Framed deepest g') : Framed deepest (receiveFn g) (receiveFn g') :=
  .bind .start fun start => .bind .advance fun _ => .bind (.acceptKeyword _) fun _ =>
    .bind (.expectKeyword _) fun _ => .map (framed_fnRest hg start _ .required)

theorem framed_actorMember (hg : g.Framed deepest g') :
    Framed deepest (actorMember g) (actorMember g') := by
  refine .bind .kind fun kind => ?_
  split
  iterate 2 exact framed_actorField hg
  · exact .map framed_mailboxDecl
  · exact framed_receiveFn hg
  iterate 3 exact .map (framed_fnDecl hg .required)
  · exact .expected _

theorem framed_actorInit (hg : g.Framed deepest g') : Framed deepest (actorInit g) (actorInit g') :=
  .bind .start fun start => .bind .advance fun _ => .bind (framed_params hg) fun _ =>
    .bind hg.block fun _ => .map (.spanFrom start)

theorem framed_actorPart (hg : g.Framed deepest g') (found : Option ActorInit × List ActorMember) :
    Framed deepest (actorPart g found) (actorPart g' found) := by
  refine .bind (.query _) fun isInit => .ite ?_ (.map (framed_actorMember hg))
  refine .bind .span fun keyword => .bind (framed_actorInit hg) fun decl => ?_
  split
  · exact .value _
  · exact .bind (.record _) fun _ => .value _

theorem framed_actorDecl (hg : g.Framed deepest g') : Framed deepest (actorDecl g) (actorDecl g') :=
  .bind (.expectKeyword _) fun _ => .bind .name fun _ => .bind (framed_typeParams hg) fun _ =>
    .bind (framed_boundsAfterColon hg) fun _ => .bind (framed_whereClause hg) fun _ =>
    .map (framed_membersIn (framed_actorPart hg) _)

/-! ## Supervisors -/

theorem framed_namedArg (ofName? : String → Option α) (wanted : Expected) :
    Framed deepest (namedArg ofName? wanted) (namedArg ofName? wanted) :=
  .bind (.expect _) fun _ => .bind (.valueOf _ _) fun _ => .map (.expect _)

theorem framed_restartBudget : Framed deepest restartBudget restartBudget :=
  .bind (.expect _) fun _ => .bind .integer fun _ => .bind (.expect _) fun _ =>
    .bind framed_duration fun _ => .map (.expect _)

theorem framed_restartSpec : Framed deepest restartSpec restartSpec :=
  .bind (framed_namedArg _ _) fun _ =>
    .bind (.optional (.acceptWord _) framed_restartBudget) fun _ =>
    .map (.optional (.acceptWord _) (framed_namedArg _ _))

theorem framed_childSpec : Framed deepest childSpec childSpec :=
  .bind .start fun start => .bind (.expectWord _) fun _ => .bind .name fun _ =>
    .bind (.expect _) fun _ => .bind .name fun _ =>
    .bind (.optional (.acceptWord _) framed_restartSpec) fun _ => .bind .semicolon fun _ =>
    .map (.spanFrom start)

theorem framed_supervisorField (hg : g.Framed deepest g') :
    Framed deepest (supervisorField g) (supervisorField g') :=
  .bind .start fun start => .bind .name fun _ => .bind (.expect _) fun _ =>
    .bind (hg.expr 0) fun _ => .bind (.spanFrom start) fun _ => .map framed_memberSeparator

theorem framed_supervisorMember (hg : g.Framed deepest g') :
    Framed deepest (supervisorMember g) (supervisorMember g') :=
  .bind (.query _) fun _ => .ite (.map framed_childSpec) (framed_supervisorField hg)

theorem framed_supervisorDecl (hg : g.Framed deepest g') :
    Framed deepest (supervisorDecl g) (supervisorDecl g') :=
  .bind (.expectKeyword _) fun _ => .bind .name fun _ =>
    .map (framed_members (framed_supervisorMember hg))

/-! ## Items and programs -/

theorem framed_itemKind (hg : g.Framed deepest g') : Framed deepest (itemKind g) (itemKind g') := by
  refine .bind .kind fun kind => ?_
  split
  · exact .map framed_importDecl
  · exact .map (framed_constDecl hg)
  · exact framed_typeDecl hg
  · exact .map (framed_structDecl hg)
  · exact .map (framed_enumDecl hg)
  · exact .map (framed_wireDecl hg)
  · exact .map (framed_traitDecl hg)
  · exact .map (framed_implDecl hg)
  iterate 3 exact .map (framed_fnDecl hg .required)
  · exact .map (framed_externBlock hg)
  · exact .map (framed_actorDecl hg)
  · exact .map (framed_supervisorDecl hg)
  · exact .expected _

theorem framed_item (hg : g.Framed deepest g') : Framed deepest (item g) (item g') :=
  .bind .start fun _ => .bind framed_visibility fun _ => .bind (framed_itemKind hg) fun _ =>
    .node _ _

theorem framed_program (hg : g.Framed deepest g') : Framed deepest (program g) (program g') := by
  refine .bind (.loop (fun items => ?_) _) fun items => .map .span
  refine .bind (.query _) fun ended => .ite (.value _) (.resilient _ ?_)
  exact .map (framed_item hg)

end ActorFrontend.Parser
