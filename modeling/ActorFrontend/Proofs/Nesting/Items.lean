import ActorFrontend.Proofs.Invariance
import ActorFrontend.Proofs.Nesting.Statements

/-!
# What nests in declarations and programs
-/

namespace ActorFrontend

variable {R : Regime} {n : Nat} {g : Rules} {loud : Bool}

namespace Parser

open Makes

/-! ## Parts that hold no tree -/

theorem keeps_memberSeparator : memberSeparator.Keeps loud := by
  refine .bind (keeps_acceptIf _) fun found _ => ?_
  split
  · exact .pure _
  · exact .bind (keeps_acceptIf _) fun _ _ => .pure _

theorem keeps_visibility : visibility.Keeps loud := by
  have h : Alike (⟨true, true, true⟩ : Likeness) loud false none .unread .unread (· = ·)
      visibility visibility :=
    alike_visibility
  exact h.keepAlike.left

theorem keeps_importDecl : importDecl.Keeps true := by
  have h : Alike (⟨true, true, true⟩ : Likeness) true false none .unread .closed (· = ·)
      importDecl importDecl :=
    alike_importDecl rfl
  exact h.keepAlike.left

theorem keeps_wireType : wireType.Keeps loud := by
  have h : Alike (⟨true, true, true⟩ : Likeness) loud false none .unread .unread (· = ·)
      wireType wireType :=
    alike_wireType rfl
  exact h.keepAlike.left

theorem keeps_tagList : tagList.Keeps loud := by
  have h : Alike (⟨true, true, true⟩ : Likeness) loud false none .unread .behind (Like ⟨true, true, true⟩)
      tagList tagList := alike_tagList rfl
  exact h.keepAlike.left

theorem keeps_wireKind : wireKind.Keeps loud := by
  have h : Alike (⟨true, true, true⟩ : Likeness) loud false none .unread .behind (· = ·)
      wireKind wireKind :=
    alike_wireKind rfl
  exact h.keepAlike.left

theorem keeps_mailboxDecl : mailboxDecl.Keeps true := by
  have h : Alike (⟨true, true, true⟩ : Likeness) true false none .unread .closed (Like ⟨true, true, true⟩)
      mailboxDecl mailboxDecl := alike_mailboxDecl rfl
  exact h.keepAlike.left

theorem keeps_childSpec : childSpec.Keeps true := by
  have h : Alike (⟨true, true, true⟩ : Likeness) true false none .unread .closed (Like ⟨true, true, true⟩)
      childSpec childSpec := alike_childSpec rfl
  exact h.keepAlike.left

/-! ## Bodies -/

section

variable {α σ : Type} {member : Parser α} {part : σ → Parser σ} {a : σ} {holds : σ → Prop}

theorem makes_membersIn (h : ∀ a, Makes R true (fun b => holds a → holds b) (part a)) (ha : holds a) :
    Makes R true holds (membersIn part a) :=
  .require (.bind (.bodyParts h ha) fun _ => .require (.value id))

variable [Shelled α]

theorem makes_members (h : Makes R true (R.Good n) member) :
    Makes R true (R.Good n) (members member) := by
  have hmembers : Makes R true (R.Good n) (membersIn (fun found => do
      let next ← member
      pure (next :: found)) []) := makes_membersIn (fun found => .found h found) Regime.all_nil
  exact .bind hmembers fun _ => .value Regime.good_reverse

theorem makes_separatedMembers (h : Makes R loud (R.Good n) member) :
    Makes R loud (R.Good n) (separatedMembers member) := by
  refine .require (.bind (.collect (n := n) (.query fun ended => ?_)) fun found => .require (.value id))
  split
  · exact .value Regime.all_nil
  · exact .bind h fun next => .pass keeps_memberSeparator fun _ => .value Regime.good_single

end

/-! ## Constants, structs, aliases and enums -/

theorem makes_constDecl (hg : g.Make R n) :
    Makes R true (fun d : ConstDecl => R.All n (shells d.type ++ shells d.value)) (constDecl g) := by
  refine .require (.valueOf fun name => .require (.bind hg.type.louder fun type => .require ?_))
  refine .bind (makes_expr hg) fun value => .semicolon (.value fun hvalue htype => ?_)
  exact Regime.all_append.2 ⟨htype, hvalue⟩

theorem makes_fieldDecl (hg : g.Make R n) : Makes R false (R.Good n) (fieldDecl g) :=
  .start fun _ => .acceptIf fun _ => .valueOf fun _ => .require (.bind hg.type fun _ =>
    .spanFrom fun _ => .value id)

theorem makes_fieldDecls (hg : g.Make R n) : Makes R false (R.Good n) (fieldDecls g) :=
  makes_separatedMembers (makes_fieldDecl hg)

theorem makes_structRest (hg : g.Make R n) :
    Makes R false (fun d => R.All n (ItemKind.struct d).shells) (structRest g) := by
  refine .valueOf fun name => .bind (makes_typeParams hg) fun typeParams => ?_
  refine .bind (makes_whereClause hg) fun whereClause => .bind (makes_fieldDecls hg) fun fields => ?_
  exact .value fun hfields hwhere htypeParams => by simp_all

theorem makes_typeDecl (hg : g.Make R n) : Makes R true (R.Good n) (typeDecl g) := by
  refine .require (.query fun isStruct => ?_)
  split
  · exact .bind (makes_structRest hg).louder fun decl => .value id
  · refine .valueOf fun name => .bind (makes_typeParams hg).louder fun typeParams => ?_
    refine .acceptIf fun found => ?_
    split
    · refine .bind hg.type.louder fun type => .semicolon (.value fun htype htypeParams => ?_)
      exact Regime.all_append.2 ⟨htypeParams, htype⟩
    · exact .expected _

theorem makes_structDecl (hg : g.Make R n) :
    Makes R false (fun d => R.All n (ItemKind.struct d).shells) (structDecl g) :=
  .advance (makes_structRest hg)

theorem makes_variantKind (hg : g.Make R n) : Makes R false (R.Good n) (variantKind g) := by
  refine .acceptIf fun tuple => ?_
  split
  · exact .bind (.commaList hg.type) fun types => .value id
  · refine .query fun struct => ?_
    split
    · exact .bind (makes_fieldDecls hg) fun fields => .value id
    · exact .value Regime.all_nil

theorem makes_variant (hg : g.Make R n) : Makes R false (R.Good n) (variant g) :=
  .start fun _ => .valueOf fun _ => .bind (makes_variantKind hg) fun _ => .spanFrom fun _ => .value id

theorem makes_enumDecl (hg : g.Make R n) :
    Makes R false (fun d => R.All n (ItemKind.enum d).shells) (enumDecl g) := by
  refine .require (.valueOf fun name => .bind (makes_typeParams hg) fun typeParams => ?_)
  refine .bind (makes_whereClause hg) fun whereClause => ?_
  refine .bind (makes_separatedMembers (makes_variant hg)) fun variants => ?_
  exact .value fun hvariants hwhere htypeParams => by simp_all

/-! ## Wire types -/

theorem makes_wireAttr (hg : g.Make R n) : Makes R true (R.Good n) (wireAttr g) := by
  refine .acceptIf fun isOptional => ?_
  split
  · exact .value Regime.all_nil
  refine .acceptIf fun isDeprecated => ?_
  split
  · exact .value Regime.all_nil
  refine .acceptIf fun isDefault => ?_
  split
  · refine .require (.bind (makes_expr hg) fun value => .require (.value fun h => ?_))
    simpa using h
  refine .acceptIf fun isReserved => ?_
  split
  · exact .pass keeps_tagList fun _ => .value Regime.all_nil
  · exact .value Regime.all_nil

theorem makes_wireField (hg : g.Make R n) : Makes R true (R.Good n) (wireField g) := by
  have hattrs : Makes R true (R.Good n) (collect (attrTurn g)) := by
    refine .collect (.bind (makes_wireAttr hg) fun attr => ?_)
    cases attr with
    | some attr => exact .value fun h => by simpa using h
    | none => exact .value fun _ => Regime.all_nil
  have htag : (optional (accept .atSign) integer).Keeps true := by
    refine .bind (keeps_acceptIf _) fun found _ => ?_
    split
    · exact .bind (keeps_valueOf _ _) fun _ _ => .pure _
    · exact .pure _
  refine .start fun start => .valueOf fun name => .require (.pass keeps_wireType fun type => ?_)
  exact .pass htag fun tag => .bind hattrs fun attrs => .spanFrom fun span => .value id

theorem makes_reservedTags : Makes R true (R.Good n) reservedTags :=
  .start fun _ => .advance (.pass keeps_tagList fun _ => .spanFrom fun _ => .value Regime.all_nil)

theorem makes_wireMember (hg : g.Make R n) : Makes R true (R.Good n) (wireMember g) := by
  refine .query fun isReserved => ?_
  split
  · exact makes_reservedTags
  · refine .query fun isField => ?_
    split
    · exact .bind (makes_wireField hg) fun field => .value id
    · exact .bind (makes_variant hg).louder fun variant => .value id

theorem makes_wireDecl (hg : g.Make R n) :
    Makes R true (fun d => R.All n (ItemKind.wire d).shells) (wireDecl g) :=
  .require (.pass keeps_wireKind fun _ => .valueOf fun _ =>
    .bind (makes_separatedMembers (makes_wireMember hg)) fun _ => .value id)

/-! ## Functions -/

theorem makes_param (hg : g.Make R n) : Makes R false (R.Good n) (param g) := by
  refine .start fun start => .acceptIf fun isSelf => ?_
  split
  · exact .bind (makes_typeAfterColon hg) fun type => .spanFrom fun span => .value id
  · refine .valueOf fun name => .require (.bind hg.type fun type => .spanFrom fun span => .value fun h => ?_)
    simpa using h

theorem makes_params (hg : g.Make R n) : Makes R false (R.Good n) (params g) :=
  .require (.commaList (makes_param hg))

theorem makes_variadicParams (hg : g.Make R n) :
    Makes R false (fun found => R.Good n found.1) (variadicParams g) := by
  have hparams : Makes R false (fun found : List Param × Bool => R.Good n found.1)
      (loop (variadicTurn g) (([] : List Param), false)) := by
    refine .loop (fun found => .query fun closed => ?_) Regime.all_nil
    split
    · exact .value id
    · refine .acceptIf fun dots => ?_
      split
      · exact .value id
      · refine .bind (makes_param hg) fun next => .acceptIf fun again => .value fun hnext hfound => ?_
        simp_all
  exact .require (.bind hparams fun found => .require (.value Regime.good_reverse))

theorem makes_fnBody (hg : g.Make R n) (rule : BodyRule) : Makes R true (R.Good n) (fnBody g rule) := by
  refine .query fun missing => ?_
  split
  · exact .advance (.value Regime.all_nil)
  · exact .bind hg.block fun body => .value fun h => by simpa using h

theorem makes_fnResult (hg : g.Make R n) (flavor : FnFlavor) :
    Makes R false (R.Good n) (fnResult g flavor) := by
  refine .bind (makes_resultType hg) fun ret => ?_
  split
  · exact .expected _
  · exact .value id

theorem makes_fnRest (hg : g.Make R n) (start : Nat) (flavor : FnFlavor) (rule : BodyRule) :
    Makes R true (R.Good n) (fnRest g start flavor rule) := by
  refine .valueOf fun name => .bind (makes_typeParams hg).louder fun typeParams => ?_
  refine .bind (makes_params hg).louder fun params => .bind (makes_fnResult hg flavor).louder fun ret => ?_
  refine .bind (makes_whereClause hg).louder fun whereClause => .bind (makes_fnBody hg rule) fun body => ?_
  refine .spanFrom fun span => .value fun hbody hwhere hret hparams htypeParams => ?_
  simp_all

theorem makes_fnDecl (hg : g.Make R n) (rule : BodyRule) : Makes R true (R.Good n) (fnDecl g rule) :=
  .start fun start => .acceptIf fun _ => .acceptIf fun _ => .require (makes_fnRest hg start _ rule)

theorem makes_externFn (hg : g.Make R n) : Makes R true (R.Good n) (externFn g) := by
  refine .start fun start => .require (.valueOf fun name => ?_)
  refine .bind (makes_variadicParams hg).louder fun params => .bind (makes_resultType hg).louder fun ret => ?_
  refine .acceptIf fun dots => .semicolon (.spanFrom fun span => .value fun hret hparams => ?_)
  simp_all

theorem makes_externBlock (hg : g.Make R n) :
    Makes R true (fun d => R.All n (ItemKind.externBlock d).shells) (externBlock g) :=
  .require (.valueOf fun _ => .bind (makes_members (makes_externFn hg)) fun _ => .value id)

/-! ## Traits and implementations -/

theorem makes_traitType (hg : g.Make R n) : Makes R true (R.Good n) (traitType g) := by
  refine .start fun start => .advance (.valueOf fun name => ?_)
  refine .bind (makes_boundsAfterColon hg).louder fun bounds => ?_
  refine .bind (.optional (keeps_acceptIf _) hg.type.louder) fun default => .semicolon ?_
  exact .spanFrom fun span => .value fun hdefault hbounds => Regime.all_append.2 ⟨hbounds, hdefault⟩

theorem makes_traitItem (hg : g.Make R n) : Makes R true (R.Good n) (traitItem g) := by
  refine .query fun isType => ?_
  split
  · exact makes_traitType hg
  · exact .bind (makes_fnDecl hg .optional) fun decl => .value id

theorem makes_traitDecl (hg : g.Make R n) :
    Makes R true (fun d => R.All n (ItemKind.trait d).shells) (traitDecl g) := by
  refine .require (.valueOf fun name => .bind (makes_typeParams hg).louder fun typeParams => ?_)
  refine .bind (makes_boundsAfterColon hg).louder fun supertraits => ?_
  refine .bind (makes_whereClause hg).louder fun whereClause => ?_
  refine .bind (makes_members (makes_traitItem hg)) fun items => ?_
  exact .value fun hitems hwhere hsupertraits htypeParams => by simp_all

theorem makes_implType (hg : g.Make R n) : Makes R true (R.Good n) (implType g) :=
  .start fun _ => .advance (.valueOf fun _ => .require (.bind hg.type.louder fun _ =>
    .semicolon (.spanFrom fun _ => .value id)))

theorem makes_implItem (hg : g.Make R n) : Makes R true (R.Good n) (implItem g) := by
  refine .query fun isType => ?_
  split
  · exact makes_implType hg
  · exact .bind (makes_fnDecl hg .required) fun decl => .value id

/-- The arguments of a trait stand one level higher than in the type that names it. -/
theorem makes_traitOf {type : TypeExpr} (h : R.Good n type) : Makes R false (R.Good n) (traitOf type) := by
  obtain ⟨id, span, kind⟩ := type
  cases kind with
  | named path args =>
    have hargs : R.All n (TypeKind.named path args).shells := R.good_inner (h _ List.mem_cons_self)
    exact .value hargs
  | _ => exact .fails

theorem makes_implHead (hg : g.Make R n) : Makes R false (R.Good n) (implHead g) := by
  refine .bind hg.type fun first => .acceptIf fun isTrait => ?_
  have hkeeps : (traitOf first).Keeps false := by
    obtain ⟨id, span, kind⟩ := first
    cases kind <;> exact fun _ s => .refl s
  split
  · refine .assuming (.bind hkeeps fun _ _ => .bind hg.type.keeps fun _ _ => .pure _) fun hfirst => ?_
    refine .bind (makes_traitOf hfirst) fun traitRef => .bind hg.type fun selfType => ?_
    exact .value fun hself htrait => by simp_all
  · exact .value fun h => by simpa using h

theorem makes_implDecl (hg : g.Make R n) :
    Makes R true (fun d => R.All n (ItemKind.impl d).shells) (implDecl g) := by
  refine .require (.bind (makes_typeParams hg).louder fun typeParams => ?_)
  refine .bind (makes_implHead hg).louder fun head => ?_
  refine .bind (makes_whereClause hg).louder fun whereClause => ?_
  refine .bind (makes_members (makes_implItem hg)) fun items => ?_
  refine .value fun hitems hwhere hhead htypeParams => ?_
  obtain ⟨htrait, hself⟩ := Regime.all_append.1 hhead
  simp_all

/-! ## Actors -/

theorem makes_actorField (hg : g.Make R n) : Makes R true (R.Good n) (actorField g) := by
  refine .start fun start => .query fun isVar => .advance (.valueOf fun name => .require ?_)
  refine .bind hg.type.louder fun type => ?_
  refine .bind (.optional (keeps_acceptIf _) (makes_expr hg)) fun init => .semicolon ?_
  exact .spanFrom fun span => .value fun hinit htype => Regime.all_append.2 ⟨htype, hinit⟩

theorem makes_receiveFn (hg : g.Make R n) : Makes R true (R.Good n) (receiveFn g) :=
  .start fun _ => .advance (.acceptIf fun _ => .require (.bind (makes_fnRest hg _ _ _) fun _ => .value id))

theorem makes_actorMember (hg : g.Make R n) : Makes R true (R.Good n) (actorMember g) := by
  have hmethod : Makes R true (R.Good n) (do pure (.method (← fnDecl g .required)) : Parser ActorMember) :=
    .bind (makes_fnDecl hg .required) fun _ => .value id
  refine .kind fun k => ?_
  split
  · exact makes_actorField hg
  · exact makes_actorField hg
  · exact .pass keeps_mailboxDecl fun _ => .value Regime.all_nil
  · exact makes_receiveFn hg
  · exact hmethod
  · exact hmethod
  · exact hmethod
  · exact .expected _

theorem makes_actorInit (hg : g.Make R n) : Makes R true (R.Good n) (actorInit g) := by
  refine .start fun start => .advance (.bind (makes_params hg).louder fun params => ?_)
  refine .bind hg.block fun body => .spanFrom fun span => .value fun hbody hparams => ?_
  simp_all

theorem makes_actorPart (hg : g.Make R n) (found : Option ActorInit × List ActorMember) :
    Makes R true (fun after => R.Good n found → R.Good n after) (actorPart g found) := by
  refine .query fun isInit => ?_
  split
  · refine .span fun keyword => .bind (makes_actorInit hg) fun decl => ?_
    obtain ⟨first, members⟩ := found
    cases first with
    | none => exact .value fun hdecl hfound => by simp_all
    | some first => exact .pass (fun setting s => .record setting _ s) fun _ => .value fun _ hfound => hfound
  · refine .bind (makes_actorMember hg) fun next => .value fun hnext hfound => ?_
    obtain ⟨hinit, hmembers⟩ := Regime.all_append.1 hfound
    simp_all

theorem makes_actorDecl (hg : g.Make R n) :
    Makes R true (fun d => R.All n (ItemKind.actor d).shells) (actorDecl g) := by
  refine .require (.valueOf fun name => .bind (makes_typeParams hg).louder fun typeParams => ?_)
  refine .bind (makes_boundsAfterColon hg).louder fun bounds => ?_
  refine .bind (makes_whereClause hg).louder fun whereClause => ?_
  refine .bind (makes_membersIn (makes_actorPart hg) Regime.all_nil) fun found => ?_
  refine .value fun hfound hwhere hbounds htypeParams => ?_
  obtain ⟨hinit, hmembers⟩ := Regime.all_append.1 hfound
  have hmembers := Regime.good_reverse hmembers
  simp_all

/-! ## Supervisors -/

theorem makes_supervisorField (hg : g.Make R n) : Makes R true (R.Good n) (supervisorField g) :=
  .start fun _ => .valueOf fun _ => .require (.bind (makes_expr hg) fun _ => .spanFrom fun _ =>
    .pass keeps_memberSeparator fun _ => .value id)

theorem makes_supervisorMember (hg : g.Make R n) : Makes R true (R.Good n) (supervisorMember g) := by
  refine .query fun isChild => ?_
  split
  · exact .pass keeps_childSpec fun _ => .value Regime.all_nil
  · exact makes_supervisorField hg

theorem makes_supervisorDecl (hg : g.Make R n) :
    Makes R true (fun d => R.All n (ItemKind.supervisor d).shells) (supervisorDecl g) :=
  .require (.valueOf fun _ => .bind (makes_members (makes_supervisorMember hg)) fun _ => .value id)

/-! ## Programs -/

theorem makes_itemKind (hg : g.Make R n) : Makes R true (R.Good n) (itemKind g) := by
  have hmade {α : Type} {p : Parser α} {make : α → ItemKind}
      (h : Makes R true (fun a => R.All n (make a).shells) p) :
      Makes R true (R.Good n) (do pure (make (← p)) : Parser ItemKind) :=
    .bind h fun _ => .value id
  have hfn : Makes R true (R.Good n) (do pure (.fn (← fnDecl g .required)) : Parser ItemKind) :=
    hmade (makes_fnDecl hg .required)
  refine .kind fun k => ?_
  split
  · exact .pass keeps_importDecl fun _ => .value Regime.all_nil
  · exact hmade (makes_constDecl hg)
  · exact makes_typeDecl hg
  · exact hmade (makes_structDecl hg).louder
  · exact hmade (makes_enumDecl hg).louder
  · exact hmade (makes_wireDecl hg)
  · exact hmade (makes_traitDecl hg)
  · exact hmade (makes_implDecl hg)
  · exact hfn
  · exact hfn
  · exact hfn
  · exact hmade (makes_externBlock hg)
  · exact hmade (makes_actorDecl hg)
  · exact hmade (makes_supervisorDecl hg)
  · exact .expected _

theorem makes_item (hg : g.Make R n) : Makes R true (R.Good n) (item g) :=
  .start fun _ => .pass keeps_visibility fun _ => .bind (makes_itemKind hg) fun _ => .node fun _ _ => id

theorem makes_program (hg : g.Make R n) : Makes R true (R.Good n) (program g) := by
  have hitems : Makes R true (R.Good n) (loop (programTurn g) []) := by
    refine .loop (fun items => .query fun ended => ?_) Regime.all_nil
    split
    · exact .value id
    · exact .resilient (.found (makes_item hg) items)
  exact .bind hitems fun items => .span fun stop => .value fun h => Regime.good_reverse h

end Parser

/-- What is read from known tokens has the property of the regime. -/
theorem Session.good_program {tokens : List Token} (hknown : ∀ t ∈ tokens, R.known t)
    (hquiet : R.silent = true → (Session.ofTokens tokens R.limits).program.2.errors = []) :
    R.Good R.limits.maxDepth (Session.ofTokens tokens R.limits).program.1 := by
  let session := Session.ofTokens tokens R.limits
  have hmakes := Parser.makes_program (Rules.make_within R (Nat.le_refl R.limits.maxDepth))
  have hkept : session.state.Kept true _ := hmakes.keeps session.setting session.state
  have hs : session.state.Holds R session.setting :=
    ⟨rfl, fun lexeme hlexeme => hknown _ (Lexeme.token_mem_of_mem_significant hlexeme)⟩
  cases hreply : Parser.program session.rules session.setting session.state with
  | ok program after =>
    have hprogram : session.program = (program, { session with state := after }) :=
      Session.program_eq_of_ok hreply
    change R.silent = true → session.program.2.errors = [] at hquiet
    change R.Good _ session.program.1
    rw [hprogram] at hquiet ⊢
    refine hmakes.makes session.setting session.state program after hs hreply fun hsilent => ?_
    have herrors : after.errors = [] := hquiet hsilent
    change Parser.program (.within R.limits.maxDepth) _ _ = _ at hreply
    rw [hreply] at hkept
    exact ⟨herrors, hkept.unspent herrors⟩
  | fail e after =>
    change R.Good _ session.program.1
    rw [Session.program, Session.run, hreply]
    exact Regime.all_nil

end ActorFrontend
