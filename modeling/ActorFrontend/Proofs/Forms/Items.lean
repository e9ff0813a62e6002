import ActorFrontend.Proofs.Forms.Statements
import ActorFrontend.Proofs.Nesting.Items

/-!
# Declarations are sound
-/

namespace ActorFrontend

variable {g : Rules} {loud : Bool}

namespace Parser

open Forms
open Makes (keeps_acceptIf keeps_require keeps_valueOf)

/-! ## Bodies -/

section

variable {α σ : Type} {member : Parser α} {good : Context → α → Prop}

theorem forms_membersIn {part : σ → Parser σ} {a : σ} {holds : Context → σ → Prop}
    (h : ∀ a, Forms true (fun c b => holds c a → holds c b) (part a)) (ha : ∀ c, holds c a) :
    Forms true holds (membersIn part a) :=
  .require (.bind (.bodyParts h ha) fun _ => .require (.value fun _ => id))

theorem forms_members (h : Forms true good member) :
    Forms true (fun c as => ∀ a ∈ as, good c a) (members member) := by
  have hmembers : Forms true (fun c as => ∀ a ∈ as, good c a) (membersIn (fun found => do
      let next ← member
      pure (next :: found)) []) := forms_membersIn (fun found => .found h found) fun _ => nofun
  exact .bind hmembers fun _ => .value fun _ h a ha => h a (List.mem_reverse.1 ha)

theorem forms_separatedMembers (h : Forms loud good member) :
    Forms loud (fun c as => ∀ a ∈ as, good c a) (separatedMembers member) := by
  have hmembers : Forms loud (fun c as => ∀ a ∈ as, good c a) (collect (separatedTurn member)) := by
    refine .collect (.query fun ended => ?_)
    split
    · exact .value fun _ => nofun
    · exact .bind h fun next => .pass keeps_memberSeparator fun _ =>
        .value fun _ => List.forall_mem_singleton.2
  exact .require (.bind hmembers fun _ => .require (.value fun _ => id))

end

/-! ## Imports and constants -/

theorem always_importStep : Always (fun step => ∀ spec, step = .spec spec → spec.Shaped) importStep := by
  refine .last fun k => ?_
  split
  · exact .last fun _ => .value fun spec h => ImportStep.spec.inj h ▸ trivial
  · refine .last fun _ => .last fun first => .last fun more => .value fun spec h => ?_
    obtain rfl := ImportStep.spec.inj h
    exact List.cons_ne_nil first more
  · exact .last fun name => .value fun spec h => nomatch h

/-- The names that are imported are at least one. -/
theorem always_importDecl : Always (fun d => d.spec.Shaped) importDecl := by
  have hturn (found : List String × ImportSpec) (h : found.2.Shaped) :
      Always (fun r => r.2.2.Shaped) (importTurn found) := by
    refine .last fun more => ?_
    split
    · refine .bind always_importStep fun step hstep => ?_
      split
      · exact .value h
      · exact .value (hstep _ rfl)
    · exact .value h
  have hloop (first : String) : Always (fun found => found.2.Shaped)
      (loop importTurn ([first], .whole)) := .loop hturn trivial
  exact .last fun _ => .last fun first => .bind (hloop first) fun found h => .last fun _ => .value h

theorem forms_constDecl (hg : g.Form) : Forms true (fun _ d => (ItemKind.const d).Fits) (constDecl g) := by
  refine .require (.valueOf fun name => .require (.bind hg.type.louder fun type => .require ?_))
  refine .bind (forms_expr hg) fun value => .semicolon (.value fun _ hvalue htype => ?_)
  exact ⟨trivial, allSound_append.2 ⟨htype, hvalue.sound⟩⟩

/-! ## Structs, aliases and enums -/

theorem forms_fieldDecl (hg : g.Form) : Forms false (fun _ => Sound) (fieldDecl g) :=
  .start fun _ => .acceptIf fun _ => .valueOf fun _ => .require (.bind hg.type fun _ =>
    .spanFrom fun _ => .value fun _ h => sound_fieldDecl.2 h)

theorem forms_fieldDecls (hg : g.Form) : Forms false (fun _ => Sound) (fieldDecls g) :=
  .list (forms_separatedMembers (forms_fieldDecl hg))

theorem forms_structRest (hg : g.Form) :
    Forms false (fun _ d => (ItemKind.struct d).Fits) (structRest g) := by
  refine .valueOf fun name => .bind (forms_typeParams hg) fun typeParams => ?_
  refine .bind (forms_whereClause hg) fun whereClause => .bind (forms_fieldDecls hg) fun fields => ?_
  refine .value fun _ hfields hwhere htypeParams => ⟨trivial, ?_⟩
  exact allSound_append.2 ⟨allSound_append.2 ⟨htypeParams, hwhere⟩, hfields⟩

theorem forms_typeDecl (hg : g.Form) : Forms true (fun _ => ItemKind.Fits) (typeDecl g) := by
  refine .require (.query fun isStruct => ?_)
  split
  · exact .bind (forms_structRest hg).louder fun decl => .value fun _ => id
  · refine .valueOf fun name => .bind (forms_typeParams hg).louder fun typeParams => ?_
    refine .acceptIf fun found => ?_
    split
    · refine .bind hg.type.louder fun type => .semicolon (.value fun _ htype htypeParams => ?_)
      exact ⟨trivial, allSound_append.2 ⟨htypeParams, htype⟩⟩
    · exact .expected _

theorem forms_variantKind (hg : g.Form) : Forms false (fun _ => Sound) (variantKind g) := by
  refine .acceptIf fun tuple => ?_
  split
  · exact .bind (.list (.commaList hg.type)) fun types => .value fun _ => sound_variantKind_tuple.2
  · refine .query fun struct => ?_
    split
    · exact .bind (forms_fieldDecls hg) fun fields => .value fun _ => sound_variantKind_struct.2
    · exact .value fun _ => sound_variantKind_unit

theorem forms_variant (hg : g.Form) : Forms false (fun _ => Sound) (variant g) :=
  .start fun _ => .valueOf fun _ => .bind (forms_variantKind hg) fun _ => .spanFrom fun _ =>
    .value fun _ h => sound_variant.2 h

theorem forms_enumDecl (hg : g.Form) : Forms false (fun _ d => (ItemKind.enum d).Fits) (enumDecl g) := by
  refine .require (.valueOf fun name => .bind (forms_typeParams hg) fun typeParams => ?_)
  refine .bind (forms_whereClause hg) fun whereClause => ?_
  refine .bind (.list (forms_separatedMembers (forms_variant hg))) fun variants => ?_
  refine .value fun _ hvariants hwhere htypeParams => ⟨trivial, ?_⟩
  exact allSound_append.2 ⟨allSound_append.2 ⟨htypeParams, hwhere⟩, hvariants⟩

/-! ## Wire types -/

theorem always_tagList : Always (· ≠ []) tagList :=
  .last fun _ => .last fun first => .last fun more => .value (List.cons_ne_nil first more)

theorem forms_wireAttr (hg : g.Form) :
    Forms true (fun _ found => ∀ attr : WireAttr, found = some attr → Sound attr ∧ attr.Shaped)
      (wireAttr g) := by
  refine .acceptIf fun isOptional => ?_
  split
  · exact .value fun _ attr h => Option.some.inj h ▸ ⟨sound_wireOptional, trivial⟩
  refine .acceptIf fun isDeprecated => ?_
  split
  · exact .value fun _ attr h => Option.some.inj h ▸ ⟨sound_wireDeprecated, trivial⟩
  refine .acceptIf fun isDefault => ?_
  split
  · refine .require (.bind (forms_expr hg) fun value => .require (.value fun _ hvalue attr h => ?_))
    exact Option.some.inj h ▸ ⟨sound_wireDefault.2 hvalue.sound, trivial⟩
  refine .acceptIf fun isReserved => ?_
  split
  · have htags : Forms true (fun _ tags => True ∧ tags ≠ []) tagList :=
      (of_keeps keeps_tagList).and_always always_tagList
    refine .bind htags fun tags => .value fun _ htags attr h => ?_
    exact Option.some.inj h ▸ ⟨sound_wireReserved, htags.2⟩
  · exact .value fun _ => nofun

theorem forms_wireField (hg : g.Form) :
    Forms true (fun _ f => Sound f ∧ ∀ attr ∈ f.attrs, attr.Shaped) (wireField g) := by
  have hattrs : Forms true (fun _ attrs => ∀ attr ∈ attrs, Sound attr ∧ attr.Shaped)
      (collect (attrTurn g)) := by
    refine .collect (.bind (forms_wireAttr hg) fun attr => ?_)
    cases attr with
    | some attr => exact .value fun _ h => List.forall_mem_singleton.2 (h attr rfl)
    | none => exact .value fun _ _ => nofun
  have htag : (optional (accept .atSign) integer).Keeps true := by
    refine .bind (keeps_acceptIf _) fun found _ => ?_
    split
    · exact .bind (keeps_valueOf _ _) fun _ _ => .pure _
    · exact .pure _
  refine .start fun start => .valueOf fun name => .require (.pass keeps_wireType fun type => ?_)
  refine .pass htag fun tag => .bind hattrs fun attrs => .spanFrom fun span => .value fun _ h => ?_
  exact ⟨sound_wireField.2 (sound_list.2 fun attr hattr => (h attr hattr).1), fun attr hattr => (h attr hattr).2⟩

theorem forms_reservedTags : Forms true (fun _ m => Sound m ∧ m.Shaped) reservedTags := by
  have htags : Forms true (fun _ tags => True ∧ tags ≠ []) tagList :=
    (of_keeps keeps_tagList).and_always always_tagList
  refine .start fun start => .advance (.bind htags fun tags => .spanFrom fun span => ?_)
  exact .value fun _ h => ⟨sound_wireMember_reserved, h.2⟩

theorem forms_wireMember (hg : g.Form) : Forms true (fun _ m => Sound m ∧ m.Shaped) (wireMember g) := by
  refine .query fun isReserved => ?_
  split
  · exact forms_reservedTags
  · refine .query fun isField => ?_
    split
    · exact .bind (forms_wireField hg) fun field => .value fun _ h => ⟨sound_wireMember_field.2 h.1, h.2⟩
    · exact .bind (forms_variant hg).louder fun variant => .value fun _ h =>
        ⟨sound_wireMember_variant.2 h, trivial⟩

theorem forms_wireDecl (hg : g.Form) : Forms true (fun _ d => (ItemKind.wire d).Fits) (wireDecl g) := by
  refine .require (.pass keeps_wireKind fun _ => .valueOf fun _ => ?_)
  refine .bind (forms_separatedMembers (forms_wireMember hg)) fun members => .value fun _ h => ?_
  exact ⟨fun m hm => (h m hm).2, sound_list.2 fun m hm => (h m hm).1⟩

/-! ## Functions -/

theorem forms_param (hg : g.Form) : Forms false (fun _ => Sound) (param g) := by
  refine .start fun start => .acceptIf fun isSelf => ?_
  split
  · exact .bind (forms_typeAfterColon hg) fun type => .spanFrom fun span =>
      .value fun _ h => sound_param (fun _ => rfl) h
  · refine .valueOf fun name => .require (.bind hg.type fun type => .spanFrom fun span => ?_)
    exact .value fun _ h => sound_param nofun (sound_some.2 h)

theorem forms_params (hg : g.Form) : Forms false (fun _ => Sound) (params g) :=
  .require (.list (.commaList (forms_param hg)))

theorem forms_variadicParams (hg : g.Form) :
    Forms false (fun _ found => Sound found.1) (variadicParams g) := by
  have hparams : Forms false (fun _ (found : List Param × Bool) => Sound found.1)
      (loop (variadicTurn g) (([] : List Param), false)) := by
    refine .loop (fun found => .query fun closed => ?_) fun _ => sound_nil
    split
    · exact .value fun _ => id
    · refine .acceptIf fun dots => ?_
      split
      · exact .value fun _ => id
      · refine .bind (forms_param hg) fun next => .acceptIf fun again => ?_
        exact .value fun _ hnext hfound => sound_cons.2 ⟨hnext, hfound⟩
  exact .require (.bind hparams fun found => .require (.value fun _ => sound_reverse.2))

/-- A body that is required is there. -/
theorem forms_fnBody (hg : g.Form) (rule : BodyRule) :
    Forms true (fun _ body => Sound body ∧ (rule = .required → body.isSome = true)) (fnBody g rule) := by
  have hlook : Forms true (fun _ missing => missing = true → rule = .optional)
      (query fun s => rule == .optional && s.kind.isSymbol .semicolon) := by
    refine .ask fun s _ h => ?_
    simpa using (Bool.and_eq_true_iff.1 h).1
  refine .bind hlook fun missing => ?_
  split
  case isTrue hmissing =>
    refine .advance (.value fun _ hrule => ⟨sound_none, fun hrequired => ?_⟩)
    rw [hrule hmissing] at hrequired
    cases hrequired
  case isFalse =>
    exact .bind hg.block fun body => .value fun _ h _ => ⟨sound_some.2 h, fun _ => rfl⟩

/-- A generator has a result type. -/
theorem forms_fnResult (hg : g.Form) (flavor : FnFlavor) :
    Forms false (fun _ ret => Sound ret ∧ (flavor.isGenerator = true → ret.isSome = true))
      (fnResult g flavor) := by
  refine .bind (forms_resultType hg) fun ret => ?_
  split
  case isTrue => exact .expected _
  case isFalse hfine =>
    refine .value fun _ h => ⟨h, fun hgenerator => ?_⟩
    cases ret with
    | some type => rfl
    | none => simp [hgenerator] at hfine

/-- The function is sound, and has a body if it must have one. -/
structure FitsFn (rule : BodyRule) (f : FnDecl) : Prop where
  sound : Sound f
  body : rule = .required → f.body.isSome = true

theorem forms_fnRest (hg : g.Form) (start : Nat) (flavor : FnFlavor) (rule : BodyRule) :
    Forms true (fun _ => FitsFn rule) (fnRest g start flavor rule) := by
  refine .valueOf fun name => .bind (forms_typeParams hg).louder fun typeParams => ?_
  refine .bind (forms_params hg).louder fun params => .bind (forms_fnResult hg flavor).louder fun ret => ?_
  refine .bind (forms_whereClause hg).louder fun whereClause => .bind (forms_fnBody hg rule) fun body => ?_
  refine .spanFrom fun span => .value fun _ hbody hwhere hret hparams htypeParams => ?_
  exact ⟨sound_fnDecl hret.2 htypeParams hparams hret.1 hwhere hbody.1, hbody.2⟩

theorem forms_fnDecl (hg : g.Form) (rule : BodyRule) : Forms true (fun _ => FitsFn rule) (fnDecl g rule) :=
  .start fun start => .acceptIf fun _ => .acceptIf fun _ => .require (forms_fnRest hg start _ rule)

theorem forms_externFn (hg : g.Form) : Forms true (fun _ => Sound) (externFn g) := by
  refine .start fun start => .require (.valueOf fun name => ?_)
  refine .bind (forms_variadicParams hg).louder fun params => .bind (forms_resultType hg).louder fun ret => ?_
  refine .acceptIf fun dots => .semicolon (.spanFrom fun span => .value fun _ hret hparams => ?_)
  exact sound_externFn.2 ⟨hparams, hret⟩

theorem forms_externBlock (hg : g.Form) :
    Forms true (fun _ d => (ItemKind.externBlock d).Fits) (externBlock g) :=
  .require (.valueOf fun _ => .bind (.list (forms_members (forms_externFn hg))) fun _ =>
    .value fun _ h => ⟨trivial, h⟩)

/-! ## Traits and implementations -/

theorem forms_traitType (hg : g.Form) : Forms true (fun _ => Sound) (traitType g) := by
  refine .start fun start => .advance (.valueOf fun name => ?_)
  refine .bind (forms_boundsAfterColon hg).louder fun bounds => ?_
  refine .bind (.option (.optional (keeps_acceptIf _) hg.type.louder)) fun default => .semicolon ?_
  exact .spanFrom fun span => .value fun _ hdefault hbounds => sound_assocType.2 ⟨hbounds, hdefault⟩

theorem forms_traitItem (hg : g.Form) : Forms true (fun _ => Sound) (traitItem g) := by
  refine .query fun isType => ?_
  split
  · exact forms_traitType hg
  · exact .bind (forms_fnDecl hg .optional) fun decl => .value fun _ h => sound_traitMethod.2 h.sound

theorem forms_traitDecl (hg : g.Form) : Forms true (fun _ d => (ItemKind.trait d).Fits) (traitDecl g) := by
  refine .require (.valueOf fun name => .bind (forms_typeParams hg).louder fun typeParams => ?_)
  refine .bind (forms_boundsAfterColon hg).louder fun supertraits => ?_
  refine .bind (forms_whereClause hg).louder fun whereClause => ?_
  refine .bind (.list (forms_members (forms_traitItem hg))) fun items => ?_
  refine .value fun _ hitems hwhere hsupertraits htypeParams => ⟨trivial, ?_⟩
  simp only [ItemKind.contents, allSound_append, allSound_parts]
  exact ⟨⟨⟨htypeParams, hsupertraits⟩, hwhere⟩, hitems⟩

theorem forms_implType (hg : g.Form) : Forms true (fun _ i => Sound i ∧ i.Shaped) (implType g) :=
  .start fun _ => .advance (.valueOf fun _ => .require (.bind hg.type.louder fun _ =>
    .semicolon (.spanFrom fun _ => .value fun _ h => ⟨sound_implType.2 h, trivial⟩)))

theorem forms_implItem (hg : g.Form) : Forms true (fun _ i => Sound i ∧ i.Shaped) (implItem g) := by
  refine .query fun isType => ?_
  split
  · exact forms_implType hg
  · exact .bind (forms_fnDecl hg .required) fun decl => .value fun _ h =>
      ⟨sound_implMethod.2 h.sound, h.body rfl⟩

theorem keeps_traitOf (type : TypeExpr) : (traitOf type).Keeps loud := by
  obtain ⟨id, span, kind⟩ := type
  cases kind with
  | named path args => exact .pure _
  | _ => exact fun _ s => .refl s

/-- The arguments of a trait are those of the type that names it. -/
theorem always_traitOf {type : TypeExpr} (h : Sound type) : Always Sound (traitOf type) := by
  obtain ⟨id, span, kind⟩ := type
  cases kind with
  | named path args => exact .value (sound_bound.2 (TypeKind.fits_of_sound h).contents)
  | _ =>
    rintro _ ⟨setting, s, after, hreply⟩
    cases hreply

theorem forms_implHead (hg : g.Form) : Forms false (fun _ => Sound) (implHead g) := by
  refine .bind hg.type fun first => .acceptIf fun isTrait => ?_
  split
  · refine .bind (of_always (keeps_traitOf first) fun _ => always_traitOf) fun traitRef => ?_
    refine .bind hg.type fun selfType => .value fun _ hself htrait hfirst => ?_
    exact sound_pair.2 ⟨sound_some.2 (htrait hfirst), hself⟩
  · exact .value fun _ h => sound_pair.2 ⟨sound_none, h⟩

theorem forms_implDecl (hg : g.Form) : Forms true (fun _ d => (ItemKind.impl d).Fits) (implDecl g) := by
  refine .require (.bind (forms_typeParams hg).louder fun typeParams => ?_)
  refine .bind (forms_implHead hg).louder fun head => ?_
  refine .bind (forms_whereClause hg).louder fun whereClause => ?_
  refine .bind (forms_members (forms_implItem hg)) fun items => ?_
  refine .value fun _ hitems hwhere hhead htypeParams => ⟨fun i hi => (hitems i hi).2, ?_⟩
  obtain ⟨htrait, hself⟩ := sound_pair.1 hhead
  simp only [ItemKind.contents, allSound_append, allSound_parts]
  exact ⟨⟨⟨⟨htypeParams, htrait⟩, hself⟩, hwhere⟩, sound_list.2 fun i hi => (hitems i hi).1⟩

/-! ## Actors -/

theorem forms_actorField (hg : g.Form) : Forms true (fun _ m => Sound m ∧ m.Shaped) (actorField g) := by
  have hinit : Forms true (fun _ => Sound) (optional (accept .eq) (expr g)) :=
    .option (.optional (keeps_acceptIf _) ((forms_expr hg).imp fun _ _ h => h.sound))
  refine .start fun start => .query fun isVar => .advance (.valueOf fun name => .require ?_)
  refine .bind hg.type.louder fun type => .bind hinit fun init => .semicolon ?_
  exact .spanFrom fun span => .value fun _ hinit htype => ⟨sound_actorField.2 ⟨htype, hinit⟩, trivial⟩

theorem forms_receiveFn (hg : g.Form) : Forms true (fun _ m => Sound m ∧ m.Shaped) (receiveFn g) :=
  .start fun _ => .advance (.acceptIf fun _ => .require (.bind (forms_fnRest hg _ _ _) fun _ =>
    .value fun _ h => ⟨sound_receive.2 h.sound, h.body rfl⟩))

theorem forms_actorMember (hg : g.Form) : Forms true (fun _ m => Sound m ∧ m.Shaped) (actorMember g) := by
  have hmethod : Forms true (fun _ m => Sound m ∧ m.Shaped)
      (do pure (.method (← fnDecl g .required)) : Parser ActorMember) :=
    .bind (forms_fnDecl hg .required) fun _ => .value fun _ h => ⟨sound_actorMethod.2 h.sound, h.body rfl⟩
  refine .kind fun k => ?_
  split
  · exact forms_actorField hg
  · exact forms_actorField hg
  · exact .pass keeps_mailboxDecl fun _ => .value fun _ => ⟨sound_mailbox, trivial⟩
  · exact forms_receiveFn hg
  · exact hmethod
  · exact hmethod
  · exact hmethod
  · exact .expected _

theorem forms_actorInit (hg : g.Form) : Forms true (fun _ => Sound) (actorInit g) := by
  refine .start fun start => .advance (.bind (forms_params hg).louder fun params => ?_)
  refine .bind hg.block fun body => .spanFrom fun span => .value fun _ hbody hparams => ?_
  exact sound_actorInit.2 ⟨hparams, hbody⟩

/-- What has been read of an actor's body. -/
structure FitParts (found : Option ActorInit × List ActorMember) : Prop where
  init : Sound found.1
  members : ∀ m ∈ found.2, Sound m ∧ m.Shaped

theorem forms_actorPart (hg : g.Form) (found : Option ActorInit × List ActorMember) :
    Forms true (fun _ after => FitParts found → FitParts after) (actorPart g found) := by
  refine .query fun isInit => ?_
  split
  · refine .span fun keyword => .bind (forms_actorInit hg) fun decl => ?_
    obtain ⟨first, members⟩ := found
    cases first with
    | none => exact .value fun _ hdecl hfound => ⟨sound_some.2 hdecl, hfound.members⟩
    | some first =>
      exact .pass (fun setting s => .record setting _ s) fun _ => .value fun _ _ hfound => hfound
  · refine .bind (forms_actorMember hg) fun next => .value fun _ hnext hfound => ?_
    exact ⟨hfound.init, List.forall_mem_cons.2 ⟨hnext, hfound.members⟩⟩

theorem forms_actorDecl (hg : g.Form) : Forms true (fun _ d => (ItemKind.actor d).Fits) (actorDecl g) := by
  refine .require (.valueOf fun name => .bind (forms_typeParams hg).louder fun typeParams => ?_)
  refine .bind (forms_boundsAfterColon hg).louder fun bounds => ?_
  refine .bind (forms_whereClause hg).louder fun whereClause => ?_
  refine .bind (forms_membersIn (forms_actorPart hg) fun _ => ⟨sound_none, nofun⟩) fun found => ?_
  refine .value fun _ hfound hwhere hbounds htypeParams => ⟨fun m hm => ?_, ?_⟩
  · exact (hfound.members m (List.mem_reverse.1 hm)).2
  · simp only [ItemKind.contents, allSound_append, allSound_parts, sound_reverse]
    exact ⟨⟨⟨⟨htypeParams, hbounds⟩, hwhere⟩, hfound.init⟩, sound_list.2 fun m hm => (hfound.members m hm).1⟩

/-! ## Supervisors -/

theorem forms_supervisorField (hg : g.Form) : Forms true (fun _ => Sound) (supervisorField g) :=
  .start fun _ => .valueOf fun _ => .require (.bind (forms_expr hg) fun _ => .spanFrom fun _ =>
    .pass keeps_memberSeparator fun _ => .value fun _ h => sound_supervisorField.2 h.sound)

theorem forms_supervisorMember (hg : g.Form) : Forms true (fun _ => Sound) (supervisorMember g) := by
  refine .query fun isChild => ?_
  split
  · exact .pass keeps_childSpec fun _ => .value fun _ => sound_child
  · exact forms_supervisorField hg

theorem forms_supervisorDecl (hg : g.Form) :
    Forms true (fun _ d => (ItemKind.supervisor d).Fits) (supervisorDecl g) :=
  .require (.valueOf fun _ => .bind (.list (forms_members (forms_supervisorMember hg))) fun _ =>
    .value fun _ h => ⟨trivial, h⟩)

/-! ## Programs -/

theorem forms_itemKind (hg : g.Form) : Forms true (fun _ => ItemKind.Fits) (itemKind g) := by
  have hmade {α : Type} {p : Parser α} {make : α → ItemKind} (h : Forms true (fun _ a => (make a).Fits) p) :
      Forms true (fun _ => ItemKind.Fits) (do pure (make (← p)) : Parser ItemKind) :=
    .bind h fun _ => .value fun _ => id
  have himport : Forms true (fun _ d => True ∧ ImportSpec.Shaped d.spec) importDecl :=
    (of_keeps keeps_importDecl).and_always always_importDecl
  have hfn : Forms true (fun _ => ItemKind.Fits) (do pure (.fn (← fnDecl g .required)) : Parser ItemKind) :=
    hmade ((forms_fnDecl hg .required).imp fun _ _ h => ⟨h.body rfl, h.sound⟩)
  refine .kind fun k => ?_
  split
  · exact hmade (himport.imp fun _ _ h => ⟨h.2, allSound_nil⟩)
  · exact hmade (forms_constDecl hg)
  · exact forms_typeDecl hg
  · exact hmade (.advance (forms_structRest hg).louder)
  · exact hmade (forms_enumDecl hg).louder
  · exact hmade (forms_wireDecl hg)
  · exact hmade (forms_traitDecl hg)
  · exact hmade (forms_implDecl hg)
  · exact hfn
  · exact hfn
  · exact hfn
  · exact hmade (forms_externBlock hg)
  · exact hmade (forms_actorDecl hg)
  · exact hmade (forms_supervisorDecl hg)
  · exact .expected _

theorem forms_item (hg : g.Form) : Forms true (fun _ => Sound) (item g) :=
  .start fun _ => .pass keeps_visibility fun _ => .bind (forms_itemKind hg) fun _ =>
    .node fun _ _ _ h => sound_item h

theorem forms_program (hg : g.Form) : Forms true (fun _ => Sound) (program g) := by
  have hitems : Forms true (fun _ items => ∀ i ∈ items, Sound i) (loop (programTurn g) []) := by
    refine .loop (fun items => .query fun ended => ?_) fun _ => nofun
    split
    · exact .value fun _ => id
    · exact @Forms.resilient _ .items _ (fun _ items => ∀ i ∈ items, Sound i) items
        (.found (forms_item hg) items)
  refine .bind hitems fun items => .span fun stop => .value fun _ h => ?_
  exact sound_program.2 (sound_reverse.2 (sound_list.2 h))

end Parser

end ActorFrontend
