import ActorFrontend.Grammar.Items
import ActorFrontend.Proofs.Placement.Statements

/-!
# What the readings of declarations lay
-/

namespace ActorFrontend.Parser

variable {source : List Char} {setting : Setting} {α σ : Type} {s₀ s : State} {g : Rules}
  {os : List Outline} {c : Bool}

/-! ## Bodies -/

theorem laysThat_membersIn {part : σ → Parser σ} {found : σ → List Outline → Prop} {a : σ}
    (ha : found a [])
    (hpart : ∀ a os, found a os → (part a).LaysThat source c fun a' os' => found a' (os ++ os')) :
    (membersIn part a).LaysThat source true found := by
  intro setting s hs
  apply (Trail.refl hs).pass (passes_expect _)
  intro _ s h
  apply h.bindThat (laysThat_bodyParts ha hpart)
  intro a s os hos h
  apply h.pass (passes_expect _)
  intro _ s h
  exact h.done hos

theorem lays_members {member : Parser α} {view : α → List Outline}
    (hmember : member.Lays source c view) :
    (members member).Lays source true fun as => as.flatMap view := by
  intro setting s hs
  refine (Trail.refl hs).bindThat (laysThat_membersIn rfl (laysThat_found hmember))
    fun found s os hos h => ?_
  exact h.done hos

theorem passes_memberSeparator : memberSeparator.Passes source false := by
  intro setting s hs
  refine (Trail.refl hs).ifAccept rfl (fun h => h.weaken.done rfl) ?_
  exact (Trail.refl hs).pass (passes_acceptIf rfl) fun _ s h => h.done rfl

theorem lays_separatedMembers {member : Parser α} {view : α → List Outline}
    (hmember : member.Lays source c view) :
    (separatedMembers member).Lays source true fun as => as.flatMap view := by
  intro setting s hs
  apply (Trail.refl hs).pass (passes_expect _)
  intro _ s h
  refine h.bind (lays_collect view fun setting s hs => ?_) fun found s h => ?_
  · apply Trail.query
    split
    · exact (Trail.refl hs).done rfl
    · apply (Trail.refl hs).bind hmember
      intro next s h
      apply h.pass passes_memberSeparator
      intro _ s h
      exact h.weaken.done (by simp)
  · apply h.pass (passes_expect _)
    intro _ s h
    exact h.done rfl

/-! ## Visibility, imports, constants -/

theorem passes_visibility : visibility.Passes source false := by
  intro setting s hs
  refine (Trail.refl hs).ifAccept rfl (fun h => ?_) ((Trail.refl hs).done rfl)
  apply Trail.query
  cases restriction? s.advance with
  | some vis => exact h.weaken.advance.advance.advance.done rfl
  | none => exact h.weaken.done rfl

theorem passes_importStep : importStep.Passes source false := by
  intro setting s hs
  apply Trail.kind
  intro kind hkind
  split
  · exact (Trail.refl hs).advance.done rfl
  · apply (Trail.refl hs).advance.pass passes_name
    intro first s h
    apply h.pass (passes_commaTail passes_name _)
    intro more s h
    exact h.weaken.done rfl
  · apply (Trail.refl hs).pass passes_name
    intro name s h
    exact h.weaken.done rfl

theorem passes_importDecl : importDecl.Passes source true := by
  intro setting s hs
  apply (Trail.refl hs).pass (passes_expectKeyword _)
  intro _ s h
  apply h.pass passes_name
  intro first s h
  refine h.pass (passes_loop (fun found setting s hs => ?_) _) fun found s h => ?_
  · have h := Trail.refl hs
    refine h.ifAccept rfl (fun h => ?_) (h.done rfl)
    apply h.weaken.pass passes_importStep
    intro step s h
    split <;> exact h.done rfl
  · apply h.pass passes_semicolon
    intro _ s h
    exact h.done rfl

theorem lays_constDecl (hg : g.Lay source) :
    (constDecl g).Lays source true fun d => outlines d.type ++ outlines d.value := by
  intro setting s hs
  apply (Trail.refl hs).pass (passes_expectKeyword _)
  intro _ s h
  apply h.pass passes_name
  intro name s h
  apply h.pass (passes_expect _)
  intro _ s h
  apply h.bind hg.type
  intro type s h
  apply h.pass (passes_expect _)
  intro _ s h
  apply h.bind (hg.expr 0)
  intro value s h
  apply h.pass passes_semicolon
  intro _ s h
  exact h.done rfl

/-! ## Structs, aliases and enums -/

theorem lays_fieldDecl (hg : g.Lay source) : (fieldDecl g).Lays source true outlines := by
  intro setting s hs
  apply Trail.start
  apply (Trail.refl hs).pass (passes_acceptIf rfl)
  intro isVar s h
  apply h.pass passes_name
  intro name s h
  apply h.pass (passes_expect _)
  intro _ s h
  apply h.bind hg.type
  intro type s h
  exact h.part fun span => rfl

theorem lays_fieldDecls (hg : g.Lay source) : (fieldDecls g).Lays source true outlines :=
  lays_separatedMembers (lays_fieldDecl hg)

theorem lays_structRest (hg : g.Lay source) :
    (structRest g).Lays source true fun d => (ItemKind.struct d).parts := by
  intro setting s hs
  apply (Trail.refl hs).pass passes_name
  intro name s h
  apply h.bind (lays_typeParams hg)
  intro typeParams s h
  apply h.bind (lays_whereClause hg)
  intro whereClause s h
  apply h.bind (lays_fieldDecls hg)
  intro fields s h
  exact h.done rfl

theorem lays_typeDecl (hg : g.Lay source) :
    (typeDecl g).LaysThat source true ItemKind.MadeOf := by
  intro setting s hs
  apply (Trail.refl hs).pass (passes_expectKeyword _)
  intro _ s h
  apply Trail.query
  split
  · exact h.bind (lays_structRest hg) fun decl s h => h.done (.whole rfl)
  · apply h.pass passes_name
    intro name s h
    apply h.bind (lays_typeParams hg)
    intro typeParams s h
    apply h.ifAccept rfl _ (h.failed rfl)
    intro h
    apply h.bind hg.type
    intro type s h
    apply h.pass passes_semicolon
    intro _ s h
    exact h.done (.whole rfl)

theorem lays_variantKind (hg : g.Lay source) : (variantKind g).Lays source false outlines := by
  intro setting s hs
  apply (Trail.refl hs).ifAccept rfl
  · intro h
    apply h.bind (lays_commaList hg.type _)
    intro types s h
    exact h.weaken.done rfl
  · apply Trail.query
    split
    · apply (Trail.refl hs).bind (lays_fieldDecls hg)
      intro fields s h
      exact h.weaken.done rfl
    · exact (Trail.refl hs).done rfl

theorem lays_variant (hg : g.Lay source) : (variant g).Lays source true outlines := by
  intro setting s hs
  apply Trail.start
  apply (Trail.refl hs).pass passes_name
  intro name s h
  apply h.bind (lays_variantKind hg)
  intro kind s h
  exact h.part fun span => rfl

theorem lays_enumDecl (hg : g.Lay source) :
    (enumDecl g).Lays source true fun d => (ItemKind.enum d).parts := by
  intro setting s hs
  apply (Trail.refl hs).pass (passes_expectKeyword _)
  intro _ s h
  apply h.pass passes_name
  intro name s h
  apply h.bind (lays_typeParams hg)
  intro typeParams s h
  apply h.bind (lays_whereClause hg)
  intro whereClause s h
  apply h.bind (lays_separatedMembers (lays_variant hg))
  intro variants s h
  exact h.done rfl

/-! ## Wire types -/

theorem passes_closeLists (depth : Nat) (type : WireType) :
    (closeLists depth type).Passes source false := by
  induction depth generalizing type with
  | zero => exact fun setting s hs => (Trail.refl hs).done rfl
  | succ depth ih =>
    intro setting s hs
    apply (Trail.refl hs).pass (passes_expect _)
    intro _ s h
    exact (h.last (ih _) fun _ => rfl).weaken

theorem passes_wireType : wireType.Passes source false := by
  intro setting s hs
  refine (Trail.refl hs).pass (passes_loop (fun found setting s hs => ?_) _) fun found s h => ?_
  · apply (Trail.refl hs).pass (passes_valueOf rfl _)
    intro name s h
    apply Trail.query
    split
    · exact h.weaken.advance.done rfl
    · exact h.weaken.done rfl
  · exact h.last (passes_closeLists _ _) fun _ => rfl

theorem passes_tagList : tagList.Passes source true := by
  intro setting s hs
  apply (Trail.refl hs).pass (passes_expect _)
  intro _ s h
  apply h.pass passes_integer
  intro first s h
  apply h.pass (passes_commaTail passes_integer _)
  intro more s h
  exact h.done rfl

theorem lays_wireAttr (hg : g.Lay source) : (wireAttr g).Lays source false outlines := by
  intro setting s hs
  have h := Trail.refl hs
  refine h.ifAccept rfl (fun h => h.weaken.done rfl) ?_
  refine h.ifAccept rfl (fun h => h.weaken.done rfl) ?_
  apply h.ifAccept rfl
  · intro h
    apply h.pass (passes_expect _)
    intro _ s h
    apply h.bind (hg.expr 0)
    intro value s h
    apply h.pass (passes_expect _)
    intro _ s h
    exact h.weaken.done rfl
  · refine h.ifAccept rfl (fun h => ?_) (h.done rfl)
    apply h.pass passes_tagList
    intro tags s h
    exact h.weaken.done rfl

theorem lays_wireField (hg : g.Lay source) : (wireField g).Lays source true outlines := by
  intro setting s hs
  apply Trail.start
  apply (Trail.refl hs).pass passes_name
  intro name s h
  apply h.pass (passes_expect _)
  intro _ s h
  apply h.pass passes_wireType
  intro type s h
  apply h.pass (passes_optional (passes_acceptIf rfl) passes_integer)
  intro tag s h
  refine h.bind (lays_collect outlines fun setting s hs => ?_) fun attrs s h => ?_
  · apply (Trail.refl hs).bind (lays_wireAttr hg)
    intro attr s h
    cases attr with
    | some attr => exact h.done (by simp)
    | none => exact h.done rfl
  · exact h.part fun span => rfl

theorem lays_reservedTags : reservedTags.Lays source true outlines := by
  intro setting s hs
  apply Trail.start
  apply (Trail.refl hs).advance.pass passes_tagList
  intro tags s h
  exact h.part fun span => rfl

theorem lays_wireMember (hg : g.Lay source) : (wireMember g).Lays source true outlines := by
  intro setting s hs
  apply Trail.query
  split
  · exact lays_reservedTags setting s hs
  · apply Trail.query
    split
    · exact (Trail.refl hs).bind (lays_wireField hg) fun field s h => h.done rfl
    · exact (Trail.refl hs).bind (lays_variant hg) fun variant s h => h.done rfl

theorem passes_wireKind : wireKind.Passes source true := by
  intro setting s hs
  refine (Trail.refl hs).ifAccept rfl (fun h => h.done rfl) ?_
  exact (Trail.refl hs).ifAccept rfl (fun h => h.done rfl)
    ((Trail.refl hs).failed rfl)

theorem lays_wireDecl (hg : g.Lay source) :
    (wireDecl g).Lays source true fun d => outlines d.members := by
  intro setting s hs
  apply (Trail.refl hs).pass (passes_expectKeyword _)
  intro _ s h
  apply h.pass passes_wireKind
  intro kind s h
  apply h.pass passes_name
  intro name s h
  apply h.bind (lays_separatedMembers (lays_wireMember hg))
  intro members s h
  exact h.done rfl

/-! ## Functions -/

theorem lays_param (hg : g.Lay source) : (param g).Lays source true outlines := by
  intro setting s hs
  apply Trail.start
  apply (Trail.refl hs).ifAccept rfl
  · intro h
    apply h.bind (lays_typeAfterColon hg)
    intro type s h
    exact h.part fun span => rfl
  · apply (Trail.refl hs).pass passes_name
    intro name s h
    apply h.pass (passes_expect _)
    intro _ s h
    apply h.bind hg.type
    intro type s h
    exact h.part fun span => rfl

theorem lays_params (hg : g.Lay source) : (params g).Lays source true outlines := by
  intro setting s hs
  apply (Trail.refl hs).pass (passes_expect _)
  intro _ s h
  exact h.last (lays_commaList (lays_param hg) _) fun _ => rfl

theorem lays_variadicParams (hg : g.Lay source) :
    (variadicParams g).Lays source true fun found => outlines found.1 := by
  intro setting s hs
  apply (Trail.refl hs).pass (passes_expect _)
  intro _ s h
  -- the parameters are collected in reverse
  have hloop : (loop (fun found => do
      if ← sees .rightParen then
        pure (false, found.1, false)
      else if ← accept .dotDotDot then
        pure (false, found.1, true)
      else
        let next ← param g
        pure (← accept .comma, next :: found.1, false))
      (([] : List Param), false)).Lays source false fun found => outlines found.1.reverse := by
    intro setting s hs
    refine (Trail.refl hs).loop rfl fun found s os hos h => ?_
    apply Trail.query
    split
    · exact h.done hos
    · refine h.ifAccept rfl (fun h => h.weaken.done hos) ?_
      apply h.bind (lays_param hg)
      intro next s h
      apply h.pass (passes_acceptIf rfl)
      intro again s h
      exact h.weaken.done (by simp [hos])
  apply h.bind hloop
  intro found s h
  apply h.pass (passes_expect _)
  intro _ s h
  exact h.done rfl

theorem lays_fnBody (hg : g.Lay source) (rule : BodyRule) :
    (fnBody g rule).Lays source false outlines := by
  intro setting s hs
  apply Trail.query
  split
  · exact (Trail.refl hs).advance.done rfl
  · apply (Trail.refl hs).bind hg.block
    intro body s h
    exact h.weaken.done (by simp)

theorem lays_fnResult (hg : g.Lay source) (flavor : FnFlavor) :
    (fnResult g flavor).Lays source false outlines := by
  intro setting s hs
  apply (Trail.refl hs).bind (lays_resultType hg)
  intro ret s h
  split
  · exact h.failed rfl
  · exact h.done rfl

theorem lays_fnRest (hg : g.Lay source) (flavor : FnFlavor) (rule : BodyRule)
    (h : Trail source setting s₀ true s []) :
    (fnRest g (s₀.span setting).start flavor rule setting s).Lays source setting s₀ true
      fun f os => outlines f = os := by
  apply h.pass passes_name
  intro name s h
  apply h.bind (lays_typeParams hg)
  intro typeParams s h
  apply h.bind (lays_params hg)
  intro params s h
  apply h.bind (lays_fnResult hg flavor)
  intro ret s h
  apply h.bind (lays_whereClause hg)
  intro whereClause s h
  apply h.bind (lays_fnBody hg rule)
  intro body s h
  exact h.spanFrom fun span h => h.done (by simp [outlines])

theorem lays_fnDecl (hg : g.Lay source) (rule : BodyRule) :
    (fnDecl g rule).Lays source true outlines := by
  intro setting s hs
  apply Trail.start
  apply (Trail.refl hs).pass (passes_acceptIf rfl)
  intro isAsync s h
  apply h.pass (passes_acceptIf rfl)
  intro isGen s h
  apply h.pass (passes_expectKeyword _)
  intro _ s h
  exact lays_fnRest hg _ rule h

theorem lays_externFn (hg : g.Lay source) : (externFn g).Lays source true outlines := by
  intro setting s hs
  apply Trail.start
  apply (Trail.refl hs).pass (passes_expectKeyword _)
  intro _ s h
  apply h.pass passes_name
  intro name s h
  apply h.bind (lays_variadicParams hg)
  intro found s h
  apply h.bind (lays_resultType hg)
  intro ret s h
  apply h.pass (passes_acceptIf rfl)
  intro dots s h
  apply h.pass passes_semicolon
  intro _ s h
  exact h.part fun span => rfl

theorem lays_externBlock (hg : g.Lay source) :
    (externBlock g).Lays source true fun d => outlines d.fns := by
  intro setting s hs
  apply (Trail.refl hs).pass (passes_expectKeyword _)
  intro _ s h
  apply h.pass passes_string
  intro abi s h
  apply h.bind (lays_members (lays_externFn hg))
  intro fns s h
  exact h.done rfl

/-! ## Traits and implementations -/

theorem lays_traitType (hg : g.Lay source) : (traitType g).Lays source true outlines := by
  intro setting s hs
  apply Trail.start
  apply (Trail.refl hs).advance.pass passes_name
  intro name s h
  apply h.bind (lays_boundsAfterColon hg)
  intro bounds s h
  apply h.bind (lays_optional (passes_acceptIf rfl) hg.type)
  intro default s h
  apply h.pass passes_semicolon
  intro _ s h
  exact h.part fun span => rfl

theorem lays_traitItem (hg : g.Lay source) : (traitItem g).Lays source true outlines := by
  intro setting s hs
  apply Trail.query
  split
  · exact lays_traitType hg setting s hs
  · exact (Trail.refl hs).bind (lays_fnDecl hg _) fun fn s h => h.done rfl

theorem lays_traitDecl (hg : g.Lay source) :
    (traitDecl g).Lays source true fun d => (ItemKind.trait d).parts := by
  intro setting s hs
  apply (Trail.refl hs).pass (passes_expectKeyword _)
  intro _ s h
  apply h.pass passes_name
  intro name s h
  apply h.bind (lays_typeParams hg)
  intro typeParams s h
  apply h.bind (lays_boundsAfterColon hg)
  intro supertraits s h
  apply h.bind (lays_whereClause hg)
  intro whereClause s h
  apply h.bind (lays_members (lays_traitItem hg))
  intro items s h
  exact h.done rfl

theorem lays_implType (hg : g.Lay source) : (implType g).Lays source true outlines := by
  intro setting s hs
  apply Trail.start
  apply (Trail.refl hs).advance.pass passes_name
  intro name s h
  apply h.pass (passes_expect _)
  intro _ s h
  apply h.bind hg.type
  intro type s h
  apply h.pass passes_semicolon
  intro _ s h
  exact h.part fun span => rfl

theorem lays_implItem (hg : g.Lay source) : (implItem g).Lays source true outlines := by
  intro setting s hs
  apply Trail.query
  split
  · exact lays_implType hg setting s hs
  · exact (Trail.refl hs).bind (lays_fnDecl hg _) fun fn s h => h.done rfl

/-- The type before `for` becomes a bound, which has no number. -/
theorem lays_traitOf {first : TypeExpr} (h : Trail source setting s₀ true s (os ++ outlines first)) :
    (traitOf first setting s).Lays source setting s₀ true
      fun bound os' => os ++ outlines bound = os' := by
  have hplaced := h.laid.nested first.outline (by simp [outlines])
  obtain ⟨id, span, kind⟩ := first
  cases kind with
  | named path args => exact (h.relaid fun _ _ _ _ => Laid.unnumberLast).done rfl
  | _ => exact h.failedAt ⟨hplaced.start_le_stop, hplaced.boundary_start, hplaced.boundary_stop⟩

theorem lays_implHead (hg : g.Lay source) :
    (implHead g).Lays source true fun head => outlines head.1 ++ outlines head.2 := by
  intro setting s hs
  apply (Trail.refl hs).bind hg.type
  intro first s h
  refine h.ifAccept rfl (fun h => ?_) (h.done rfl)
  apply (lays_traitOf h).bind
  intro traitRef s os hos h
  subst hos
  apply h.bind hg.type
  intro selfType s h
  exact h.done (by simp)

theorem lays_implDecl (hg : g.Lay source) :
    (implDecl g).Lays source true fun d => (ItemKind.impl d).parts := by
  intro setting s hs
  apply (Trail.refl hs).pass (passes_expectKeyword _)
  intro _ s h
  apply h.bind (lays_typeParams hg)
  intro typeParams s h
  apply h.bind (lays_implHead hg)
  intro head s h
  apply h.bind (lays_whereClause hg)
  intro whereClause s h
  apply h.bind (lays_members (lays_implItem hg))
  intro items s h
  exact h.done (by simp [ItemKind.parts, outlines])

/-! ## Actors -/

theorem passes_overflowPolicy : overflowPolicy.Passes source true := by
  intro setting s hs
  apply (Trail.refl hs).ifAccept rfl
  · intro h
    apply h.pass (passes_expect _)
    intro _ s h
    apply h.pass passes_name
    intro reducer s h
    apply h.pass (passes_expect _)
    intro _ s h
    apply h.pass (passes_optional (passes_acceptIf rfl) (passes_valueOf rfl _))
    intro fallback s h
    exact h.done rfl
  · apply (Trail.refl hs).pass (passes_valueOf rfl _)
    intro policy s h
    exact h.done rfl

theorem lays_mailboxDecl :
    mailboxDecl.Lays source true fun d => outlines (ActorMember.mailbox d) := by
  intro setting s hs
  apply Trail.start
  apply (Trail.refl hs).pass (passes_expectKeyword _)
  intro _ s h
  apply h.pass passes_integer
  intro capacity s h
  apply h.pass (passes_optional (passes_acceptIf rfl) passes_overflowPolicy)
  intro overflow s h
  apply h.pass passes_semicolon
  intro _ s h
  exact h.part fun span => rfl

theorem lays_actorField (hg : g.Lay source) : (actorField g).Lays source true outlines := by
  intro setting s hs
  apply Trail.start
  apply Trail.query
  apply (Trail.refl hs).advance.pass passes_name
  intro name s h
  apply h.pass (passes_expect _)
  intro _ s h
  apply h.bind hg.type
  intro type s h
  apply h.bind (lays_optional (passes_acceptIf rfl) (hg.expr 0))
  intro init s h
  apply h.pass passes_semicolon
  intro _ s h
  exact h.part fun span => rfl

theorem lays_receiveFn (hg : g.Lay source) : (receiveFn g).Lays source true outlines := by
  intro setting s hs
  apply Trail.start
  apply (Trail.refl hs).advance.pass (passes_acceptIf rfl)
  intro isGen s h
  apply h.pass (passes_expectKeyword _)
  intro _ s h
  exact (lays_fnRest hg _ _ h).bind fun fn s os hos h => h.done hos

theorem lays_actorMember (hg : g.Lay source) : (actorMember g).Lays source true outlines := by
  intro setting s hs
  have hmethod : ((do pure (.method (← fnDecl g .required)) : Parser ActorMember) setting s).Lays
      source setting s true fun member os => outlines member = os :=
    (Trail.refl hs).bind (lays_fnDecl hg .required) fun fn s h => h.done rfl
  apply Trail.kind
  intro kind hkind
  split
  case h_3 => exact (Trail.refl hs).bind lays_mailboxDecl fun mailbox s h => h.done rfl
  case h_4 => exact lays_receiveFn hg setting s hs
  case h_8 => exact (Trail.refl hs).failed rfl
  · exact lays_actorField hg setting s hs
  · exact lays_actorField hg setting s hs
  all_goals exact hmethod

theorem lays_actorInit (hg : g.Lay source) : (actorInit g).Lays source true outlines := by
  intro setting s hs
  apply Trail.start
  apply (Trail.refl hs).advance.bind (lays_params hg)
  intro params s h
  apply h.bind hg.block
  intro body s h
  exact h.part fun span => rfl

/-- The `init` block found, and the members, the last one first. -/
def PartsFound (found : Option ActorInit × List ActorMember) (os : List Outline) : Prop :=
  Merged (outlines found.2.reverse) (outlines found.1) os

theorem lays_actorPart (hg : g.Lay source) (found : Option ActorInit × List ActorMember)
    (os : List Outline) (hos : PartsFound found os) :
    (actorPart g found).LaysThat source true fun found' os' => PartsFound found' (os ++ os') := by
  obtain ⟨init, members⟩ := found
  intro setting s hs
  apply Trail.query
  split
  · apply Trail.span
    apply (Trail.refl hs).bind (lays_actorInit hg)
    intro decl s' h
    cases init with
    | none => exact h.done (by simpa [PartsFound] using Merged.append_aside hos)
    | some first =>
      -- The second `init` block is dropped, and its outline with it.
      have hdropped := h.sublist (List.nil_sublist _)
      exact (hdropped.record hs.placed_span).done (by simpa using hos)
  · apply (Trail.refl hs).bind (lays_actorMember hg)
    intro next s h
    apply h.done
    rw [PartsFound, List.reverse_cons, outlines_append, outlines_cons, outlines_nil,
      List.append_nil]
    exact Merged.append_parts hos

theorem lays_actorDecl (hg : g.Lay source) :
    (actorDecl g).LaysThat source true fun d => (ItemKind.actor d).MadeOf := by
  intro setting s hs
  apply (Trail.refl hs).pass (passes_expectKeyword _)
  intro _ s h
  apply h.pass passes_name
  intro name s h
  apply h.bind (lays_typeParams hg)
  intro typeParams s h
  apply h.bind (lays_boundsAfterColon hg)
  intro bounds s h
  apply h.bind (lays_whereClause hg)
  intro whereClause s h
  have hnone : PartsFound (none, []) [] := .whole rfl
  apply h.bindThat (laysThat_membersIn hnone (lays_actorPart hg))
  intro found s os hos h
  exact h.done (Merged.prepend hos _)

/-! ## Supervisors -/

theorem passes_namedArg (ofName? : String → Option α) (wanted : Expected) :
    (namedArg ofName? wanted).Passes source true := by
  intro setting s hs
  apply (Trail.refl hs).pass (passes_expect _)
  intro _ s h
  apply h.pass (passes_valueOf rfl _)
  intro value s h
  apply h.pass (passes_expect _)
  intro _ s h
  exact h.done rfl

theorem passes_restartBudget : restartBudget.Passes source true := by
  intro setting s hs
  apply (Trail.refl hs).pass (passes_expect _)
  intro _ s h
  apply h.pass passes_integer
  intro maxRestarts s h
  apply h.pass (passes_expect _)
  intro _ s h
  apply h.pass passes_duration
  intro window s h
  apply h.pass (passes_expect _)
  intro _ s h
  exact h.done rfl

theorem passes_restartSpec : restartSpec.Passes source true := by
  intro setting s hs
  apply (Trail.refl hs).pass (passes_namedArg _ _)
  intro policy s h
  apply h.pass (passes_optional (passes_acceptIf rfl) passes_restartBudget)
  intro budget s h
  apply h.pass (passes_optional (passes_acceptIf rfl) (passes_namedArg _ _))
  intro strategy s h
  exact h.done rfl

theorem lays_childSpec :
    childSpec.Lays source true fun child => outlines (SupervisorMember.child child) := by
  intro setting s hs
  apply Trail.start
  apply (Trail.refl hs).pass (passes_expectWord _)
  intro _ s h
  apply h.pass passes_name
  intro name s h
  apply h.pass (passes_expect _)
  intro _ s h
  apply h.pass passes_name
  intro actor s h
  apply h.pass (passes_optional (passes_acceptIf rfl) passes_restartSpec)
  intro restart s h
  apply h.pass passes_semicolon
  intro _ s h
  exact h.part fun span => rfl

theorem lays_supervisorField (hg : g.Lay source) :
    (supervisorField g).Lays source true outlines := by
  intro setting s hs
  apply Trail.start
  apply (Trail.refl hs).pass passes_name
  intro name s h
  apply h.pass (passes_expect _)
  intro _ s h
  apply h.bind (hg.expr 0)
  intro value s h
  apply h.spanFrom
  intro span h
  apply h.pass passes_memberSeparator
  intro _ s h
  exact h.done rfl

theorem lays_supervisorMember (hg : g.Lay source) :
    (supervisorMember g).Lays source true outlines := by
  intro setting s hs
  apply Trail.query
  split
  · exact (Trail.refl hs).bind lays_childSpec fun child s h => h.done rfl
  · exact lays_supervisorField hg setting s hs

theorem lays_supervisorDecl (hg : g.Lay source) :
    (supervisorDecl g).Lays source true fun d => outlines d.members := by
  intro setting s hs
  apply (Trail.refl hs).pass (passes_expectKeyword _)
  intro _ s h
  apply h.pass passes_name
  intro name s h
  apply h.bind (lays_members (lays_supervisorMember hg))
  intro members s h
  exact h.done rfl

/-! ## Items and programs -/

theorem lays_itemKind (hg : g.Lay source) :
    (itemKind g).LaysThat source true ItemKind.MadeOf := by
  intro setting s hs
  have h := Trail.refl hs
  have hfn : ((do pure (.fn (← fnDecl g .required)) : Parser ItemKind) setting s).Lays source
      setting s true ItemKind.MadeOf :=
    h.bind (lays_fnDecl hg .required) fun fn s h => h.done (.whole rfl)
  apply Trail.kind
  intro kind hkind
  split
  case h_1 => exact h.pass passes_importDecl fun decl s h => h.done (.whole rfl)
  case h_2 => exact h.bind (lays_constDecl hg) fun decl s h => h.done (.whole rfl)
  case h_3 => exact lays_typeDecl hg setting s hs
  case h_4 => exact h.advance.bind (lays_structRest hg) fun decl s h => h.done (.whole rfl)
  case h_5 => exact h.bind (lays_enumDecl hg) fun decl s h => h.done (.whole rfl)
  case h_6 => exact h.bind (lays_wireDecl hg) fun decl s h => h.done (.whole rfl)
  case h_7 => exact h.bind (lays_traitDecl hg) fun decl s h => h.done (.whole rfl)
  case h_8 => exact h.bind (lays_implDecl hg) fun decl s h => h.done (.whole rfl)
  case h_12 => exact h.bind (lays_externBlock hg) fun decl s h => h.done (.whole rfl)
  case h_13 => exact h.bindThat (lays_actorDecl hg) fun decl s os hos h => h.done hos
  case h_14 => exact h.bind (lays_supervisorDecl hg) fun decl s h => h.done (.whole rfl)
  case h_15 => exact h.failed rfl
  -- functions, whichever of their modifiers comes first
  all_goals exact hfn

theorem lays_item (hg : g.Lay source) : (item g).Lays source true outlines := by
  intro setting s hs
  apply Trail.start
  apply (Trail.refl hs).pass passes_visibility
  intro vis s h
  apply h.bindThat (lays_itemKind hg)
  intro kind s os hos h
  exact h.nodeMerged hos fun id span => rfl

end ActorFrontend.Parser
