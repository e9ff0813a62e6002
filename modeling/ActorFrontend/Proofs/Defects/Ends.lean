import ActorFrontend.Proofs.Alike.Astray
import ActorFrontend.Proofs.Progress

/-!
# Where declarations end

A declaration that is read without an error ends in a semicolon or in a closing brace.
-/

namespace ActorFrontend

open ActorFrontend.Parser

variable {α β σ : Type} {g : Rules} {setting : Setting} {s s' s'' : State}

/-- Whether a declaration may end in the token. -/
def TokenKind.concludes : TokenKind → Bool
  | .symbol .semicolon | .symbol .rightBrace => true
  | _ => false

/-- The token read last is one that a declaration may end in, unless an error has been found. -/
def State.Concluded (s s' : State) : Prop :=
  s'.Noted ∨ ∃ ts last, s.rest = ts ++ last :: s'.rest ∧ last.token.kind.concludes = true

namespace State.Concluded

theorem of_advance {symbol : Symbol} (hkind : s.kind = .symbol symbol)
    (hsymbol : (TokenKind.symbol symbol).concludes = true) : s.Concluded s.advance := by
  unfold State.kind at hkind
  cases hrest : s.rest with
  | nil =>
    rw [hrest] at hkind
    cases hkind
  | cons lexeme rest =>
    rw [hrest] at hkind
    have hlast : lexeme.token.kind = .symbol symbol := hkind
    refine .inr ⟨[], lexeme, ?_, hlast ▸ hsymbol⟩
    rw [State.rest_advance, hrest]
    rfl

theorem before (h : s'.Concluded s'') (hsuffix : s'.rest <:+ s.rest) : s.Concluded s'' := by
  obtain hnoted | ⟨ts, last, hrest, hlast⟩ := h
  · exact .inl hnoted
  · obtain ⟨front, hfront⟩ := hsuffix
    exact .inr ⟨front ++ ts, last, by rw [← hfront, hrest, List.append_assoc], hlast⟩

theorem congr (h : s.Concluded s') (hrest : s''.rest = s'.rest) (herrors : s''.errors = s'.errors)
    (hhalted : s''.halted = s'.halted) : s.Concluded s'' := by
  unfold Concluded State.Noted at h ⊢
  rwa [hrest, herrors, hhalted]

end State.Concluded

namespace Parser

/-- A reading without an error ends in a token that a declaration may end in. -/
def Concludes (p : Parser α) : Prop :=
  ∀ setting s, (p setting s).Ends (fun _ s' => s.Concluded s') fun _ => True

/-- The reading does not go back. -/
def Forward (p : Parser α) : Prop := ∀ setting s, (p setting s).state.rest <:+ s.rest

theorem Follows.forward {p : Parser α} {eats : α → Bool} (h : p.Follows true eats) : p.Forward := by
  intro setting s
  have hrun := h setting s 0
  cases hreply : p setting s with
  | ok a s' =>
    rw [hreply] at hrun
    exact hrun.course.rest_suffix
  | fail e s' =>
    rw [hreply] at hrun
    obtain ⟨-, m, hcourse⟩ := hrun
    exact hcourse.rest_suffix

theorem forward_query (f : State → α) : (query f).Forward := fun _ _ => List.suffix_rfl

theorem forward_start : start.Forward := fun _ _ => List.suffix_rfl

theorem forward_advance : advance.Forward := fun _ s => s.rest_advance_suffix

theorem forward_expect (symbol : Symbol) : (expect symbol).Forward := by
  intro setting s
  rw [expect, require_eq]
  split
  · exact s.rest_advance_suffix
  · exact List.suffix_rfl

namespace Concludes

variable {p : Parser α} {q : α → Parser β}

theorem behind (hp : p.Forward) (hq : ∀ a, (q a).Concludes) : (p >>= q).Concludes := by
  intro setting s
  have hforward : (p setting s).Ends (fun _ s' => s'.rest <:+ s.rest) fun _ => True := by
    have hsuffix := hp setting s
    cases hreply : p setting s with
    | ok a s' =>
      rw [hreply] at hsuffix
      exact hsuffix
    | fail e s' => trivial
  refine hforward.bind fun a s' hsuffix => ?_
  exact (hq a setting s').imp (fun _ _ h => h.before hsuffix) fun _ h => h

/-- What follows reads nothing more and finds nothing wrong. -/
theorem onward (hp : p.Concludes)
    (hq : ∀ a setting s, ∃ b s', q a setting s = .ok b s' ∧ s'.rest = s.rest ∧ s'.errors = s.errors ∧
      s'.halted = s.halted) : (p >>= q).Concludes := by
  intro setting s
  refine (hp setting s).bind fun a s' h => ?_
  obtain ⟨b, s'', hreply, hrest, herrors, hhalted⟩ := hq a setting s'
  rw [hreply]
  exact h.congr hrest herrors hhalted

theorem made (hp : p.Concludes) {make : α → β} : (do pure (make (← p)) : Parser β).Concludes :=
  hp.onward fun _ _ s => ⟨_, s, rfl, rfl, rfl, rfl⟩

theorem nested (hp : p.Concludes) : (nested p).Concludes := by
  intro setting s
  unfold Parser.nested
  split
  · trivial
  · have hrun := hp setting { s with depth := s.depth + 1 }
    cases hreply : p setting { s with depth := s.depth + 1 } with
    | ok a s' =>
      rw [hreply] at hrun
      exact State.Concluded.congr hrun rfl rfl rfl
    | fail e s' => trivial

theorem fails {e : Setting → State → ParseError} :
    Concludes (fun setting s => .fail (e setting s) s : Parser α) := fun _ _ => trivial

end Concludes

/-! ## Ends of what is read -/

theorem concludes_semicolon : semicolon.Concludes := by
  intro setting s
  unfold semicolon
  split
  case isTrue hkind => exact .of_advance (TokenKind.eq_of_isSymbol hkind) rfl
  case isFalse =>
    split
    · exact .inl (State.noted_record ..)
    · trivial

theorem concludes_rightBrace : (expect .rightBrace).Concludes := by
  intro setting s
  rw [expect, require_eq]
  split
  case isTrue hkind => exact .of_advance (TokenKind.eq_of_isSymbol hkind) rfl
  case isFalse => trivial

theorem concludes_braced {body : Parser α} {q : α → Parser β} (hbody : body.Forward)
    (hq : ∀ a setting s, ∃ b s', q a setting s = .ok b s' ∧ s'.rest = s.rest ∧ s'.errors = s.errors ∧
      s'.halted = s.halted) :
    Concludes (expect .leftBrace >>= fun _ => body >>= fun a => expect .rightBrace >>= fun _ => q a) :=
  .behind (forward_expect _) fun _ => .behind hbody fun a => .onward concludes_rightBrace fun _ => hq a

theorem concludes_blockRule (hg : g.Follow) : (blockRule g).Concludes :=
  .behind forward_start fun _ => concludes_braced (mayConsume_blockParts hg).forward
    fun _ _ s => ⟨_, s, rfl, rfl, rfl, rfl⟩

theorem concludes_block (levels : Nat) : (Rules.within levels).block.Concludes := by
  cases levels with
  | zero => exact .fails
  | succ levels => exact (concludes_blockRule (Rules.follow_within levels)).nested

theorem concludes_membersIn {part : σ → Parser σ} (hpart : ∀ a, (part a).Consumes true) (a : σ) :
    (membersIn part a).Concludes :=
  concludes_braced (mayConsume_bodyParts a (.inr rfl) hpart).forward
    fun _ _ s => ⟨_, s, rfl, rfl, rfl, rfl⟩

theorem concludes_members {member : Parser α} (hmember : member.Consumes true) :
    (members member).Concludes :=
  (concludes_membersIn (consumes_found hmember) []).made

theorem concludes_separatedMembers {member : Parser α} (hmember : member.Consumes true) :
    (separatedMembers member).Concludes :=
  concludes_braced (mayConsume_collect (follows_separatedTurn hmember)).forward
    fun _ _ s => ⟨_, s, rfl, rfl, rfl, rfl⟩

/-! ## Declarations -/

theorem concludes_importDecl : importDecl.Concludes :=
  .behind (consumes_expectKeyword _).forward fun _ =>
  .behind consumes_name.forward fun _ =>
  .behind (mayConsume_loop follows_importTurn _).forward fun _ => concludes_semicolon.made

theorem concludes_constDecl (hg : g.Follow) : (constDecl g).Concludes :=
  .behind (consumes_expectKeyword _).forward fun _ =>
  .behind consumes_name.forward fun _ =>
  .behind (forward_expect _) fun _ =>
  .behind hg.type.louder.forward fun _ =>
  .behind (forward_expect _) fun _ =>
  .behind (hg.expr 0).forward fun _ => concludes_semicolon.made

theorem concludes_structRest (hg : g.Follow) : (structRest g).Concludes :=
  .behind consumes_name.forward fun _ =>
  .behind (mayConsume_typeParams hg.type.louder).forward fun _ =>
  .behind (mayConsume_whereClause hg.type.louder).forward fun _ =>
  (concludes_separatedMembers (consumes_fieldDecl hg.type.louder)).made

theorem concludes_typeDecl (hg : g.Follow) : (typeDecl g).Concludes := by
  refine .behind (consumes_expectKeyword _).forward fun _ => ?_
  refine .behind (forward_query _) fun isStruct => ?_
  split
  · exact (concludes_structRest hg).made
  · refine .behind consumes_name.forward fun name => ?_
    refine .behind (mayConsume_typeParams hg.type.louder).forward fun typeParams => ?_
    refine .behind (follows_acceptIf ⟨rfl, rfl, rfl⟩).forward fun accepted => ?_
    split
    · exact .behind hg.type.louder.forward fun _ => concludes_semicolon.made
    · exact .fails

theorem concludes_enumDecl (hg : g.Follow) : (enumDecl g).Concludes :=
  .behind (consumes_expectKeyword _).forward fun _ =>
  .behind consumes_name.forward fun _ =>
  .behind (mayConsume_typeParams hg.type.louder).forward fun _ =>
  .behind (mayConsume_whereClause hg.type.louder).forward fun _ =>
  (concludes_separatedMembers (consumes_variant hg.type.louder)).made

theorem concludes_wireDecl (hg : g.Follow) : (wireDecl g).Concludes :=
  .behind (consumes_expectKeyword _).forward fun _ =>
  .behind consumes_wireKind.forward fun _ =>
  .behind consumes_name.forward fun _ =>
  (concludes_separatedMembers (consumes_wireMember hg)).made

theorem concludes_traitDecl (hg : g.Follow) : (traitDecl g).Concludes :=
  .behind (consumes_expectKeyword _).forward fun _ =>
  .behind consumes_name.forward fun _ =>
  .behind (mayConsume_typeParams hg.type.louder).forward fun _ =>
  .behind (mayConsume_boundsAfterColon hg.type.louder).forward fun _ =>
  .behind (mayConsume_whereClause hg.type.louder).forward fun _ =>
  (concludes_members (consumes_traitItem hg)).made

theorem concludes_implDecl (hg : g.Follow) : (implDecl g).Concludes :=
  .behind (consumes_expectKeyword _).forward fun _ =>
  .behind (mayConsume_typeParams hg.type.louder).forward fun _ =>
  .behind (consumes_implHead hg.type.louder).forward fun _ =>
  .behind (mayConsume_whereClause hg.type.louder).forward fun _ =>
  (concludes_members (consumes_implItem hg)).made

theorem concludes_externBlock (hg : g.Follow) : (externBlock g).Concludes :=
  .behind (consumes_expectKeyword _).forward fun _ =>
  .behind consumes_string.forward fun _ =>
  (concludes_members (consumes_externFn hg.type.louder)).made

theorem concludes_actorDecl (hg : g.Follow) : (actorDecl g).Concludes :=
  .behind (consumes_expectKeyword _).forward fun _ =>
  .behind consumes_name.forward fun _ =>
  .behind (mayConsume_typeParams hg.type.louder).forward fun _ =>
  .behind (mayConsume_boundsAfterColon hg.type.louder).forward fun _ =>
  .behind (mayConsume_whereClause hg.type.louder).forward fun _ =>
  (concludes_membersIn (consumes_actorPart hg) _).made

theorem concludes_supervisorDecl (hg : g.Follow) : (supervisorDecl g).Concludes :=
  .behind (consumes_expectKeyword _).forward fun _ =>
  .behind consumes_name.forward fun _ =>
  (concludes_members (consumes_supervisorMember hg)).made

theorem concludes_fnDecl (levels : Nat) : (fnDecl (.within levels) .required).Concludes := by
  have hg := Rules.follow_within levels
  refine .behind forward_start fun start => ?_
  refine .behind (follows_acceptIf ⟨rfl, rfl, rfl⟩).forward fun isAsync => ?_
  refine .behind (follows_acceptIf ⟨rfl, rfl, rfl⟩).forward fun isGen => ?_
  refine .behind (consumes_expectKeyword _).forward fun _ => ?_
  refine .behind consumes_name.forward fun name => ?_
  refine .behind (mayConsume_typeParams hg.type.louder).forward fun typeParams => ?_
  refine .behind (consumes_params hg.type.louder).forward fun params => ?_
  refine .behind (mayConsume_fnResult hg.type.louder _).forward fun ret => ?_
  refine .behind (mayConsume_whereClause hg.type.louder).forward fun whereClause => ?_
  -- a semicolon in place of the body is not looked for
  have hbody : (fnBody (.within levels) .required).Concludes := (concludes_block levels).made
  exact .onward hbody fun _ _ s => ⟨_, s, rfl, rfl, rfl, rfl⟩

theorem concludes_itemKind (levels : Nat) : (itemKind (.within levels)).Concludes := by
  have hg := Rules.follow_within levels
  refine .behind (forward_query _) fun k => ?_
  split
  · exact concludes_importDecl.made
  · exact (concludes_constDecl hg).made
  · exact concludes_typeDecl hg
  · exact Concludes.made (.behind forward_advance fun _ => concludes_structRest hg)
  · exact (concludes_enumDecl hg).made
  · exact (concludes_wireDecl hg).made
  · exact (concludes_traitDecl hg).made
  · exact (concludes_implDecl hg).made
  · exact (concludes_fnDecl levels).made
  · exact (concludes_fnDecl levels).made
  · exact (concludes_fnDecl levels).made
  · exact (concludes_externBlock hg).made
  · exact (concludes_actorDecl hg).made
  · exact (concludes_supervisorDecl hg).made
  · exact .fails

theorem concludes_item (levels : Nat) : (item (.within levels)).Concludes :=
  .behind forward_start fun _ =>
  .behind mayConsume_visibility.forward fun _ =>
  .onward (concludes_itemKind levels) fun _ _ _ => ⟨_, _, rfl, rfl, rfl, rfl⟩

/-- What has been read of a program ends in a token that a declaration may end in, unless an error has
been found or nothing has been read. -/
theorem concluded_items (levels : Nat) {items : List Item}
    (hreply : loop (programTurn (.within levels)) [] setting s = .ok items s') :
    s'.rest = s.rest ∨ s.Concluded s' := by
  have hloop : (loop (programTurn (.within levels)) [] setting s).Ends
      (fun _ s' => s'.rest <:+ s.rest ∧ (s'.rest = s.rest ∨ s.Concluded s')) fun _ => True := by
    refine ends_loop _ (fun items s₁ h => ?_) ⟨List.suffix_rfl, .inl rfl⟩
    change ((if s₁.atEnd = true then _ else _ : Parser _) setting s₁).Ends _ _
    split
    · exact h
    · obtain ⟨hsuffix, -⟩ := h
      cases hhalted : s₁.halted with
      | true =>
        unfold resilient
        rw [hhalted]
        refine ⟨(State.rest_skip_suffix _ _).trans hsuffix, .inr (.inl ?_)⟩
        exact State.Noted.kept (.inr hhalted) (@State.Kept.skip true ..)
      | false =>
        rw [Keeps.resilient_eq hhalted]
        have hitem : Concludes (do
            let next ← item (.within levels)
            pure (next :: items)) := (concludes_item levels).made
        have hfound := hitem setting s₁
        have hforward := (consumes_found (consumes_item (Rules.follow_within levels)) items).forward
          setting s₁
        generalize (do
          let next ← item (.within levels)
          pure (next :: items) : Parser (List Item)) setting s₁ = r at hfound hforward
        cases r with
        | ok found s₂ => exact ⟨hforward.trans hsuffix, .inr (hfound.before hsuffix)⟩
        | fail e s₂ =>
          refine ⟨(State.rest_recover_suffix ..).trans (hforward.trans hsuffix), .inr (.inl ?_)⟩
          exact (State.noted_record ..).kept (@Keeps.kept_recover true ..)
  rw [hreply] at hloop
  exact hloop.2

end Parser

end ActorFrontend
