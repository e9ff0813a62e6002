import ActorFrontend.Proofs.Alike.Statements
import ActorFrontend.Proofs.Progress

/-!
# Parts that break off at once

A recovery may resume in the midst of the head of a lambda.  No member and no declaration can be read
there: the reading fails at its first token, or behind the word that seemed to start it.
-/

namespace ActorFrontend

namespace Parser

variable {α β : Type} {g : Rules} {setting : Setting} {s s' : State}

/-- The reading fails at once, or behind `fn`. -/
def Breaks (p : Parser α) (setting : Setting) (s : State) : Prop :=
  ∃ e k, p setting s = .fail e (s.skip k) ∧ e.cause.stops = true ∧
    (k = 0 ∨ k = 1 ∧ s.kind = .keyword .fnKw)

theorem Breaks.bind {p : Parser α} (h : p.Breaks setting s) (q : α → Parser β) :
    (p >>= q).Breaks setting s := by
  obtain ⟨e, k, hfail, hrest⟩ := h
  exact ⟨e, k, bind_fail hfail, hrest⟩

theorem Breaks.of_ok {p : Parser α} {q : α → Parser β} {a : α} (hreply : p setting s = .ok a s)
    (h : (q a).Breaks setting s) : (p >>= q).Breaks setting s := by
  obtain ⟨e, k, hfail, hrest⟩ := h
  exact ⟨e, k, (bind_ok hreply).trans hfail, hrest⟩

theorem breaks_expected (wanted : Expected) : (expected wanted : Parser α).Breaks setting s :=
  ⟨_, 0, rfl, rfl, .inl rfl⟩

theorem name_eq_fail (hkind : s.kind.isName = false) :
    name setting s = .fail (s.expectedError setting .name) s := by
  rw [name, valueOf_eq]
  cases hk : s.kind with
  | ident =>
    rw [hk] at hkind
    cases hkind
  | _ => rfl

theorem acceptIf_eq_of_not {test : TokenKind → Bool} (hkind : test s.kind = false) :
    acceptIf test setting s = .ok false s := by
  rw [acceptIf_eq, hkind]
  rfl

theorem kind_eq_firstKind (s : State) : s.kind = Lexeme.firstKind s.rest := by
  unfold State.kind
  cases s.rest <;> rfl

/-- What stands at a place in the head of a lambda where members may be resumed. -/
theorem kind_of_mistaken (h : Parts.members.Mistaken s.rest) :
    s.kind = .keyword .fnKw ∧ s.advance.kind.isName = false ∨ s.kind = .symbol .leftParen := by
  rw [kind_eq_firstKind, kind_eq_firstKind s.advance, State.rest_advance]
  generalize s.rest = rest at h
  cases h with
  | function hkind hrest => exact .inl ⟨hkind, congrArg TokenKind.isName hrest⟩
  | paren hkind => exact .inr hkind

/-- A function without a name. -/
theorem breaks_function {q : Unit → Parser α}
    (hq : ∀ t : State, t.kind.isName = false → ∃ e : ParseError,
      q () setting t = .fail e t ∧ e.cause.stops = true)
    (h : s.kind = .keyword .fnKw ∧ s.advance.kind.isName = false ∨ s.kind = .symbol .leftParen) :
    (expectKeyword .fnKw >>= q).Breaks setting s := by
  obtain ⟨hfn, hnext⟩ | hparen := h
  · have hexpect : expectKeyword .fnKw setting s = .ok () s.advance := by
      rw [expectKeyword, require_eq, hfn]
      rfl
    obtain ⟨e, hfail, hstops⟩ := hq s.advance hnext
    exact ⟨e, 1, (bind_ok hexpect).trans hfail, hstops, .inr ⟨rfl, hfn⟩⟩
  · have hexpect : expectKeyword .fnKw setting s =
        .fail (s.expectedError setting (.keyword .fnKw)) s := by
      rw [expectKeyword, require_eq, hparen]
      rfl
    exact ⟨_, 0, bind_fail hexpect, rfl, .inl rfl⟩

theorem breaks_fnDecl (rule : BodyRule)
    (h : s.kind = .keyword .fnKw ∧ s.advance.kind.isName = false ∨ s.kind = .symbol .leftParen) :
    (fnDecl g rule).Breaks setting s := by
  have hword (keyword : Keyword) (hne : keyword ≠ .fnKw) :
      acceptKeyword keyword setting s = .ok false s := by
    refine acceptIf_eq_of_not ?_
    obtain ⟨hfn, -⟩ | hparen := h
    · rw [hfn]
      simpa [TokenKind.isKeyword] using Ne.symm hne
    · rw [hparen]
      rfl
  refine .of_ok (a := (s.span setting).start) rfl (.of_ok (hword .asyncKw (by decide))
    (.of_ok (hword .genKw (by decide)) (breaks_function (fun t ht => ?_) h)))
  exact ⟨_, bind_fail (name_eq_fail ht), rfl⟩

/-! ## Members -/

theorem Breaks.breaksOff {part : Parser α}
    (h : ∀ setting s, (s.kind = .keyword .fnKw ∧ s.advance.kind.isName = false ∨
      s.kind = .symbol .leftParen) → part.Breaks setting s) : Parts.members.BreaksOff part := by
  intro setting s hmistaken
  obtain ⟨e, k, hfail, hstops, hk⟩ := h setting s (kind_of_mistaken hmistaken)
  exact ⟨e, k, hfail, hstops, fun _ => hk⟩

theorem breaksOff_found {parts : Parts} {member : Parser α} (h : parts.BreaksOff member)
    (found : List α) : parts.BreaksOff (do
      let next ← member
      pure (next :: found)) := by
  intro setting s hmistaken
  obtain ⟨e, k, hfail, hrest⟩ := h setting s hmistaken
  exact ⟨e, k, bind_fail hfail, hrest⟩

theorem breaksOff_externFn : Parts.members.BreaksOff (externFn g) :=
  Breaks.breaksOff fun setting s h => .of_ok (a := (s.span setting).start) rfl
    (breaks_function (fun _ ht => ⟨_, bind_fail (name_eq_fail ht), rfl⟩) h)

/-- Where a type may be declared instead of a function. -/
theorem breaks_typeOrFn {declared : Parser α} {make : FnDecl → α} (rule : BodyRule)
    (h : s.kind = .keyword .fnKw ∧ s.advance.kind.isName = false ∨ s.kind = .symbol .leftParen) :
    (do
      if ← seesKeyword .typeKw then declared
      else pure (make (← fnDecl g rule))).Breaks setting s := by
  have hsees : seesKeyword .typeKw setting s = .ok false s := by
    obtain ⟨hfn, -⟩ | hparen := h
    · rw [seesKeyword, query, hfn]
      rfl
    · rw [seesKeyword, query, hparen]
      rfl
  exact .of_ok hsees ((breaks_fnDecl rule h).bind _)

theorem breaksOff_traitItem : Parts.members.BreaksOff (traitItem g) :=
  Breaks.breaksOff fun _ _ => breaks_typeOrFn .optional

theorem breaksOff_implItem : Parts.members.BreaksOff (implItem g) :=
  Breaks.breaksOff fun _ _ => breaks_typeOrFn .required

theorem breaksOff_supervisorMember : Parts.members.BreaksOff (supervisorMember g) := by
  refine Breaks.breaksOff fun setting s h => ?_
  have hkind : s.kind.isName = false := by
    obtain ⟨hfn, -⟩ | hparen := h
    · rw [hfn]
      rfl
    · rw [hparen]
      rfl
  have hchild : s.kind.isWord "child" = false := by
    cases hk : s.kind <;> simp_all [TokenKind.isName, TokenKind.isWord]
  refine .of_ok (a := false) (by rw [query, hchild]; rfl) (.of_ok (a := (s.span setting).start) rfl ?_)
  exact Breaks.bind ⟨_, 0, name_eq_fail hkind, rfl, .inl rfl⟩ _

theorem breaksOff_actorPart (found : Option ActorInit × List ActorMember) :
    Parts.members.BreaksOff (actorPart g found) := by
  refine Breaks.breaksOff fun setting s h => ?_
  have hinit : s.kind.isWord "init" = false := by
    obtain ⟨hfn, -⟩ | hparen := h
    · rw [hfn]
      rfl
    · rw [hparen]
      rfl
  refine .of_ok (a := false) (by rw [query, hinit]; rfl) (Breaks.bind ?_ _)
  rw [actorMember]
  refine .of_ok (a := s.kind) rfl ?_
  obtain ⟨hfn, hnext⟩ | hparen := h
  · rw [hfn]
    exact (breaks_fnDecl .required (.inl ⟨hfn, hnext⟩)).bind _
  · rw [hparen]
    exact breaks_expected _

/-! ## Declarations -/

/-- A constant without a name, or without a colon behind that. -/
theorem fails_constDecl (setting : Setting) (hs : s.kind = .keyword .constKw)
    (h : s.advance.kind.isName = true → s.advance.advance.kind ≠ .symbol .colon) :
    ∃ e k, constDecl g setting s = .fail e (s.skip k) ∧ e.cause.stops = true := by
  have hexpect : expectKeyword .constKw setting s = .ok () s.advance := by
    rw [expectKeyword, require_eq, hs]
    rfl
  cases hname : s.advance.kind.isName with
  | false => exact ⟨_, 1, (bind_ok hexpect).trans (bind_fail (name_eq_fail hname)), rfl⟩
  | true =>
    have hread : ∃ word, name setting s.advance = .ok word s.advance.advance := by
      rw [name, valueOf_eq]
      cases hk : s.advance.kind <;> simp_all [TokenKind.isName]
    obtain ⟨word, hread⟩ := hread
    have hcolon : expect .colon setting s.advance.advance =
        .fail (s.advance.advance.expectedError setting (.symbol .colon)) s.advance.advance := by
      rw [expect, require_eq, if_neg]
      exact fun hkind => h hname (TokenKind.eq_of_isSymbol hkind)
    exact ⟨_, 2, (bind_ok hexpect).trans ((bind_ok hread).trans (bind_fail hcolon)), rfl⟩

theorem breaksOff_item : Parts.items.BreaksOff (item g) := by
  intro setting s hmistaken
  obtain ⟨lexeme, rest, hrest, hin⟩ : ∃ lexeme rest, s.rest = lexeme :: rest ∧ lexeme.InHead rest := by
    generalize s.rest = rest at hmistaken
    cases hmistaken with
    | token h => exact ⟨_, _, rfl, h⟩
  have hkind : s.kind = lexeme.token.kind := by rw [State.kind, hrest]
  have hnext : s.advance.kind = Lexeme.firstKind rest := by
    rw [kind_eq_firstKind, State.rest_advance, hrest]
    rfl
  have hfurther : s.advance.advance.kind = Lexeme.firstKind (rest.drop 1) := by
    rw [kind_eq_firstKind, State.rest_advance, State.rest_advance, hrest]
    rfl
  have hpub : visibility setting s = .ok .privateVis s := by
    have hnot : acceptKeyword .pubKw setting s = .ok false s := by
      refine acceptIf_eq_of_not ?_
      rw [hkind]
      have hin := hin.kind
      cases hk : lexeme.token.kind with
      | keyword keyword =>
        rw [hk] at hin
        cases keyword <;> first | rfl | cases hin
      | _ => rfl
    exact (bind_ok hnot).trans rfl
  have hitem : ∃ e k, itemKind g setting s = .fail e (s.skip k) ∧ e.cause.stops = true := by
    have hexpected : ∃ e k, (expected .item : Parser ItemKind) setting s = .fail e (s.skip k) ∧
        e.cause.stops = true := ⟨_, 0, rfl, rfl⟩
    have hin' := hin.kind
    rw [itemKind, kind_bind, hkind]
    cases hk : lexeme.token.kind with
    | keyword keyword =>
      rw [hk] at hin'
      cases keyword <;> first | exact hexpected | cases hin'
      case constKw.refl =>
        obtain ⟨-, hcolon⟩ := hin.pointer hk
        rw [← hnext, ← hfurther] at hcolon
        obtain ⟨e, k, hfail, hstops⟩ := fails_constDecl (g := g) setting
          (hkind.trans hk) hcolon
        exact ⟨e, k, bind_fail hfail, hstops⟩
      case fnKw.refl =>
        have hname : s.advance.kind.isName = false := by
          rw [hnext, hin.function hk]
          rfl
        have hbreaks : (fnDecl g .required).Breaks setting s :=
          breaks_fnDecl .required (.inl ⟨hkind.trans hk, hname⟩)
        obtain ⟨e, k, hfail, hstops, -⟩ :=
          hbreaks.bind fun decl => (pure (ItemKind.fn decl) : Parser ItemKind)
        exact ⟨e, k, hfail, hstops⟩
    | _ => exact hexpected
  obtain ⟨e, k, hfail, hstops⟩ := hitem
  exact ⟨e, k, (bind_ok hpub).trans (bind_fail hfail), hstops, fun h => by cases h⟩

end Parser

end ActorFrontend
