import ActorFrontend.Proofs.Alike.Together
import ActorFrontend.Proofs.Bracketed.Basic
import ActorFrontend.Proofs.Nesting.Makes

/-!
# Readings that stop where inputs part

A run that stops where two inputs part, or before that place, goes on in the other input as well, with
the same answer.  This is carried through the combinators, one lemma for each.
-/

namespace ActorFrontend

open ActorFrontend.Parser
open Makes (keeps_acceptIf keeps_require keeps_valueOf)

variable {α β σ : Type} {k : TokenKind} {final loud : Bool} {setting : Setting} {s s' t : State}

/-- Where a run goes on that has recorded nothing, nothing is recorded unless an error is found. -/
theorem Parting.Before.not_noted {parting : Parting} (h : parting.Before s s') (hkept : s.Kept loud t)
    (ht : t.errors = []) : ¬ t.Noted := by
  have hhalted := hkept.unspent (ht.trans h.errors.symm)
  rw [h.running] at hhalted
  intro hnoted
  obtain herrors | hstopped := hnoted
  · exact herrors ht
  · exact Bool.false_ne_true (hhalted.symm.trans hstopped)

namespace Parser

/-- At a token of this kind the parser answers in the second run as in the first one, if that stops where
the inputs part, or before that place, and has recorded no error. -/
structure Carries (k : TokenKind) (final : Bool) (p : Parser α) : Prop where
  keeps : p.Keeps true
  carries : ∀ (parting : Parting) (s s' : State) (a : α) (t : State), s.kind = k → parting.Before s s' →
    p parting.setting s = .ok a t → t.errors = [] → parting.Stays final t →
      ∃ t', p parting.setting' s' = .ok a t' ∧ parting.Before t t'

/-- Where an argument ends the parser fails or records an error, or it goes beyond that place. -/
structure Starved (p : Parser α) : Prop where
  keeps : p.Keeps true
  starved : ∀ (setting : Setting) (place : Span) (s : State) (a : α) (t : State),
    Closing setting place s.rest → p setting s = .ok a t → t.errors = [] → t.rest.length < s.rest.length

variable {p : Parser α} {q : α → Parser β}

/-- What every turn keeps, the repetition keeps. -/
theorem Keeps.loop {step : σ → Parser (Bool × σ)} (h : ∀ a, (step a).Keeps loud) (a : σ) :
    (Parser.loop step a).Keeps loud := by
  have hturn (a a' : σ) (_ : True) :
      KeepAlike True loud (fun r r' : Bool × σ => r.1 = r'.1 ∧ True) (step a) (step a') :=
    .of_total (h a) (h a') (fun r => ⟨r, rfl, trivial⟩) fun _ r => ⟨r, rfl, trivial⟩
  have hloop : KeepAlike True loud (fun _ _ => True) (Parser.loop step a) (Parser.loop step a) :=
    .loop hturn trivial
  exact hloop.left

/-! ## Where an argument ends -/

namespace Starved

theorem expected (wanted : Expected) : (Parser.expected wanted : Parser α).Starved :=
  ⟨fun _ s => .refl s, fun _ _ _ _ _ _ hreply => nomatch hreply⟩

theorem tooDeep : (Parser.tooDeep : Parser α).Starved :=
  ⟨keeps_tooDeep, fun _ _ _ _ _ _ hreply => nomatch hreply⟩

theorem bind (hp : p.Starved) (hq : ∀ a, (q a).Keeps true) : (p >>= q).Starved where
  keeps := .bind hp.keeps fun a _ => hq a
  starved := by
    intro setting place s b t hs hreply herrors
    obtain ⟨a, t₁, hfirst, hthen⟩ := bind_eq_ok_iff.1 hreply
    have hkept := (hq a).kept hthen
    exact Nat.lt_of_le_of_lt hkept.rest.length_le
      (hp.starved setting place s a t₁ hs hfirst (hkept.errors_eq_nil herrors))

/-- What comes first may stay where it is. -/
theorem last (hp : p.Keeps true) (hq : ∀ a, (q a).Starved) : (p >>= q).Starved where
  keeps := .bind hp fun a _ => (hq a).keeps
  starved := by
    intro setting place s b t hs hreply herrors
    obtain ⟨a, t₁, hfirst, hthen⟩ := bind_eq_ok_iff.1 hreply
    have hrest := (hp.kept hfirst).rest
    have hle := ((hq a).keeps.kept hthen).rest.length_le
    by_cases hlt : t₁.rest.length < s.rest.length
    · exact Nat.lt_of_le_of_lt hle hlt
    · have heq : t₁.rest = s.rest := hrest.eq_of_length_le (Nat.le_of_not_lt hlt)
      have hend := (hq a).starved setting place t₁ b t (heq ▸ hs) hthen herrors
      rwa [heq] at hend

theorem kind {q : TokenKind → Parser β} (hkeeps : (Parser.kind >>= q).Keeps true)
    (hq : ∀ k, k = .endOfFile ∨ k = .symbol .rightParen → (q k).Starved) :
    (Parser.kind >>= q).Starved where
  keeps := hkeeps
  starved setting place s b t hs hreply herrors :=
    (hq s.kind (hs.kind rfl)).starved setting place s b t hs hreply herrors

theorem require {test : TokenKind → Bool} (htest : test .endOfFile = false) (wanted : Expected) :
    (Parser.require test wanted).Starved where
  keeps := keeps_require test wanted
  starved := by
    intro setting place s b t hs hreply _
    rw [require_eq] at hreply
    split at hreply
    case isTrue hkind =>
      obtain ⟨-, rfl⟩ := Reply.ok.inj hreply
      refine s.rest_advance_lt fun hend => ?_
      rw [hend, htest] at hkind
      cases hkind
    case isFalse => cases hreply

theorem valueOf {value? : TokenKind → Option α} (hvalue : value? .endOfFile = none)
    (wanted : Expected) : (Parser.valueOf value? wanted).Starved where
  keeps := keeps_valueOf value? wanted
  starved := by
    intro setting place s b t hs hreply _
    rw [valueOf_eq] at hreply
    cases hkind : value? s.kind with
    | some a =>
      rw [hkind] at hreply
      obtain ⟨-, rfl⟩ := Reply.ok.inj hreply
      refine s.rest_advance_lt fun hend => ?_
      rw [hend, hvalue] at hkind
      cases hkind
    | none =>
      rw [hkind] at hreply
      cases hreply

theorem nested (hp : p.Starved) : (Parser.nested p).Starved where
  keeps := .nested hp.keeps
  starved := by
    intro setting place s b t hs hreply herrors
    unfold Parser.nested at hreply
    split at hreply
    · cases hreply
    · obtain ⟨t₁, hinner, rfl⟩ := mapState_eq_ok_iff.1 hreply
      exact hp.starved setting place { s with depth := s.depth + 1 } b t₁ hs hinner herrors

end Starved

namespace Carries

/-! ## Sequences -/

/-- Whatever may stop where the inputs part may also stop before. -/
theorem weaken (h : p.Carries k true) : p.Carries k final where
  keeps := h.keeps
  carries parting s s' a t hk hs hreply herrors hstays :=
    h.carries parting s s' a t hk hs hreply herrors hstays.length_le

theorem value (a : α) : (pure a : Parser α).Carries k final := by
  refine ⟨.pure a, fun parting s s' b t _ hs hreply _ _ => ?_⟩
  obtain ⟨rfl, rfl⟩ := Reply.ok.inj hreply
  exact ⟨s', rfl, hs⟩

theorem expected (wanted : Expected) : (Parser.expected wanted : Parser α).Carries k final :=
  ⟨fun _ s => .refl s, fun _ _ _ _ _ _ _ hreply => nomatch hreply⟩

theorem tooDeep : (Parser.tooDeep : Parser α).Carries k final :=
  ⟨keeps_tooDeep, fun _ _ _ _ _ _ _ hreply => nomatch hreply⟩

theorem bind (hp : p.Carries k final) (hq : ∀ a k, (q a).Carries k final) :
    (p >>= q).Carries k final where
  keeps := .bind hp.keeps fun a _ => (hq a .endOfFile).keeps
  carries := by
    intro parting s s' b t hk hs hreply herrors hstays
    obtain ⟨a, t₁, hfirst, hthen⟩ := bind_eq_ok_iff.1 hreply
    have hkept := (hq a t₁.kind).keeps.kept hthen
    obtain ⟨t₁', hfirst', ht₁⟩ := hp.carries parting s s' a t₁ hk hs hfirst
      (hkept.errors_eq_nil herrors) (hstays.of_suffix hkept.rest)
    rw [bind_ok hfirst']
    exact (hq a t₁.kind).carries parting t₁ t₁' b t rfl ht₁ hthen herrors hstays

/-- What follows cannot do without a token, so what comes first stops before the inputs part. -/
theorem close (hp : p.Carries k false) (hq : ∀ a k, (q a).Carries k true) (hend : ∀ a, (q a).Starved) :
    (p >>= q).Carries k final := by
  refine .weaken ⟨.bind hp.keeps fun a _ => (hend a).keeps, ?_⟩
  intro parting s s' b t hk hs hreply herrors hstays
  obtain ⟨a, t₁, hfirst, hthen⟩ := bind_eq_ok_iff.1 hreply
  have hkept := (hend a).keeps.kept hthen
  have hlt : parting.left.length < t₁.rest.length := by
    refine Nat.lt_of_le_of_ne (hstays.of_suffix hkept.rest).length_le fun hlength => ?_
    -- at the place where the inputs part nothing can follow
    obtain ⟨ts, hrest, -⟩ := hs.rest
    have hleft : parting.left <:+ s.rest := ⟨ts, hrest.symm⟩
    have heq : t₁.rest = parting.left :=
      ((List.suffix_of_suffix_length_le (hp.keeps.kept hfirst).rest hleft
        (Nat.le_of_eq hlength.symm)).eq_of_length hlength.symm)
    have hbeyond := (hend a).starved parting.setting parting.place t₁ b t
      (heq ▸ parting.left_closing) hthen herrors
    rw [heq] at hbeyond
    exact absurd hstays.length_le (Nat.not_le_of_lt hbeyond)
  obtain ⟨t₁', hfirst', ht₁⟩ :=
    hp.carries parting s s' a t₁ hk hs hfirst (hkept.errors_eq_nil herrors) hlt
  rw [bind_ok hfirst']
  exact (hq a t₁.kind).carries parting t₁ t₁' b t rfl ht₁ hthen herrors hstays

/-! ## Looking -/

/-- Something that is not told apart by what follows. -/
theorem query {f : State → α}
    (hf : ∀ (parting : Parting) (s s' : State), s.kind = k → parting.Before s s' →
      parting.Stays final s → f s = f s')
    (hq : ∀ a, (q a).Carries k final) : (Parser.query f >>= q).Carries k final where
  keeps := .bind (.query f) fun a _ => (hq a).keeps
  carries := by
    intro parting s s' b t hk hs hreply herrors hstays
    rw [query_bind] at hreply ⊢
    have hkept := (hq (f s)).keeps.kept hreply
    rw [← hf parting s s' hk hs (hstays.of_suffix hkept.rest)]
    exact (hq (f s)).carries parting s s' b t hk hs hreply herrors hstays

/-- Something that tells of the token at hand. -/
theorem look {f : State → α}
    (hf : ∀ (parting : Parting) (s s' : State), parting.Before s s' → parting.Stays final s → f s = f s')
    (hq : ∀ s : State, (q (f s)).Carries s.kind final) : (Parser.query f >>= q).Carries k final where
  keeps := by
    refine .bind (.query f) fun a ha => ?_
    obtain ⟨setting, s, after, hreply⟩ := ha
    obtain ⟨rfl, -⟩ := Reply.ok.inj hreply
    exact (hq s).keeps
  carries := by
    intro parting s s' b t _ hs hreply herrors hstays
    rw [query_bind] at hreply ⊢
    have hkept := (hq s).keeps.kept hreply
    rw [← hf parting s s' hs (hstays.of_suffix hkept.rest)]
    exact (hq s).carries parting s s' b t rfl hs hreply herrors hstays

/-- Something that does not tell the end of the input from a closing parenthesis, if it is not before
them. -/
theorem test {f : TokenKind → α} (hf : final = true → f .endOfFile = f (.symbol .rightParen))
    (hq : ∀ a, (q a).Carries k final) : ((Parser.query fun s => f s.kind) >>= q).Carries k final :=
  .query (fun _ _ _ _ hs hstays => hs.test_eq hstays hf) hq

theorem seen {f : State → Bool}
    (hf : ∀ (parting : Parting) (s s' : State), parting.Before s s' → parting.Stays final s →
      f s = f s') : (Parser.query f).Carries k final := by
  rw [← bind_pure (Parser.query f)]
  exact .query (fun parting s s' _ => hf parting s s') .value

/-- Whether a body ends here. -/
theorem atBodyEnd {q : Bool → Parser β} (hq : ∀ a, (q a).Carries k false) :
    (Parser.atBodyEnd >>= q).Carries k false := by
  refine .query (fun parting s s' _ hs hstays => ?_) hq
  obtain ⟨lexeme, ts, hrest, hrest'⟩ := hs.inside hstays
  simp only [State.kind, State.atEnd, hrest, hrest']
  rfl

theorem kind {q : TokenKind → Parser β} (hf : final = true → q .endOfFile = q (.symbol .rightParen))
    (hq : ∀ k, (q k).Carries k final) : (Parser.kind >>= q).Carries k final where
  keeps := .bind (.query _) fun k _ => (hq k).keeps
  carries := by
    intro parting s s' b t hk hs hreply herrors hstays
    rw [kind_bind] at hreply ⊢
    have hkept := (hq s.kind).keeps.kept hreply
    rw [← hs.test_eq (hstays.of_suffix hkept.rest) hf]
    exact (hq s.kind).carries parting s s' b t rfl hs hreply herrors hstays

/-- Something that depends on where the token at hand stands. -/
theorem place {γ : Type} {f : Span → γ} {q : γ → Parser β} (hq : ∀ a, (q a).Carries k final) :
    ((fun setting s => .ok (f (s.span setting)) s : Parser γ) >>= q).Carries k final where
  keeps := .bind (fun _ s => .refl s) fun a _ => (hq a).keeps
  carries := by
    intro parting s s' b t hk hs hreply herrors hstays
    have hreply : q (f (s.span parting.setting)) parting.setting s = .ok b t := hreply
    show ∃ t', q (f (s'.span parting.setting')) parting.setting' s' = .ok b t' ∧ _
    rw [← hs.span_eq]
    exact (hq _).carries parting s s' b t hk hs hreply herrors hstays

theorem start {q : Nat → Parser β} (hq : ∀ a, (q a).Carries k final) :
    (Parser.start >>= q).Carries k final :=
  place hq

theorem span {q : Span → Parser β} (hq : ∀ a, (q a).Carries k final) :
    (Parser.span >>= q).Carries k final :=
  place (f := fun span => span) hq

theorem spanFrom (start : Nat) : (Parser.spanFrom start).Carries k final := by
  refine ⟨.query _, fun parting s s' span t _ hs hreply _ _ => ?_⟩
  obtain ⟨rfl, rfl⟩ := Reply.ok.inj hreply
  refine ⟨s', ?_, hs⟩
  rw [hs.same]
  rfl

theorem freshId : Parser.freshId.Carries k final := by
  refine ⟨.freshId, fun parting s s' id t _ hs hreply _ _ => ?_⟩
  obtain ⟨rfl, rfl⟩ := Reply.ok.inj hreply
  refine ⟨{ s' with nextId := s'.nextId + 1 }, ?_, hs.congr rfl rfl (by rw [hs.same]) rfl rfl⟩
  rw [hs.same]
  rfl

/-- A value that holds its span. -/
theorem part (start : Nat) (make : Span → α) :
    (do pure (make (← Parser.spanFrom start)) : Parser α).Carries k final :=
  .bind (.spanFrom start) fun span _ => .value (make span)

theorem node (start : Nat) (make : NodeId → Span → α) : (Parser.node start make).Carries k final :=
  .bind .freshId fun id _ => .part start (make id)

/-! ## Single tokens -/

theorem advance (hk : final = true → k ≠ .endOfFile) : Parser.advance.Carries k final := by
  refine ⟨.advance, fun parting s s' a t hkind hs hreply _ hstays => ?_⟩
  obtain ⟨-, rfl⟩ := Reply.ok.inj hreply
  refine ⟨s'.advance, rfl, hs.advance ?_⟩
  cases final with
  | true => exact Parting.Before.stays_of_advance (hkind ▸ hk rfl) hstays
  | false => exact hstays.of_suffix s.rest_advance_suffix

theorem acceptIf {test : TokenKind → Bool}
    (htest : final = true → test .endOfFile = false ∧ test (.symbol .rightParen) = false) :
    (Parser.acceptIf test).Carries k final := by
  refine ⟨keeps_acceptIf test, fun parting s s' found t _ hs hreply _ hstays => ?_⟩
  have hkept : s.Kept true t := (keeps_acceptIf test).kept hreply
  have hsame : test s.kind = test s'.kind :=
    hs.test_eq (hstays.of_suffix hkept.rest) fun hfinal => by rw [(htest hfinal).1, (htest hfinal).2]
  rw [acceptIf_eq] at hreply ⊢
  rw [← hsame]
  split at hreply
  case isTrue hkind =>
    obtain ⟨rfl, rfl⟩ := Reply.ok.inj hreply
    rw [if_pos hkind]
    refine ⟨s'.advance, rfl, hs.advance ?_⟩
    cases final with
    | true =>
      refine Parting.Before.stays_of_advance (fun hend => ?_) hstays
      rw [hend, (htest rfl).1] at hkind
      cases hkind
    | false => exact hstays.of_suffix s.rest_advance_suffix
  case isFalse hkind =>
    obtain ⟨rfl, rfl⟩ := Reply.ok.inj hreply
    rw [if_neg hkind]
    exact ⟨s', rfl, hs⟩

/-- The closing parenthesis may end what is read here at once; where the inputs part there is nothing else
that could be read. -/
theorem ifClose {yes no : Parser β} (hyes : ∀ k, yes.Carries k true) (hno : no.Carries k true)
    (hend : no.Starved) : (do if ← accept .rightParen then yes else no).Carries k final := by
  refine .weaken ⟨.bind (keeps_acceptIf _) fun found _ => ?_, fun parting s s' b t hk hs hreply herrors
    hstays => ?_⟩
  · split
    · exact (hyes k).keeps
    · exact hno.keeps
  rw [accept, acceptIf_bind, kind_bind] at hreply ⊢
  obtain ⟨hleft, -⟩ | ⟨lexeme, ts, hrest, hrest'⟩ := hs.parted_or_inside
  · -- whatever is read here lies beyond the place where the inputs part
    refine absurd hstays (Nat.not_le_of_lt ?_)
    rw [← hleft]
    split at hreply
    case isTrue hkind =>
      refine Nat.lt_of_le_of_lt ((hyes k).keeps.kept (s := s.advance) hreply).rest.length_le
        (s.rest_advance_lt ?_)
      rw [TokenKind.eq_of_isSymbol hkind]
      simp
    case isFalse =>
      exact hend.starved parting.setting parting.place s b t (hleft ▸ parting.left_closing) hreply herrors
  · have hinside : parting.Stays false s := by
      rw [Parting.stays_false_iff, hrest, List.length_append, List.length_cons]
      omega
    rw [← hs.kind_eq hinside]
    split at hreply
    case isTrue hkind =>
      rw [if_pos hkind]
      exact (hyes _).carries parting s.advance s'.advance b t rfl (hs.advance hinside) hreply herrors hstays
    case isFalse hkind =>
      rw [if_neg hkind]
      exact hno.carries parting s s' b t hk hs hreply herrors hstays

/-- No token is passed over that stands where the inputs part. -/
theorem valueOf {value? : TokenKind → Option α} (hvalue : value? .endOfFile = none) (wanted : Expected) :
    (Parser.valueOf value? wanted).Carries k final := by
  refine ⟨keeps_valueOf value? wanted, fun parting s s' a t _ hs hreply _ hstays => ?_⟩
  rw [valueOf_eq] at hreply ⊢
  cases hkind : value? s.kind with
  | none =>
    rw [hkind] at hreply
    cases hreply
  | some b =>
    rw [hkind] at hreply
    obtain ⟨rfl, rfl⟩ := Reply.ok.inj hreply
    have hinside : parting.Stays false s := by
      refine Parting.Before.stays_of_advance (fun hend => ?_) hstays
      rw [hend, hvalue] at hkind
      cases hkind
    rw [← hs.kind_eq hinside, hkind]
    exact ⟨s'.advance, rfl, hs.advance hinside⟩

theorem require {test : TokenKind → Bool} (htest : test .endOfFile = false) (wanted : Expected) :
    (Parser.require test wanted).Carries k final := by
  refine ⟨keeps_require test wanted, fun parting s s' a t _ hs hreply _ hstays => ?_⟩
  rw [require_eq] at hreply ⊢
  split at hreply
  case isTrue hkind =>
    obtain ⟨-, rfl⟩ := Reply.ok.inj hreply
    have hinside : parting.Stays false s := by
      refine Parting.Before.stays_of_advance (fun hend => ?_) hstays
      rw [hend, htest] at hkind
      cases hkind
    rw [← hs.kind_eq hinside, if_pos hkind]
    exact ⟨s'.advance, rfl, hs.advance hinside⟩
  case isFalse => cases hreply

theorem expect (symbol : Symbol) : (Parser.expect symbol).Carries k final := .require rfl _

theorem expectKeyword (keyword : Keyword) : (Parser.expectKeyword keyword).Carries k final :=
  .require rfl _

theorem name : Parser.name.Carries k final := .valueOf rfl _

theorem integer : Parser.integer.Carries k final := .valueOf rfl _

/-- A semicolon that has been left out is recorded. -/
theorem semicolon : Parser.semicolon.Carries k final := by
  refine ⟨.semicolon, fun parting s s' a t _ hs hreply herrors hstays => ?_⟩
  have hquiet := hs.not_noted (Keeps.semicolon.kept hreply) herrors
  unfold Parser.semicolon at hreply ⊢
  split at hreply
  case isTrue hkind =>
    obtain ⟨-, rfl⟩ := Reply.ok.inj hreply
    have hinside : parting.Stays false s :=
      Parting.Before.stays_of_advance (by simp [TokenKind.eq_of_isSymbol hkind]) hstays
    rw [← hs.kind_eq hinside, if_pos hkind]
    exact ⟨s'.advance, rfl, hs.advance hinside⟩
  case isFalse =>
    split at hreply
    · obtain ⟨-, rfl⟩ := Reply.ok.inj hreply
      exact absurd (State.noted_record ..) hquiet
    · cases hreply

/-- The unit that is written directly after the token read last. -/
theorem durationUnit? {q : Option DurationUnit → Parser β}
    (hq : ∀ s : State, (q s.attachedUnit?).Carries s.kind final) :
    (Parser.durationUnit? >>= q).Carries k final := by
  have hlook : Parser.durationUnit? = Parser.query State.attachedUnit? := by
    funext setting s
    exact durationUnit?_eq setting s
  rw [hlook]
  refine .look (fun parting s s' hs _ => ?_) hq
  have hprevious : s'.previousEnd = s.previousEnd := by rw [hs.same]
  obtain ⟨hleft, hright⟩ | ⟨lexeme, ts, hrest, hrest'⟩ := hs.parted_or_inside
  · have hnone {s : State} (hkind : s.kind = .endOfFile ∨ s.kind = .symbol .rightParen) :
        s.attachedUnit? = none := by
      cases hunit : s.attachedUnit? with
      | none => rfl
      | some unit =>
        obtain ⟨suffix, hname⟩ := State.kind_of_attachedUnit? hunit
        rw [hname] at hkind
        obtain hkind | hkind := hkind <;> cases hkind
    rw [hnone (parting.left_closing.kind hleft), hnone (parting.right_closing.kind hright)]
  · rw [State.attachedUnit?, State.attachedUnit?, hrest, hrest', hprevious]
    rfl

/-! ## Contexts and levels -/

theorem inContext {f : Context → Context} (hp : p.Carries k final) :
    (Parser.inContext f p).Carries k final where
  keeps := .inContext hp.keeps
  carries := by
    intro parting s s' a t hk hs hreply herrors hstays
    have hcontext : s'.context = s.context := by rw [hs.same]
    obtain ⟨t₁, hinner, rfl⟩ := mapState_eq_ok_iff.1 hreply
    obtain ⟨t₁', hinner', ht₁⟩ := hp.carries parting { s with context := f s.context }
      { s' with context := f s.context } a t₁ hk (hs.congr rfl rfl (by rw [hs.same]) rfl rfl) hinner
      herrors hstays
    refine ⟨{ t₁' with context := s'.context }, ?_, ht₁.congr rfl rfl ?_ rfl rfl⟩
    · refine mapState_eq_ok_iff.2 ⟨t₁', ?_, rfl⟩
      rw [hcontext]
      exact hinner'
    · rw [hcontext, ht₁.same]

theorem enclosed (hp : p.Carries k final) : (Parser.enclosed p).Carries k final :=
  @inContext _ _ _ p (fun _ => .anything) hp

theorem nested (hp : ∀ k, p.Carries k final) : (Parser.nested p).Carries k final where
  keeps := .nested (hp k).keeps
  carries := by
    intro parting s s' a t hk hs hreply herrors hstays
    have hdepth : s'.depth = s.depth := by rw [hs.same]
    unfold Parser.nested at hreply ⊢
    rw [← parting.limits, hdepth]
    split at hreply
    case isTrue => cases hreply
    case isFalse hlevel =>
      rw [if_neg hlevel]
      obtain ⟨t₁, hinner, rfl⟩ := mapState_eq_ok_iff.1 hreply
      obtain ⟨t₁', hinner', ht₁⟩ := (hp k).carries parting { s with depth := s.depth + 1 }
        { s' with depth := s.depth + 1 } a t₁ hk (hs.congr rfl rfl (by rw [hs.same]) rfl rfl) hinner
        herrors hstays
      refine ⟨_, mapState_eq_ok_iff.2 ⟨t₁', hinner', rfl⟩, ht₁.congr rfl rfl ?_ rfl rfl⟩
      rw [ht₁.same]

/-! ## Repetition and lists -/

theorem loop {step : σ → Parser (Bool × σ)} (hprogresses : Progresses step)
    (hstep : ∀ a k, (step a).Carries k final) (a : σ) : (Parser.loop step a).Carries k final := by
  have hkeeps (a : σ) : (Parser.loop step a).Keeps true := .loop (fun a => (hstep a .endOfFile).keeps) a
  refine ⟨hkeeps a, fun parting s s' b t hk hs hreply herrors hstays => ?_⟩
  clear hk
  generalize hn : s.rest.length = n
  induction n using Nat.strongRecOn generalizing a s s' with
  | _ n ih =>
    subst hn
    rw [loop_eq hprogresses] at hreply
    rw [loop_eq hprogresses]
    cases hturn : step a parting.setting s with
    | fail e t₁ =>
      rw [hturn] at hreply
      cases hreply
    | ok r t₁ =>
      obtain ⟨again, c⟩ := r
      rw [hturn] at hreply
      cases again with
      | false =>
        obtain ⟨rfl, rfl⟩ := Reply.ok.inj hreply
        obtain ⟨t₁', hturn', ht₁⟩ :=
          (hstep a s.kind).carries parting s s' _ t₁ rfl hs hturn herrors hstays
        rw [hturn']
        exact ⟨t₁', rfl, ht₁⟩
      | true =>
        have hkept := (hkeeps c).kept hreply
        obtain ⟨t₁', hturn', ht₁⟩ := (hstep a s.kind).carries parting s s' _ t₁ rfl hs hturn
          (hkept.errors_eq_nil herrors) (hstays.of_suffix hkept.rest)
        rw [hturn']
        exact ih _ (hprogresses _ _ _ _ _ hturn) c t₁ t₁' ht₁ hreply rfl

theorem collect {step : Parser (Bool × List α)} (hfollows : step.Follows loud Prod.fst)
    (hstep : ∀ k, step.Carries k final) : (Parser.collect step).Carries k final := by
  refine .bind (.loop (progresses (follows_collectTurn hfollows)) (fun turns k => ?_) [])
    fun turns _ => .value _
  exact .bind (hstep k) fun r _ => .value _

theorem optional {announced : Parser Bool} (hannounced : announced.Carries k final)
    (hp : ∀ k, p.Carries k final) : (Parser.optional announced p).Carries k final := by
  refine .bind hannounced fun found k => ?_
  split
  · exact .bind (hp k) fun a _ => .value _
  · exact .value none

theorem listIf {announced : Parser Bool} {p : Parser (List α)} (hannounced : announced.Carries k final)
    (hp : ∀ k, p.Carries k final) : (Parser.listIf announced p).Carries k final := by
  refine .bind hannounced fun found k => ?_
  split
  · exact hp k
  · exact .value []

theorem commaList {elem : Parser α} {close : Symbol} (helem : elem.MayConsume loud)
    (hp : ∀ k, elem.Carries k false) : (Parser.commaList close elem).Carries k final := by
  refine .close (.collect (follows_commaTurn helem close) fun k => ?_)
    (fun elems k => .bind (.expect close) fun _ _ => .value elems)
    fun elems => .bind (.require rfl _) fun _ => .pure elems
  refine .test (f := (·.isSymbol close)) nofun fun closed => ?_
  split
  · exact .value _
  · exact .bind (hp k) fun a _ => .bind (.acceptIf nofun) fun again _ => .value _

theorem commaTail {elem : Parser α} {close : Symbol} (helem : elem.MayConsume loud)
    (hp : ∀ k, elem.Carries k false) : (Parser.commaTail close elem).Carries k final := by
  refine .close (.collect (follows_commaTailTurn helem close) fun k => ?_)
    (fun elems k => .bind (.expect close) fun _ _ => .value elems)
    fun elems => .bind (.require rfl _) fun _ => .pure elems
  refine .bind (.acceptIf nofun) fun found k => ?_
  split
  · refine .test (f := (·.isSymbol close)) nofun fun closed => ?_
    split
    · exact .value _
    · exact .bind (hp k) fun a _ => .value _
  · exact .value _

/-! ## Recovery, speculation and splices -/

/-- Where an error is recorded nothing is compared. -/
theorem record {q : Unit → Parser β} (error : ParseError) (hq : (q ()).Keeps true) :
    (Parser.record error >>= q).Carries k final where
  keeps := .bind (fun setting s => .record setting error s) fun _ _ => hq
  carries := by
    intro parting s s' b t _ hs hreply herrors _
    have hkept := hq.kept (s := s.record parting.setting error) hreply
    have hquiet := hs.not_noted ((State.Kept.record parting.setting error s).trans hkept) herrors
    exact absurd ((State.noted_record ..).kept hkept) hquiet

/-- A part in which an error is found is not compared. -/
theorem resilient {recovery : Recovery} {part : σ → Parser σ} {a : σ}
    (hpart : (part a).Carries k final) : (Parser.resilient recovery part a).Carries k final where
  keeps := .resilient hpart.keeps
  carries := by
    intro parting s s' r t hk hs hreply herrors hstays
    have hquiet := hs.not_noted ((Keeps.resilient hpart.keeps).kept hreply) herrors
    have hrunning' : s'.halted = false := hs.swap.running
    rw [Keeps.resilient_eq hs.running] at hreply
    rw [Keeps.resilient_eq hrunning']
    cases hfirst : part a parting.setting s with
    | ok b after =>
      rw [hfirst] at hreply
      obtain ⟨rfl, rfl⟩ := Reply.ok.inj hreply
      obtain ⟨after', hfirst', hafter⟩ :=
        hpart.carries parting s s' b after hk hs hfirst herrors hstays
      rw [hfirst']
      exact ⟨after', rfl, hafter⟩
    | fail e after =>
      rw [hfirst] at hreply
      obtain ⟨-, rfl⟩ := Reply.ok.inj hreply
      have hkept : (after.record parting.setting e).Kept true
          (s.recover recovery parting.setting e after) := Keeps.kept_recover ..
      exact absurd ((State.noted_record ..).kept hkept) hquiet

/-- A trial that succeeds in one of the inputs succeeds in the other one. -/
theorem guess {trial : Parser α} {whole : α → Parser β} {otherwise : Parser β}
    (hsilent : trial.Keeps false) (htrial : trial.Carries k false)
    (hback : ∀ (parting : Parting) (s s' : State) (a : α) (t' : State), parting.Before s s' →
      trial parting.setting' s' = .ok a t' → ∃ b t, trial parting.setting s = .ok b t)
    (hwhole : ∀ a k, (whole a).Carries k true) (hend : ∀ a, (whole a).Starved)
    (hotherwise : otherwise.Carries k true) : (Parser.guess trial whole otherwise).Carries k final := by
  refine .weaken (.query (fun parting s s' _ hs _ => by rw [hs.same]) fun lambdas => ?_)
  split
  case isFalse => exact hotherwise
  case isTrue =>
    have hthen : (trial >>= whole).Carries k true := htrial.close hwhole hend
    refine ⟨.bind (.attempt hsilent) fun found _ => ?_, ?_⟩
    · cases found with
      | some a => exact (hend a).keeps
      | none => exact hotherwise.keeps
    intro parting s s' b t hk hs hreply herrors hstays
    cases hfirst : trial parting.setting s with
    | ok a t₁ =>
      rw [bind_ok (Keeps.attempt_of_ok hfirst)] at hreply
      obtain ⟨t', hreply', ht⟩ :=
        hthen.carries parting s s' b t hk hs ((bind_ok hfirst).trans hreply) herrors hstays
      obtain ⟨a', t₁', hfirst', hwhole'⟩ := bind_eq_ok_iff.1 hreply'
      rw [bind_ok (Keeps.attempt_of_ok hfirst')]
      exact ⟨t', hwhole', ht⟩
    | fail e t₁ =>
      rw [bind_ok (Keeps.attempt_of_fail hsilent hfirst)] at hreply
      cases hfirst' : trial parting.setting' s' with
      | ok a t₁' =>
        obtain ⟨c, t₁, hfirst₁⟩ := hback parting s s' a t₁' hs hfirst'
        rw [hfirst] at hfirst₁
        cases hfirst₁
      | fail e' t₁' =>
        rw [bind_ok (Keeps.attempt_of_fail hsilent hfirst')]
        exact hotherwise.carries parting s s' b t hk hs hreply herrors hstays

/-- A splice is read from tokens of its own. -/
theorem splice (g : Rules) (tokens : List Token) (span : Span) :
    (Parser.splice g tokens span).Carries k final := by
  refine ⟨.splice g tokens span, fun parting s s' e t _ hs hreply herrors _ => ?_⟩
  have hquiet := hs.not_noted ((Keeps.splice g tokens span).kept hreply) herrors
  rw [splice_eq_mapState] at hreply ⊢
  have hsetting : parting.setting'.inSplice span = parting.setting.inSplice span := by
    rw [Setting.inSplice, Setting.inSplice, parting.limits]
  have hentry : s'.inSplice (parting.setting.inSplice span) tokens =
      s.inSplice (parting.setting.inSplice span) tokens := by
    rw [hs.same]
    rfl
  rw [hsetting, hentry]
  obtain ⟨inner, hwhole, rfl⟩ := mapState_eq_ok_iff.1 hreply
  have hsilent : inner.errors = [] :=
    Decidable.byContradiction fun hinner => hquiet (State.noted_leaveSplice hinner)
  refine ⟨_, mapState_eq_ok_iff.2 ⟨inner, hwhole, rfl⟩, ?_⟩
  rw [State.leaveSplice_of_silent hsilent, State.leaveSplice_of_silent hsilent]
  exact hs.congr rfl rfl (by rw [hs.same]) rfl rfl

end Carries

end Parser

end ActorFrontend
