import ActorFrontend.Proofs.Bracketed.Combinators
import ActorFrontend.Proofs.Indices.Basic

/-!
# Readings that meet again

A reading that starts before the ways part either stops before they part, with the same answer in both
inputs, or it stops where they have met again.  This is carried through the combinators, one lemma for
each.
-/

namespace ActorFrontend

open ActorFrontend.Parser
open Makes (keeps_acceptIf keeps_require keeps_valueOf)

variable {α β σ : Type} {k : TokenKind} {loud : Bool} {s s' t : State}

/-- Where a run goes on that has recorded nothing, nothing is recorded unless an error is found. -/
theorem Detour.Before.not_noted {d : Detour} (h : d.Before s s') (hkept : s.Kept loud t)
    (ht : t.errors = []) : ¬ t.Noted := by
  have hhalted := hkept.unspent (ht.trans h.errors.symm)
  rw [h.running] at hhalted
  intro hnoted
  obtain herrors | hstopped := hnoted
  · exact herrors ht
  · exact Bool.false_ne_true (hhalted.symm.trans hstopped)

namespace Parser

/-- At a token of this kind the parser answers on the second way as on the first one, if it records no
error there. -/
structure Rejoins (k : TokenKind) (p : Parser α) : Prop where
  keeps : p.Keeps true
  rejoins : ∀ (d : Detour) (s s' : State) (a : α) (t : State), s.kind = k → d.Before s s' →
    p d.setting s = .ok a t → t.errors = [] → ∃ t', p d.setting s' = .ok a t' ∧ d.Joined t t'

variable {p : Parser α} {q : α → Parser β}

namespace Rejoins

/-! ## Sequences -/

theorem value (a : α) : (pure a : Parser α).Rejoins k := by
  refine ⟨.pure a, fun d s s' b t _ hs hreply _ => ?_⟩
  obtain ⟨rfl, rfl⟩ := Reply.ok.inj hreply
  exact ⟨s', rfl, .inl hs⟩

theorem expected (wanted : Expected) : (Parser.expected wanted : Parser α).Rejoins k :=
  ⟨fun _ s => .refl s, fun _ _ _ _ _ _ _ hreply => nomatch hreply⟩

theorem tooDeep : (Parser.tooDeep : Parser α).Rejoins k :=
  ⟨keeps_tooDeep, fun _ _ _ _ _ _ _ hreply => nomatch hreply⟩

theorem bind (hp : p.Rejoins k) (hq : ∀ a k, (q a).Rejoins k) : (p >>= q).Rejoins k where
  keeps := .bind hp.keeps fun a _ => (hq a .endOfFile).keeps
  rejoins := by
    intro d s s' b t hk hs hreply herrors
    obtain ⟨a, t₁, hfirst, hthen⟩ := bind_eq_ok_iff.1 hreply
    have hkept := (hq a t₁.kind).keeps.kept hthen
    obtain ⟨t₁', hfirst', hbefore | rfl⟩ :=
      hp.rejoins d s s' a t₁ hk hs hfirst (hkept.errors_eq_nil herrors)
    · rw [bind_ok hfirst']
      exact (hq a t₁.kind).rejoins d t₁ t₁' b t rfl hbefore hthen herrors
    · -- the ways have met again
      rw [bind_ok hfirst']
      exact ⟨t, hthen, .inr rfl⟩

/-! ## Looking -/

/-- Something that is not told apart by what follows the dot. -/
theorem query {f : State → α}
    (hf : ∀ (d : Detour) (s s' : State), s.kind = k → d.Before s s' → f s = f s')
    (hq : ∀ a, (q a).Rejoins k) : (Parser.query f >>= q).Rejoins k where
  keeps := .bind (.query f) fun a _ => (hq a).keeps
  rejoins := by
    intro d s s' b t hk hs hreply herrors
    rw [query_bind] at hreply ⊢
    rw [← hf d s s' hk hs]
    exact (hq (f s)).rejoins d s s' b t hk hs hreply herrors

/-- Something that tells of the token at hand. -/
theorem look {f : State → α} (hf : ∀ (d : Detour) (s s' : State), d.Before s s' → f s = f s')
    (hq : ∀ s : State, (q (f s)).Rejoins s.kind) : (Parser.query f >>= q).Rejoins k where
  keeps := by
    refine .bind (.query f) fun a ha => ?_
    obtain ⟨setting, s, after, hreply⟩ := ha
    obtain ⟨rfl, -⟩ := Reply.ok.inj hreply
    exact (hq s).keeps
  rejoins := by
    intro d s s' b t _ hs hreply herrors
    rw [query_bind] at hreply ⊢
    rw [← hf d s s' hs]
    exact (hq s).rejoins d s s' b t rfl hs hreply herrors

theorem test (f : TokenKind → α) (hq : ∀ a, (q a).Rejoins k) :
    ((Parser.query fun s => f s.kind) >>= q).Rejoins k :=
  .query (fun _ _ _ _ hs => by rw [hs.kind_eq]) hq

theorem seen {f : State → Bool} (hf : ∀ (d : Detour) (s s' : State), d.Before s s' → f s = f s') :
    (Parser.query f).Rejoins k := by
  rw [← bind_pure (Parser.query f)]
  exact .query (fun d s s' _ => hf d s s') .value

/-- Whether a body ends here. -/
theorem atBodyEnd {q : Bool → Parser β} (hq : ∀ a, (q a).Rejoins k) :
    (Parser.atBodyEnd >>= q).Rejoins k :=
  .query (fun _ _ _ _ hs => by rw [hs.kind_eq, hs.atEnd_eq]) hq

theorem kind {q : TokenKind → Parser β} (hq : ∀ k, (q k).Rejoins k) : (Parser.kind >>= q).Rejoins k :=
  .look (fun _ _ _ hs => hs.kind_eq) fun s => hq s.kind

/-- The kind of the token at hand, if that is known. -/
theorem kindAt {q : TokenKind → Parser β} (hkeeps : (Parser.kind >>= q).Keeps true)
    (hq : (q k).Rejoins k) : (Parser.kind >>= q).Rejoins k where
  keeps := hkeeps
  rejoins := by
    rintro d s s' b t rfl hs hreply herrors
    rw [kind_bind] at hreply ⊢
    rw [← hs.kind_eq]
    exact hq.rejoins d s s' b t rfl hs hreply herrors

/-- Something that depends on where the token at hand stands. -/
theorem place {γ : Type} {f : Span → γ} {q : γ → Parser β} (hq : ∀ a, (q a).Rejoins k) :
    ((fun setting s => .ok (f (s.span setting)) s : Parser γ) >>= q).Rejoins k where
  keeps := .bind (fun _ s => .refl s) fun a _ => (hq a).keeps
  rejoins := by
    intro d s s' b t hk hs hreply herrors
    have hreply : q (f (s.span d.setting)) d.setting s = .ok b t := hreply
    show ∃ t', q (f (s'.span d.setting)) d.setting s' = .ok b t' ∧ _
    rw [← hs.span_eq]
    exact (hq _).rejoins d s s' b t hk hs hreply herrors

theorem start {q : Nat → Parser β} (hq : ∀ a, (q a).Rejoins k) : (Parser.start >>= q).Rejoins k :=
  place hq

theorem span {q : Span → Parser β} (hq : ∀ a, (q a).Rejoins k) : (Parser.span >>= q).Rejoins k :=
  place (f := fun span => span) hq

theorem spanFrom (start : Nat) : (Parser.spanFrom start).Rejoins k := by
  refine ⟨.query _, fun d s s' span t _ hs hreply _ => ?_⟩
  obtain ⟨rfl, rfl⟩ := Reply.ok.inj hreply
  refine ⟨s', ?_, .inl hs⟩
  rw [hs.same]
  rfl

theorem freshId : Parser.freshId.Rejoins k := by
  refine ⟨.freshId, fun d s s' id t _ hs hreply _ => ?_⟩
  obtain ⟨rfl, rfl⟩ := Reply.ok.inj hreply
  refine ⟨{ s' with nextId := s'.nextId + 1 }, ?_, .inl (hs.congr rfl rfl (by rw [hs.same]) rfl rfl)⟩
  rw [hs.same]
  rfl

/-- A value that holds its span. -/
theorem part (start : Nat) (make : Span → α) :
    (do pure (make (← Parser.spanFrom start)) : Parser α).Rejoins k :=
  .bind (.spanFrom start) fun span _ => .value (make span)

theorem node (start : Nat) (make : NodeId → Span → α) : (Parser.node start make).Rejoins k :=
  .bind .freshId fun id _ => .part start (make id)

/-! ## Single tokens -/

theorem advance (hk : k ≠ .symbol .dot) : Parser.advance.Rejoins k := by
  refine ⟨.advance, fun d s s' a t hkind hs hreply _ => ?_⟩
  obtain ⟨-, rfl⟩ := Reply.ok.inj hreply
  exact ⟨s'.advance, rfl, .inl (hs.advance (hkind ▸ hk))⟩

theorem acceptIf {test : TokenKind → Bool} (htest : test (.symbol .dot) = false) :
    (Parser.acceptIf test).Rejoins k := by
  refine ⟨keeps_acceptIf test, fun d s s' found t _ hs hreply _ => ?_⟩
  rw [acceptIf_eq] at hreply ⊢
  rw [← hs.kind_eq]
  split at hreply
  case isTrue hkind =>
    obtain ⟨rfl, rfl⟩ := Reply.ok.inj hreply
    rw [if_pos hkind]
    refine ⟨s'.advance, rfl, .inl (hs.advance fun hdot => ?_)⟩
    rw [hdot, htest] at hkind
    cases hkind
  case isFalse hkind =>
    obtain ⟨rfl, rfl⟩ := Reply.ok.inj hreply
    rw [if_neg hkind]
    exact ⟨s', rfl, .inl hs⟩

theorem require {test : TokenKind → Bool} (htest : test (.symbol .dot) = false) (wanted : Expected) :
    (Parser.require test wanted).Rejoins k := by
  refine .bind (.acceptIf htest) fun found k => ?_
  split
  · exact .value _
  · exact .expected wanted

theorem valueOf {value? : TokenKind → Option α} (hvalue : value? (.symbol .dot) = none)
    (wanted : Expected) : (Parser.valueOf value? wanted).Rejoins k := by
  refine .kind fun k => ?_
  split
  case h_1 a hk =>
    refine .bind (.advance fun hdot => ?_) fun _ _ => .value a
    rw [hdot, hvalue] at hk
    cases hk
  case h_2 => exact .expected wanted

theorem expect {symbol : Symbol} (hsymbol : symbol ≠ .dot) : (Parser.expect symbol).Rejoins k := by
  refine .require ?_ _
  simpa [TokenKind.isSymbol] using hsymbol.symm

theorem expectKeyword (keyword : Keyword) : (Parser.expectKeyword keyword).Rejoins k := .require rfl _

theorem name : Parser.name.Rejoins k := .valueOf rfl _

/-- A semicolon that has been left out is recorded. -/
theorem semicolon : Parser.semicolon.Rejoins k := by
  refine ⟨.semicolon, fun d s s' a t _ hs hreply herrors => ?_⟩
  have hquiet := hs.not_noted (Keeps.semicolon.kept hreply) herrors
  unfold Parser.semicolon at hreply ⊢
  split at hreply
  case isTrue hkind =>
    obtain ⟨-, rfl⟩ := Reply.ok.inj hreply
    rw [← hs.kind_eq, if_pos hkind]
    exact ⟨s'.advance, rfl, .inl (hs.advance (by simp [TokenKind.eq_of_isSymbol hkind]))⟩
  case isFalse =>
    split at hreply
    · obtain ⟨-, rfl⟩ := Reply.ok.inj hreply
      exact absurd (State.noted_record ..) hquiet
    · cases hreply

/-- The unit that is written directly after the token read last. -/
theorem durationUnit? {q : Option DurationUnit → Parser β}
    (hq : ∀ s : State, (q s.attachedUnit?).Rejoins s.kind) :
    (Parser.durationUnit? >>= q).Rejoins k := by
  have hlook : Parser.durationUnit? = Parser.query State.attachedUnit? := by
    funext setting s
    exact durationUnit?_eq setting s
  rw [hlook]
  exact .look (fun _ _ _ hs => hs.attachedUnit?_eq) hq

/-! ## Contexts and levels -/

theorem inContext {f : Context → Context} (hp : p.Rejoins k) : (Parser.inContext f p).Rejoins k where
  keeps := .inContext hp.keeps
  rejoins := by
    intro d s s' a t hk hs hreply herrors
    have hcontext : s'.context = s.context := by rw [hs.same]
    obtain ⟨t₁, hinner, rfl⟩ := mapState_eq_ok_iff.1 hreply
    obtain ⟨t₁', hinner', ht₁⟩ := hp.rejoins d { s with context := f s.context }
      { s' with context := f s.context } a t₁ hk (hs.congr rfl rfl (by rw [hs.same]) rfl rfl) hinner
      herrors
    refine ⟨{ t₁' with context := s'.context }, ?_, ?_⟩
    · refine mapState_eq_ok_iff.2 ⟨t₁', ?_, rfl⟩
      rw [hcontext]
      exact hinner'
    · rw [hcontext]
      obtain hbefore | rfl := ht₁
      · exact .inl (hbefore.congr rfl rfl (by rw [hbefore.same]) rfl rfl)
      · exact .inr rfl

theorem enclosed (hp : p.Rejoins k) : (Parser.enclosed p).Rejoins k :=
  @inContext _ _ p (fun _ => .anything) hp

theorem nested (hp : ∀ k, p.Rejoins k) : (Parser.nested p).Rejoins k where
  keeps := .nested (hp k).keeps
  rejoins := by
    intro d s s' a t hk hs hreply herrors
    have hdepth : s'.depth = s.depth := by rw [hs.same]
    unfold Parser.nested at hreply ⊢
    rw [hdepth]
    split at hreply
    case isTrue => cases hreply
    case isFalse hlevel =>
      rw [if_neg hlevel]
      obtain ⟨t₁, hinner, rfl⟩ := mapState_eq_ok_iff.1 hreply
      obtain ⟨t₁', hinner', ht₁⟩ := (hp k).rejoins d { s with depth := s.depth + 1 }
        { s' with depth := s.depth + 1 } a t₁ hk (hs.congr rfl rfl (by rw [hs.same]) rfl rfl) hinner
        herrors
      refine ⟨_, mapState_eq_ok_iff.2 ⟨t₁', hinner', rfl⟩, ?_⟩
      obtain hbefore | rfl := ht₁
      · exact .inl (hbefore.congr rfl rfl (by rw [hbefore.same]) rfl rfl)
      · exact .inr rfl

/-! ## Repetition and lists -/

theorem loop {step : σ → Parser (Bool × σ)} (hprogresses : Progresses step)
    (hstep : ∀ a k, (step a).Rejoins k) (a : σ) : (Parser.loop step a).Rejoins k := by
  have hkeeps (a : σ) : (Parser.loop step a).Keeps true := .loop (fun a => (hstep a .endOfFile).keeps) a
  refine ⟨hkeeps a, fun d s s' b t hk hs hreply herrors => ?_⟩
  clear hk
  generalize hn : s.rest.length = n
  induction n using Nat.strongRecOn generalizing a s s' with
  | _ n ih =>
    subst hn
    rw [loop_eq hprogresses] at hreply
    rw [loop_eq hprogresses]
    cases hturn : step a d.setting s with
    | fail e t₁ =>
      rw [hturn] at hreply
      cases hreply
    | ok r t₁ =>
      obtain ⟨again, c⟩ := r
      rw [hturn] at hreply
      cases again with
      | false =>
        obtain ⟨rfl, rfl⟩ := Reply.ok.inj hreply
        obtain ⟨t₁', hturn', ht₁⟩ := (hstep a s.kind).rejoins d s s' _ t₁ rfl hs hturn herrors
        rw [hturn']
        exact ⟨t₁', rfl, ht₁⟩
      | true =>
        have hkept := (hkeeps c).kept hreply
        obtain ⟨t₁', hturn', hbefore | rfl⟩ :=
          (hstep a s.kind).rejoins d s s' _ t₁ rfl hs hturn (hkept.errors_eq_nil herrors)
        · rw [hturn']
          exact ih _ (hprogresses _ _ _ _ _ hturn) c t₁ t₁' hbefore hreply rfl
        · rw [hturn']
          exact ⟨t, hreply, .inr rfl⟩

theorem collect {step : Parser (Bool × List α)} (hfollows : step.Follows loud Prod.fst)
    (hstep : ∀ k, step.Rejoins k) : (Parser.collect step).Rejoins k := by
  refine .bind (.loop (progresses (follows_collectTurn hfollows)) (fun turns k => ?_) [])
    fun turns _ => .value _
  exact .bind (hstep k) fun r _ => .value _

theorem optional {announced : Parser Bool} (hannounced : announced.Rejoins k)
    (hp : ∀ k, p.Rejoins k) : (Parser.optional announced p).Rejoins k := by
  refine .bind hannounced fun found k => ?_
  split
  · exact .bind (hp k) fun a _ => .value _
  · exact .value none

theorem listIf {announced : Parser Bool} {p : Parser (List α)} (hannounced : announced.Rejoins k)
    (hp : ∀ k, p.Rejoins k) : (Parser.listIf announced p).Rejoins k := by
  refine .bind hannounced fun found k => ?_
  split
  · exact hp k
  · exact .value []

theorem commaList {elem : Parser α} {close : Symbol} (helem : elem.MayConsume loud)
    (hclose : close ≠ .dot) (hp : ∀ k, elem.Rejoins k) : (Parser.commaList close elem).Rejoins k := by
  refine .bind (.collect (follows_commaTurn helem close) fun k => ?_) fun elems k =>
    .bind (.expect hclose) fun _ _ => .value elems
  refine .test (·.isSymbol close) fun closed => ?_
  split
  · exact .value _
  · exact .bind (hp k) fun a _ => .bind (.acceptIf rfl) fun again _ => .value _

theorem commaTail {elem : Parser α} {close : Symbol} (helem : elem.MayConsume loud)
    (hclose : close ≠ .dot) (hp : ∀ k, elem.Rejoins k) : (Parser.commaTail close elem).Rejoins k := by
  refine .bind (.collect (follows_commaTailTurn helem close) fun k => ?_) fun elems k =>
    .bind (.expect hclose) fun _ _ => .value elems
  refine .bind (.acceptIf rfl) fun found k => ?_
  split
  · refine .test (·.isSymbol close) fun closed => ?_
    split
    · exact .value _
    · exact .bind (hp k) fun a _ => .value _
  · exact .value _

/-! ## Recovery, speculation and splices -/

/-- Where an error is recorded nothing is compared. -/
theorem record {q : Unit → Parser β} (error : ParseError) (hq : (q ()).Keeps true) :
    (Parser.record error >>= q).Rejoins k where
  keeps := .bind (fun setting s => .record setting error s) fun _ _ => hq
  rejoins := by
    intro d s s' b t _ hs hreply herrors
    have hkept := hq.kept (s := s.record d.setting error) hreply
    have hquiet := hs.not_noted ((State.Kept.record d.setting error s).trans hkept) herrors
    exact absurd ((State.noted_record ..).kept hkept) hquiet

/-- A part in which an error is found is not compared. -/
theorem resilient {recovery : Recovery} {part : σ → Parser σ} {a : σ} (hpart : (part a).Rejoins k) :
    (Parser.resilient recovery part a).Rejoins k where
  keeps := .resilient hpart.keeps
  rejoins := by
    intro d s s' r t hk hs hreply herrors
    have hquiet := hs.not_noted ((Keeps.resilient hpart.keeps).kept hreply) herrors
    have hrunning' : s'.halted = false := hs.swap.running
    rw [Keeps.resilient_eq hs.running] at hreply
    rw [Keeps.resilient_eq hrunning']
    cases hfirst : part a d.setting s with
    | ok b after =>
      rw [hfirst] at hreply
      obtain ⟨rfl, rfl⟩ := Reply.ok.inj hreply
      obtain ⟨after', hfirst', hafter⟩ := hpart.rejoins d s s' b after hk hs hfirst herrors
      rw [hfirst']
      exact ⟨after', rfl, hafter⟩
    | fail e after =>
      rw [hfirst] at hreply
      obtain ⟨-, rfl⟩ := Reply.ok.inj hreply
      have hkept : (after.record d.setting e).Kept true (s.recover recovery d.setting e after) :=
        Keeps.kept_recover ..
      exact absurd ((State.noted_record ..).kept hkept) hquiet

/-- A trial succeeds on both ways or on none. -/
theorem guess {trial : Parser α} {whole : α → Parser β} {otherwise : Parser β}
    (hsilent : trial.Keeps false) (htrial : trial.Rejoins k) (hwhole : ∀ a k, (whole a).Rejoins k)
    (hotherwise : otherwise.Rejoins k) : (Parser.guess trial whole otherwise).Rejoins k := by
  refine .query (fun d s s' _ hs => by rw [hs.same]) fun lambdas => ?_
  split
  case isFalse => exact hotherwise
  case isTrue =>
    have hthen : (trial >>= whole).Rejoins k := htrial.bind hwhole
    refine ⟨.bind (.attempt hsilent) fun found _ => ?_, ?_⟩
    · cases found with
      | some a => exact (hwhole a .endOfFile).keeps
      | none => exact hotherwise.keeps
    intro d s s' b t hk hs hreply herrors
    cases hfirst : trial d.setting s with
    | ok a t₁ =>
      rw [bind_ok (Keeps.attempt_of_ok hfirst)] at hreply
      obtain ⟨t', hreply', ht⟩ :=
        hthen.rejoins d s s' b t hk hs ((bind_ok hfirst).trans hreply) herrors
      obtain ⟨a', t₁', hfirst', hwhole'⟩ := bind_eq_ok_iff.1 hreply'
      rw [bind_ok (Keeps.attempt_of_ok hfirst')]
      exact ⟨t', hwhole', ht⟩
    | fail e t₁ =>
      rw [bind_ok (Keeps.attempt_of_fail hsilent hfirst)] at hreply
      cases hfirst' : trial d.setting s' with
      | ok a t₁' =>
        -- then it would succeed on the first way, too
        obtain ⟨t₁, hfirst₁, -⟩ := htrial.rejoins d.swap s' s a t₁' (hs.kind_eq.symm.trans hk) hs.swap
          hfirst' (((hsilent.kept hfirst').silent rfl).trans hs.swap.errors)
        rw [show d.swap.setting = d.setting from rfl, hfirst] at hfirst₁
        cases hfirst₁
      | fail e' t₁' =>
        rw [bind_ok (Keeps.attempt_of_fail hsilent hfirst')]
        exact hotherwise.rejoins d s s' b t hk hs hreply herrors

/-- A splice is read from tokens of its own. -/
theorem splice (g : Rules) (tokens : List Token) (span : Span) :
    (Parser.splice g tokens span).Rejoins k := by
  refine ⟨.splice g tokens span, fun d s s' e t _ hs hreply herrors => ?_⟩
  have hquiet := hs.not_noted ((Keeps.splice g tokens span).kept hreply) herrors
  rw [splice_eq_mapState] at hreply ⊢
  have hentry : s'.inSplice (d.setting.inSplice span) tokens =
      s.inSplice (d.setting.inSplice span) tokens := by
    rw [hs.same]
    rfl
  rw [hentry]
  obtain ⟨inner, hwhole, rfl⟩ := mapState_eq_ok_iff.1 hreply
  have hsilent : inner.errors = [] :=
    Decidable.byContradiction fun hinner => hquiet (State.noted_leaveSplice hinner)
  refine ⟨_, mapState_eq_ok_iff.2 ⟨inner, hwhole, rfl⟩, ?_⟩
  rw [State.leaveSplice_of_silent hsilent, State.leaveSplice_of_silent hsilent]
  exact .inl (hs.congr rfl rfl (by rw [hs.same]) rfl rfl)

end Rejoins

end Parser

end ActorFrontend
