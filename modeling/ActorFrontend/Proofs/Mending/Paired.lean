import ActorFrontend.Proofs.Mending.Mended

/-!
# Two runs around a missing semicolon

The second one of two runs has a semicolon that the first one lacks.  Up to there they go the same
way.  Where the first one assumes the semicolon and records that, the second one reads it, and then
they go the same way again; where the first one does anything else, it mends nothing at that place.
-/

namespace ActorFrontend

open ActorFrontend.Parser

variable {α : Type} {p : Nat} {spot origin : Spot} {setting setting' : Setting} {φ ψ χ : Footing}
  {hand hand' : Hand} {loud : Bool} {s s' t t' : State}
  {errors errors' more more' : List ParseError}

/-! ## Errors -/

/-- The same errors, but for one that says that the semicolon is missing. -/
inductive ParseError.MendedAll (p : Nat) : List ParseError → List ParseError → Prop where
  | same {errors errors' : List ParseError} (h : List.Forall₂ (Moved p) errors errors')
      (hno : NoMend p errors) : MendedAll p errors errors'
  | mended {before before' after after' : List ParseError} {e : ParseError} (he : e.MendsAt p)
      (hbefore : List.Forall₂ (Moved p) before before') (hafter : List.Forall₂ (Moved p) after after')
      (hno : NoMend p before) (hno' : NoMend p after) :
      MendedAll p (before ++ e :: after) (before' ++ after')

namespace ParseError.MendedAll

theorem of_noMend (h : MendedAll p errors errors') (hno : NoMend p errors) :
    List.Forall₂ (Moved p) errors errors' := by
  cases h with
  | same h => exact h
  | mended he => exact absurd he (hno _ (by simp))

theorem length_le (h : MendedAll p errors errors') : errors'.length ≤ errors.length := by
  cases h with
  | same h => exact Nat.le_of_eq h.length_eq.symm
  | mended _ hbefore hafter =>
    rw [List.length_append, List.length_append, List.length_cons, hbefore.length_eq, hafter.length_eq]
    omega

theorem append (h : MendedAll p errors errors') (hmore : List.Forall₂ (Moved p) more more')
    (hno : NoMend p more) : MendedAll p (errors ++ more) (errors' ++ more') := by
  cases h with
  | same h hno' => exact .same (List.rel_append h hmore) (hno'.append hno)
  | mended he hbefore hafter hno₁ hno₂ =>
    rw [List.append_assoc, List.append_assoc, List.cons_append]
    exact .mended he hbefore (List.rel_append hafter hmore) hno₁ (hno₂.append hno)

theorem prepend (h : MendedAll p more more') (herrors : List.Forall₂ (Moved p) errors errors')
    (hno : NoMend p errors) : MendedAll p (errors ++ more) (errors' ++ more') := by
  cases h with
  | same h hno' => exact .same (List.rel_append herrors h) (hno.append hno')
  | mended he hbefore hafter hno₁ hno₂ =>
    rw [← List.append_assoc, ← List.append_assoc]
    exact .mended he (List.rel_append herrors hbefore) hafter (hno.append hno₁) hno₂

theorem concat {e e' : ParseError} (h : MendedAll p errors errors') (he : e.Moved p e')
    (hno : ¬ e.MendsAt p) : MendedAll p (errors ++ [e]) (errors' ++ [e']) :=
  h.append (.cons he .nil) fun _ hmem => List.mem_singleton.1 hmem ▸ hno

end ParseError.MendedAll

/-! ## Places -/

/-- Where something that ends at an offset ends once another byte stands at `p`. -/
def movedEnd (p stop : Nat) : Nat := if p < stop then stop + 1 else stop

theorem Span.insertAt_start (span : Span) :
    (span.insertAt p).start = if p ≤ span.start then span.start + 1 else span.start := by
  unfold Span.insertAt
  split <;> rfl

theorem Span.insertAt_stop {span : Span} (h : p ≤ span.start → p < span.stop) :
    (span.insertAt p).stop = movedEnd p span.stop := by
  unfold Span.insertAt movedEnd
  split
  case isTrue hstart => rw [if_pos (h hstart)]; rfl
  case isFalse => rfl

/-- A span from the start of a token to the end of another one. -/
theorem Span.insertAt_since {start stop : Nat} :
    (⟨start, max stop start⟩ : Span).insertAt p =
      ⟨if p ≤ start then start + 1 else start,
        max (movedEnd p stop) (if p ≤ start then start + 1 else start)⟩ := by
  unfold Span.insertAt movedEnd Span.shift
  by_cases hstart : p ≤ start
  · simp only [hstart, if_true, Span.mk.injEq, true_and]
    split <;> omega
  · simp only [hstart, if_false, Span.mk.injEq, true_and]
    split <;> split <;> omega

theorem Span.insertAt_empty {offset : Nat} (h : offset ≠ p) :
    (Span.empty offset).insertAt p = .empty (movedEnd p offset) := by
  unfold Span.insertAt movedEnd Span.shift Span.empty
  simp only
  split <;> split <;> simp only [Span.mk.injEq] <;> omega

/-- The settings of the two runs. -/
structure Setting.Paired (p : Nat) (setting setting' : Setting) : Prop where
  limits : setting.limits = setting'.limits
  endOfInput : setting'.endOfInput = setting.endOfInput.insertAt p

/-! ## States -/

/-- A missing semicolon may be assumed here. -/
def Footing.Tight (φ : Footing) : Prop := φ.ended = false ∧ φ.stale = false

theorem Footing.tight_or (φ : Footing) : φ.Tight ∨ φ.ended = true ∨ φ.stale = true := by
  unfold Tight
  cases φ.ended <;> cases φ.stale <;> simp

theorem Footing.tight_of_le (hφ : φ ≤ ψ) (h : ψ.Tight) : φ.Tight := by
  obtain ⟨hended, -, hstale, -⟩ := hφ
  refine ⟨Bool.eq_false_iff.2 fun hφ => ?_, Bool.eq_false_iff.2 fun hφ => ?_⟩
  · exact absurd (h.1.symm.trans (hended hφ)) Bool.false_ne_true
  · exact absurd (h.2.symm.trans (hstale hφ)) Bool.false_ne_true

/-- Where the semicolon is missing, if it was missing at `origin` when the first run started. -/
inductive Spot.Since (p : Nat) (s : State) : (spot origin : Spot) → Prop where
  | ahead {origin : Spot} (hno : NoMend p s.errors) : Since p s origin origin
  | passed {origin : Spot} (h : ∀ behind, origin = .before behind →
      ¬ NoMend p s.errors ∧ s.rest.length ≤ behind.length) : Since p s .nowhere origin

/-- Where the two runs stand: the token at hand is the same, or it is the semicolon in the second
one. -/
inductive State.Standing (p : Nat) (origin : Spot) (φ : Footing) (s s' : State) : Prop where
  | apart {spot : Spot} (hspot : spot.Since p s origin) (h : Lexeme.Mended p spot s.rest s'.rest)
      (hend : (spot = .nowhere → φ.Tight) →
        s.previousEnd ≠ p ∧ s'.previousEnd = movedEnd p s.previousEnd)
  | gap {semicolon : Lexeme} {behind' : List Lexeme} (horigin : origin = .before s.rest)
      (hrest : s'.rest = semicolon :: behind') (hkind : semicolon.token.kind = .symbol .semicolon)
      (hspan : semicolon.token.span = ⟨p, p + 1⟩) (h : Lexeme.Mended p .nowhere s.rest behind')
      (hno : NoMend p s.errors) (hend : s.previousEnd = p) (hend' : s'.previousEnd = p)
      (hφ : φ.Tight)

/-- The two runs have come to the same place. -/
structure State.Paired (p : Nat) (origin : Spot) (φ : Footing) (hand : Hand) (s s' : State) :
    Prop where
  meet : Standing p origin φ s s'
  hand : hand.Holds s.kind s'.kind
  errors : ParseError.MendedAll p s.errors s'.errors
  context : s.context = s'.context
  depth : s.depth = s'.depth
  nextId : s.nextId = s'.nextId
  running_left : s.halted = false
  running_right : s'.halted = false

/-- The first run mends nothing at `p`, whatever the second one does.  One that records nothing has
come to where the semicolon is missing. -/
structure State.Gone (p : Nat) (setting : Setting) (origin : Spot) (loud : Bool) (φ : Footing)
    (s : State) : Prop where
  strays : s.Strays p setting φ
  placed : s.halted = false → origin ≠ .nowhere
  silent : loud = false → ∃ behind, origin = .before behind ∧ s.rest.length ≤ behind.length

/-- The first run has passed over where the semicolon is missing, and has not mended it. -/
def State.Passed (p : Nat) (origin : Spot) (s : State) : Prop :=
  ∃ behind, origin = .before behind ∧ Avoiding p behind ∧ s.rest <:+ behind ∧ NoMend p s.errors ∧
    s.halted = false

namespace Spot.Since

theorem of_ne_nowhere (h : spot.Since p s origin) (hspot : spot ≠ .nowhere) :
    spot = origin ∧ NoMend p s.errors := by
  cases h with
  | ahead hno => exact ⟨rfl, hno⟩
  | passed => exact absurd rfl hspot

/-- Later it is so as well, as long as nothing has been mended. -/
theorem kept (h : spot.Since p s origin) (hkept : s.Kept loud t)
    (herrors : NoMend p s.errors → NoMend p t.errors) : spot.Since p t origin := by
  cases h with
  | ahead hno => exact .ahead (herrors hno)
  | passed h =>
    refine .passed fun behind horigin => ?_
    obtain ⟨hno, hlength⟩ := h behind horigin
    exact ⟨fun hnone => hno fun e he => hnone e (hkept.errors.subset he),
      Nat.le_trans hkept.rest.length_le hlength⟩

/-- What has been so since a later state has been so since an earlier one. -/
theorem trans {spot' : Spot} (h' : spot'.Since p t spot) (h : spot.Since p s origin)
    (hkept : s.Kept loud t) : spot'.Since p t origin := by
  cases h with
  | ahead => exact h'
  | passed h =>
    obtain rfl : spot' = .nowhere := by cases h' <;> rfl
    refine .passed fun behind horigin => ?_
    obtain ⟨hno, hlength⟩ := h behind horigin
    exact ⟨fun hnone => hno fun e he => hnone e (hkept.errors.subset he),
      Nat.le_trans hkept.rest.length_le hlength⟩

end Spot.Since

namespace State

namespace Gone

/-- Behind such a state nothing changes about that. -/
theorem kept {quiet : Bool} (h : s.Gone p setting origin loud φ) (hkept : s.Kept quiet t)
    (hstrays : t.Strays p setting ψ) : t.Gone p setting origin loud ψ where
  strays := hstrays
  placed hrunning := h.placed (by
    rw [Bool.eq_false_iff]
    exact fun hhalted => Bool.false_ne_true (hrunning.symm.trans (hkept.stays_halted hhalted)))
  silent hloud := by
    obtain ⟨behind, horigin, hlength⟩ := h.silent hloud
    exact ⟨behind, horigin, Nat.le_trans hkept.rest.length_le hlength⟩

theorem of_passed (h : s.Passed p origin) (hφ : φ.ended = true ∨ φ.stale = true) :
    s.Gone p setting origin loud φ := by
  obtain ⟨behind, horigin, hbehind, hrest, hno, hrunning⟩ := h
  refine ⟨.lost hrunning hno (hbehind.suffix hrest) ?_, fun _ => ?_, fun _ => ?_⟩
  · rw [← or_assoc]
    exact .inl hφ
  · rw [horigin]
    nofun
  · exact ⟨behind, horigin, hrest.length_le⟩

theorem of_over (h : s.Over setting) : s.Gone p setting origin true φ where
  strays := .spent h
  placed hrunning := absurd (hrunning.symm.trans h.halted) Bool.false_ne_true
  silent := nofun

end Gone

/-- Nothing counts but the tokens, the place and the errors. -/
theorem Standing.congr (h : Standing p origin φ s s') (hrest : t.rest = s.rest) (hrest' : t'.rest = s'.rest)
    (hend : t.previousEnd = s.previousEnd) (hend' : t'.previousEnd = s'.previousEnd)
    (herrors : t.errors = s.errors) (hφ : ψ.Tight ↔ φ.Tight) : Standing p origin ψ t t' := by
  cases h with
  | apart hspot h hends =>
    refine .apart ?_ (by rwa [hrest, hrest']) fun htight => ?_
    · cases hspot with
      | ahead hno => exact .ahead (herrors ▸ hno)
      | passed h => exact .passed fun behind horigin => by rw [hrest, herrors]; exact h behind horigin
    · rw [hend, hend']
      exact hends fun hnowhere => hφ.1 (htight hnowhere)
  | gap horigin hsemicolon hkind hspan h hno hends hends' htight =>
    exact .gap (by rw [horigin, hrest]) (hrest'.trans hsemicolon) hkind hspan (by rwa [hrest])
      (herrors ▸ hno) (hend.trans hends) (hend'.trans hends') (hφ.2 htight)

namespace Paired

theorem standing (h : s.Paired p origin φ hand s') (hφ : ψ.Tight ↔ φ.Tight)
    (hhand : hand'.Holds s.kind s'.kind) : s.Paired p origin ψ hand' s' :=
  { h with meet := h.meet.congr rfl rfl rfl rfl rfl hφ, hand := hhand }

theorem forget (h : s.Paired p origin φ hand s') : s.Paired p origin φ none s' :=
  h.standing .rfl (Hand.holds_none _ _)

/-- Less may be known of the place. -/
theorem reach_or_passed (h : s.Paired p origin φ hand s') (hφ : ψ.Tight → φ.Tight) :
    s.Paired p origin ψ hand s' ∨ s.Passed p origin ∧ (ψ.ended = true ∨ ψ.stale = true) := by
  cases h.meet with
  | apart hspot hmended hend =>
    exact .inl { h with meet := .apart hspot hmended fun hψ => hend (hφ ∘ hψ) }
  | gap horigin hrest hkind hspan hmended hno hend hend' _ =>
    obtain hψ | hψ := ψ.tight_or
    · exact .inl { h with meet := .gap horigin hrest hkind hspan hmended hno hend hend' hψ }
    · exact .inr ⟨⟨_, horigin, hmended.avoiding, List.suffix_rfl, hno, h.running_left⟩, hψ⟩

theorem reach (setting : Setting) (loud : Bool) (h : s.Paired p origin φ hand s') (hφ : ψ.Tight → φ.Tight) :
    s.Paired p origin ψ hand s' ∨ s.Gone p setting origin loud ψ :=
  (h.reach_or_passed hφ).imp_right fun ⟨h, hψ⟩ => .of_passed h hψ

/-- The same token is at hand, or it is the semicolon in the second run. -/
theorem apart_or_gap (h : s.Paired p origin φ hand s') :
    (∃ spot, spot.Since p s origin ∧ Lexeme.Mended p spot s.rest s'.rest) ∨
      s.Passed p origin ∧ s'.kind = .symbol .semicolon ∧ φ.Tight := by
  cases h.meet with
  | apart hspot hmended => exact .inl ⟨_, hspot, hmended⟩
  | gap horigin hrest hkind hspan hmended hno hend hend' htight =>
    refine .inr ⟨⟨_, horigin, hmended.avoiding, List.suffix_rfl, hno, h.running_left⟩, ?_, htight⟩
    rw [State.kind, hrest]
    exact hkind

/-- Where a missing semicolon is not assumed, the same token is at hand. -/
theorem apart (h : s.Paired p origin φ hand s') (hφ : φ.ended = true ∨ φ.stale = true) :
    ∃ spot, spot.Since p s origin ∧ Lexeme.Mended p spot s.rest s'.rest := by
  refine h.apart_or_gap.resolve_right fun ⟨_, _, htight⟩ => ?_
  obtain hφ | hφ := hφ
  · exact absurd (htight.1.symm.trans hφ) Bool.false_ne_true
  · exact absurd (htight.2.symm.trans hφ) Bool.false_ne_true

theorem previousEnd (h : s.Paired p origin φ hand s') (hφ : φ.Tight) :
    s'.previousEnd = movedEnd p s.previousEnd := by
  cases h.meet with
  | apart _ _ hend => exact (hend fun _ => hφ).2
  | gap _ _ _ _ _ _ hend hend' => rw [hend, hend', movedEnd, if_neg (Nat.lt_irrefl _)]

/-- The same token is passed over. -/
theorem advance_apart (h : s.Paired p origin φ hand s') (hspot : spot.Since p s origin)
    (hmended : Lexeme.Mended p spot s.rest s'.rest) (hend : s.atEnd = false) :
    s.advance.Paired p origin .behind none s'.advance := by
  have hkept : s.Kept false s.advance := .advance s
  cases hrest : s.rest with
  | nil =>
    rw [State.atEnd, hrest] at hend
    cases hend
  | cons a rest =>
    have hadvance : s.advance = { s with rest, previousEnd := a.token.span.stop } := by
      rw [State.advance, hrest]
    rw [hadvance] at hkept
    cases hrest' : s'.rest with
    | nil =>
      rw [hrest, hrest'] at hmended
      cases hmended
    | cons a' rest' =>
      have hadvance' : s'.advance = { s' with rest := rest', previousEnd := a'.token.span.stop } := by
        rw [State.advance, hrest']
      rw [hrest, hrest'] at hmended
      rw [hadvance, hadvance']
      cases hmended with
      | cons _ htoken havoid _ hle hmended =>
        obtain ⟨hstop, -⟩ := havoid
        refine { h with hand := Hand.holds_none _ _, meet := .apart (hspot.kept hkept id) hmended ?_ }
        refine fun _ => ⟨hstop, ?_⟩
        rw [htoken.span, Span.insertAt_stop fun hp => by omega]
      | string _ htoken hbefore hstop hmended =>
        obtain ⟨rfl, -⟩ := hspot.of_ne_nowhere fun h => by cases h
        refine { h with hand := Hand.holds_none _ _, meet := .apart (.passed fun _ h => by cases h) hmended ?_ }
        refine fun _ => ⟨hstop, ?_⟩
        rw [htoken.span, Span.insertAt_stop fun hp => by omega]
      | last _ htoken hbefore hstop hkind hspan hmended =>
        obtain ⟨rfl, hno⟩ := hspot.of_ne_nowhere fun h => by cases h
        refine { h with
          hand := Hand.holds_none _ _
          meet := .gap rfl rfl hkind hspan hmended hno hstop ?_ ⟨rfl, rfl⟩ }
        rw [htoken.span, Span.insertAt_stop fun hp => by omega, hstop, movedEnd,
          if_neg (Nat.lt_irrefl _)]

/-- A token is passed over.  At the gap the second run takes the semicolon. -/
theorem advance (loud : Bool) (h : s.Paired p origin φ hand s') (hkind : s.kind ≠ .endOfFile) :
    s.advance.Paired p origin .behind none s'.advance ∨
      s'.kind = .symbol .semicolon ∧ ∀ setting ψ, s.advance.Gone p setting origin loud ψ := by
  obtain ⟨spot, hspot, hmended⟩ | ⟨hpassed, hkind', -⟩ := h.apart_or_gap
  · refine .inl (h.advance_apart hspot hmended (Bool.eq_false_iff.2 fun hend => hkind ?_))
    rw [State.kind, List.isEmpty_iff.1 hend]
  · refine .inr ⟨hkind', fun setting ψ => ?_⟩
    have hgone : s.Gone p setting origin loud .loose := .of_passed hpassed (.inr rfl)
    exact hgone.kept (@Kept.advance false s) (hgone.strays.advance hkind rfl fun _ => rfl)

/-- An error is recorded in both runs. -/
theorem record {e e' : ParseError} (h : s.Paired p origin φ hand s')
    (hsetting : setting.Paired p setting') (he : e.Moved p e') (hno : ¬ e.MendsAt p) :
    (s.record setting e).Paired p origin φ hand (s'.record setting' e') ∨
      (s.record setting e).Over setting := by
  obtain hover | ⟨hlt, hrecord⟩ := record_cases setting e h.running_left
  · exact .inr hover
  have hrecord' : s'.record setting' e' = { s' with errors := s'.errors ++ [e'] } := by
    refine record_of_lt e' h.running_right ?_
    have hle := h.errors.length_le
    rw [← hsetting.limits]
    omega
  have hkept : s.Kept true (s.record setting e) := .record setting e s
  rw [hrecord] at hkept
  rw [hrecord, hrecord']
  refine .inl { h with errors := h.errors.concat he hno, meet := ?_ }
  cases h.meet with
  | apart hspot hmended hend => exact .apart (hspot.kept hkept (·.concat hno)) hmended hend
  | gap horigin hrest hkind hspan hmended hnone hend hend' htight =>
    exact .gap horigin hrest hkind hspan hmended (hnone.concat hno) hend hend' htight

/-- Tokens are passed over in both runs, unless the first one gets where the semicolon is missing. -/
theorem skip (h : s.Paired p origin .unread hand s') (n : Nat) :
    (s.skip n).Paired p origin .unread none (s'.skip n) ∨ (s.skip n).Passed p origin := by
  induction n generalizing s s' hand with
  | zero => exact .inl h.forget
  | succ n ih =>
    obtain ⟨spot, hspot, hmended⟩ := h.apart (.inr rfl)
    cases hend : s.atEnd with
    | true =>
      have hadvance {t : State} (ht : t.atEnd = true) : t.advance = t := by
        rw [State.advance, List.isEmpty_iff.1 ht]
      rw [State.skip, State.skip, hadvance hend, hadvance (hmended.atEnd_eq ▸ hend)]
      exact ih h
    | false =>
      obtain hnext | ⟨⟨behind, horigin, havoid, hsuffix, hno, hrunning⟩, -⟩ :=
        (h.advance_apart hspot hmended hend).reach_or_passed (ψ := .unread) fun _ => ⟨rfl, rfl⟩
      · exact ih hnext
      · have hkept : s.advance.Kept false (s.advance.skip n) := .skip n _
        have herrors := hkept.silent rfl
        exact .inr ⟨behind, horigin, havoid, hkept.rest.trans hsuffix, herrors ▸ hno,
          (hkept.unspent herrors).trans hrunning⟩

end Paired

end State

end ActorFrontend
