import ActorFrontend.Proofs.Mending.Paired

/-!
# Answers around a missing semicolon

What two readings answer with that start where two runs stand around a missing semicolon: the same,
unless the first one has passed the place and mended nothing there.
-/

namespace ActorFrontend

open ActorFrontend.Parser

variable {α β σ : Type} {p : Nat} {spot origin : Spot} {setting setting' : Setting}
  {φ ψ χ : Footing} {hand : Hand} {loud loud' : Bool} {s s' t t' : State} {parts : Parts}

namespace State

/-- What holds since a later state holds since an earlier one. -/
theorem Paired.lift (h : t.Paired p spot φ hand t') (hspot : spot.Since p s origin)
    (hkept : s.Kept loud t) : t.Paired p origin φ hand t' := by
  refine { h with meet := ?_ }
  cases h.meet with
  | apart hspot' hmended hend => exact .apart (hspot'.trans hspot hkept) hmended hend
  | gap horigin hrest hkind hspan hmended hno hend hend' hφ =>
    obtain ⟨rfl, -⟩ := hspot.of_ne_nowhere (by rw [horigin]; nofun)
    exact .gap horigin hrest hkind hspan hmended hno hend hend' hφ

/-- As long as nothing is mended the second run has the semicolon before it. -/
theorem Paired.length_lt {behind : List Lexeme} (h : t.Paired p (.before behind) φ hand t')
    (hno : NoMend p t.errors) : behind.length < t'.rest.length := by
  cases h.meet with
  | apart hspot hmended =>
    cases hspot with
    | passed h => exact absurd hno (h behind rfl).1
    | ahead =>
      have hlt := hmended.gapped.2
      have heq := hmended.length_eq
      simp only [Spot.extra] at heq
      omega
  | gap horigin hrest _ _ hmended =>
    cases horigin
    have heq := hmended.length_eq
    simp only [Spot.extra] at heq
    rw [hrest, List.length_cons]
    omega

/-- Where none is assumed the second run does not stand at the semicolon. -/
theorem Paired.length_ne {behind : List Lexeme} (h : t.Paired p (.before behind) φ hand t')
    (hφ : φ.ended = true ∨ φ.stale = true) : t'.rest.length ≠ behind.length + 1 := by
  obtain ⟨spot, hspot, hmended⟩ := h.apart hφ
  have heq := hmended.length_eq
  cases hspot with
  | ahead =>
    have hlt := hmended.gapped.2
    simp only [Spot.extra] at heq
    omega
  | passed h =>
    have hle := (h behind rfl).2
    simp only [Spot.extra] at heq
    omega

end State

/-! ## Answers -/

/-- The first run mends nothing at `p`. -/
structure Reply.Gone (p : Nat) (setting : Setting) (origin : Spot) (loud : Bool) (χ : Footing)
    (r : Reply α) : Prop where
  strays : r.Strays p setting χ
  placed : r.state.halted = false → origin ≠ .nowhere
  silent : loud = false → ∃ behind, origin = .before behind ∧ r.state.rest.length ≤ behind.length

/-- Both runs have come to the same place, or have failed there for the same reason. -/
inductive Reply.Met (p : Nat) (origin : Spot) (χ : Footing) (R : α → α → Prop) :
    Reply α → Reply α → Prop where
  | both {a a' : α} {s s' : State} (h : s.Paired p origin χ none s') (ha : R a a') :
      Met p origin χ R (.ok a s) (.ok a' s')
  | failed {e e' : ParseError} {s s' : State} (h : s.Paired p origin .unread none s')
      (he : e.Moved p e') (hstops : e.cause.stops = true) :
      Met p origin χ R (.fail e s) (.fail e' s')

/-- What two runs answer with. -/
def Reply.Paired (p : Nat) (setting : Setting) (origin : Spot) (loud : Bool) (χ : Footing)
    (R : α → α → Prop) (r r' : Reply α) : Prop :=
  r.Gone p setting origin loud χ ∨ r.Met p origin χ R r'

variable {R S : α → α → Prop} {r r' : Reply α}

namespace Reply.Gone

theorem of_state (h : s.Gone p setting origin loud φ) (hkept : s.Kept loud' r.state)
    (hstrays : r.Strays p setting χ) : r.Gone p setting origin loud χ where
  strays := hstrays
  placed hrunning := h.placed (by
    rw [Bool.eq_false_iff]
    exact fun hhalted => Bool.false_ne_true (hrunning.symm.trans (hkept.stays_halted hhalted)))
  silent hloud := by
    obtain ⟨behind, horigin, hlength⟩ := h.silent hloud
    exact ⟨behind, horigin, Nat.le_trans hkept.rest.length_le hlength⟩

theorem ok {a : α} (h : s.Gone p setting origin loud χ) :
    (Reply.ok a s).Gone p setting origin loud χ :=
  ⟨h.strays, h.placed, h.silent⟩

theorem state {a : α} (h : (Reply.ok a s).Gone p setting origin loud χ) :
    s.Gone p setting origin loud χ :=
  ⟨h.strays, h.placed, h.silent⟩

theorem failed {e : ParseError} (h : s.Gone p setting origin loud φ)
    (hstops : e.cause.stops = true) : (Reply.fail e s : Reply α).Gone p setting origin loud χ :=
  ⟨.failed h.strays hstops, h.placed, h.silent⟩

theorem weaken (h : r.Gone p setting origin loud φ) (hloud : loud = true → loud' = true)
    (hφ : φ ≤ χ) : r.Gone p setting origin loud' χ :=
  ⟨h.strays.mono hφ, h.placed, fun h' => h.silent (by cases loud <;> simp_all)⟩

theorem lift (h : r.Gone p setting spot loud χ) (hspot : spot.Since p s origin) :
    r.Gone p setting origin loud χ where
  strays := h.strays
  placed hrunning := by
    obtain ⟨rfl, -⟩ := hspot.of_ne_nowhere (h.placed hrunning)
    exact h.placed hrunning
  silent hloud := by
    obtain ⟨behind, rfl, hlength⟩ := h.silent hloud
    obtain ⟨rfl, -⟩ := hspot.of_ne_nowhere nofun
    exact ⟨behind, rfl, hlength⟩

end Reply.Gone

namespace Reply.Paired

theorem weaken (h : r.Paired p setting origin loud φ R r') (hloud : loud = true → loud' = true)
    (hφ : φ ≤ χ) (hR : ∀ a a', R a a' → S a a') : r.Paired p setting origin loud' χ S r' := by
  obtain hgone | hmet := h
  · exact .inl (hgone.weaken hloud hφ)
  · cases hmet with
    | both h ha =>
      obtain h | hgone := h.reach setting loud' (Footing.tight_of_le hφ)
      · exact .inr (.both h (hR _ _ ha))
      · exact .inl (.ok hgone)
    | failed h he hstops => exact .inr (.failed h he hstops)

/-- Both runs have an answer; as to the place, less may be known of it. -/
theorem both {a a' : α} (h : s.Paired p origin φ hand s') (ha : R a a') (hφ : χ.Tight → φ.Tight) :
    (Reply.ok a s).Paired p setting origin loud χ R (.ok a' s') := by
  obtain h | hgone := h.forget.reach setting loud hφ
  · exact .inr (.both h ha)
  · exact .inl (.ok hgone)

/-- Both runs fail; if that is where the semicolon is missing, it stays so. -/
theorem failed {e e' : ParseError} (h : s.Paired p origin φ hand s') (he : e.Moved p e')
    (hstops : e.cause.stops = true) :
    (Reply.fail e s : Reply α).Paired p setting origin loud χ R (.fail e' s') := by
  obtain h | hgone := h.forget.reach (ψ := .unread) setting loud
    fun hψ => absurd hψ.2 nofun
  · exact .inr (.failed h he hstops)
  · exact .inl (.failed hgone hstops)

/-- A change of both states. -/
theorem mapState {f f' : State → State} (h : r.Paired p setting origin loud φ R r')
    (hgone : r.Gone p setting origin loud φ → (r.mapState f).Gone p setting origin loud χ)
    (hboth : ∀ s s', r.state = s → r'.state = s' → s.Paired p origin φ none s' →
      (f s).Paired p origin χ none (f' s'))
    (hfailed : ∀ s s', r.state = s → r'.state = s' → s.Paired p origin .unread none s' →
      (f s).Paired p origin .unread none (f' s')) :
    (r.mapState f).Paired p setting origin loud χ R (r'.mapState f') := by
  refine Or.imp hgone (fun hmet => ?_) h
  cases hmet with
  | both hs ha => exact .both (hboth _ _ rfl rfl hs) ha
  | failed hs he hstops => exact .failed (hfailed _ _ rfl rfl hs) he hstops

end Reply.Paired

namespace Parser

variable {L : Comparison} {inside : Bool} {R : α → α → Prop} {S : β → β → Prop}

theorem Alike.gone {q q' : Parser α} (h : Alike L loud inside hand φ χ R q q')
    (hmended : L.mended = some p) (hhand : hand.Knows s.kind)
    (hs : s.Gone p setting origin loud' φ) : (q setting s).Gone p setting origin loud' χ :=
  .of_state hs (h.keepAlike.left setting s) (h.strays hmended hhand hs.strays)

end Parser

namespace Reply.Paired

variable {L : Comparison} {inside : Bool} {S : β → β → Prop}

theorem bind {q q' : Parser α} {f f' : α → Parser β}
    (h : (q setting s).Paired p setting origin loud ψ R (q' setting' s'))
    (hq : Parser.Alike L loud inside hand φ ψ R q q')
    (hf : ∀ a a', R a a' → Parser.Alike L loud inside none ψ χ S (f a) (f' a'))
    (hmended : L.mended = some p)
    (hboth : ∀ a a' s s', R a a' → s.Paired p origin ψ none s' →
      (f a setting s).Paired p setting origin loud χ S (f' a' setting' s')) :
    ((q >>= f) setting s).Paired p setting origin loud χ S ((q' >>= f') setting' s') := by
  obtain hgone | hmet := h
  · left
    cases hreply : q setting s with
    | ok a after =>
      rw [Parser.bind_ok hreply]
      rw [hreply] at hgone
      obtain ⟨a', ha⟩ := hq.keepAlike.answer a ⟨setting, s, after, hreply⟩
      exact (hf a a' ha).gone hmended (Hand.knows_none _) hgone.state
    | fail e after =>
      rw [hreply] at hgone
      change (Parser.bind q f setting s).Gone _ _ _ _ _
      rw [Parser.bind, hreply]
      exact ⟨hgone.strays, hgone.placed, hgone.silent⟩
  · generalize hreply : q setting s = r at hmet
    generalize hreply' : q' setting' s' = r' at hmet
    cases hmet with
    | both h ha =>
      rw [Parser.bind_ok hreply, Parser.bind_ok hreply']
      exact hboth _ _ _ _ ha h
    | failed h he hstops =>
      change (Parser.bind q f setting s).Paired _ _ _ _ _ _ (Parser.bind q' f' setting' s')
      rw [Parser.bind, Parser.bind, hreply, hreply']
      exact .inr (.failed h he hstops)

/-- The semicolon that the first run lacks is assumed where it is missing, and read by the second
one. -/
theorem semicolon (hsetting : setting.Paired p setting') (hs : s.Paired p origin φ hand s')
    (hφ : φ.Tight) :
    (Parser.semicolon setting s).Paired p setting origin true .closed (fun _ _ => True)
      (Parser.semicolon setting' s') := by
  unfold Parser.semicolon
  cases hs.meet with
  | apart hspot hmended hend =>
    obtain ⟨hend, hend'⟩ := hend fun _ => hφ
    have hkinds := hmended.kind_resembles
    rw [← hmended.atEnd_eq, hmended.afterLineBreak_eq, ← hkinds.isSymbol_eq, ← hkinds.isSymbol_eq]
    split
    case isTrue hkind =>
      have hkind := TokenKind.eq_of_isSymbol hkind
      obtain hnext | ⟨-, hgone⟩ := hs.advance true (by simp [hkind])
      · exact .both hnext trivial fun _ => ⟨rfl, rfl⟩
      · exact .inl (.ok (hgone setting .closed))
    case isFalse =>
      split
      · have hmoved : ParseError.Moved p ⟨.missingSemicolon s.kind, .empty s.previousEnd⟩
            ⟨.missingSemicolon s'.kind, .empty s'.previousEnd⟩ := by
          refine ⟨by rw [hend', Span.insertAt_empty hend], rfl, ?_, rfl, rfl⟩
          generalize s.kind = k at hkinds
          generalize s'.kind = k' at hkinds
          cases hkinds <;> rfl
        obtain hs | hover := hs.record hsetting hmoved fun h =>
          hend h.2
        · exact .both hs.forget trivial fun _ => hφ
        · exact .inl (.ok (.of_over hover))
      · exact .failed hs (Parser.Alike.moved_expected hkinds (hmended.span_eq hsetting.endOfInput) _) rfl
  | @gap semicolon behind' horigin hrest hkind hspan hmended hno hend hend' =>
    have hkind' : s'.kind = .symbol .semicolon := by rw [State.kind, hrest]; exact hkind
    have hgone : s.Gone p setting origin true φ.still :=
      .of_passed ⟨_, horigin, hmended.avoiding, List.suffix_rfl, hno, hs.running_left⟩ (.inr rfl)
    rw [if_pos (show s'.kind.isSymbol .semicolon = true by rw [hkind']; rfl)]
    split
    case isTrue hkind =>
      have hkind := TokenKind.eq_of_isSymbol hkind
      exact .inl (.ok (hgone.kept (@State.Kept.advance true s)
        (hgone.strays.advance (by simp [hkind]) hφ.1 (by simp [hkind, TokenKind.isArrow]))))
    case isFalse =>
      split
      · obtain hover | ⟨hlt, hrecord⟩ :=
          State.record_cases setting ⟨.missingSemicolon s.kind, .empty s.previousEnd⟩ hs.running_left
        · exact .inl (.ok (.of_over hover))
        have hadvance : s'.advance = { s' with rest := behind', previousEnd := p + 1 } := by
          rw [State.advance, hrest]
          simp only [hspan]
        have he : ParseError.MendsAt p ⟨.missingSemicolon s.kind, .empty s.previousEnd⟩ :=
          ⟨⟨_, rfl⟩, hend⟩
        rw [hrecord, hadvance]
        refine .inr (.both { hs with meet := ?_, hand := Hand.holds_none _ _, errors := ?_ } trivial)
        · refine .apart (.passed fun behind hbehind => ⟨fun hnone => ?_, ?_⟩) hmended fun hφ => ?_
          · exact hnone _ (by simp) he
          · cases horigin.symm.trans hbehind
            exact Nat.le_refl _
          · cases (hφ rfl).1
        · have herrors := ParseError.MendedAll.mended he (hs.errors.of_noMend hno) .nil hno .nil
          rwa [List.append_nil] at herrors
      · exact .inl (.failed hgone rfl)

end Reply.Paired

/-! ## Parts read one after another -/

namespace State

variable {after after' : State} {e e' : ParseError}

theorem Passed.kept (h : s.Passed p origin) (hkept : s.Kept false t) : t.Passed p origin := by
  obtain ⟨behind, horigin, havoid, hrest, hno, hrunning⟩ := h
  have herrors := hkept.silent rfl
  exact ⟨behind, horigin, havoid, hkept.rest.trans hrest, herrors ▸ hno,
    (hkept.unspent herrors).trans hrunning⟩

/-- Both runs resume at the same place, unless the first one gets where the semicolon is missing. -/
theorem Paired.resume (parts : Parts) (h : s.Paired p spot .unread hand s') :
    (s.skip (parts.recovery.resume s.rest)).Paired p spot .unread none
        (s'.skip (parts.recovery.resume s'.rest)) ∨
      (s.skip (parts.recovery.resume s.rest)).Passed p spot := by
  obtain ⟨f, hscans, hresume⟩ := parts.exists_scans
  rw [hresume]
  obtain ⟨spot', hspot, hmended⟩ := h.apart (.inr rfl)
  have hsame (heq : f 0 s'.rest = f 0 s.rest) :
      (s.skip (f 0 s.rest)).Paired p spot .unread none (s'.skip (f 0 s'.rest)) ∨
        (s.skip (f 0 s.rest)).Passed p spot := heq ▸ h.skip _
  cases spot' with
  | nowhere => exact hsame (hscans.resembling (hmended.resembling rfl))
  | within => exact hsame (hscans.resembling (hmended.resembling rfl))
  | before behind =>
    obtain heq | hle := hscans.gapped 0 hmended.gapped.1
    · exact hsame heq
    obtain ⟨rfl, hno⟩ := hspot.of_ne_nowhere nofun
    refine .inr ((h.skip (f 0 s.rest)).resolve_left fun hskip => ?_)
    have hkept : s.Kept false (s.skip (f 0 s.rest)) := .skip _ s
    rw [← rest_skip] at hle
    obtain ⟨spot', hspot, hmended⟩ := hskip.apart (.inr rfl)
    cases hspot with
    | ahead => exact absurd hmended.gapped.2 (Nat.not_lt_of_le hle)
    | passed h => exact (h behind rfl).1 (hkept.silent rfl ▸ hno)

/-- As to whether they have read something the two runs agree. -/
theorem Paired.length_iff (hs : s.Paired p spot .unread hand s')
    (hmended : Lexeme.Mended p spot s.rest s'.rest) (h : t.Paired p spot .unread none t')
    (hrest : t.rest <:+ s.rest) :
    t.rest.length = s.rest.length ↔ t'.rest.length = s'.rest.length := by
  obtain ⟨spot', hspot, hmended'⟩ := h.apart (.inr rfl)
  have heq := hmended.length_eq
  have heq' := hmended'.length_eq
  have hle := hrest.length_le
  cases hspot with
  | ahead => omega
  | passed h =>
    cases spot with
    | nowhere | within =>
      simp only [Spot.extra] at heq heq'
      omega
    | before behind =>
      have hpassed := (h behind rfl).2
      have hlt := hmended.gapped.2
      simp only [Spot.extra] at heq heq'
      omega

/-- A part fails in both runs; they recover from that in the same way. -/
theorem Paired.recover (parts : Parts) (hs : s.Paired p spot .unread hand s')
    (hmended : Lexeme.Mended p spot s.rest s'.rest) (hend : s.atEnd = false)
    (hsetting : setting.Paired p setting') (h : after.Paired p spot .unread none after')
    (hkept : s.Kept true after) (he : e.Moved p e') (hstops : e.cause.stops = true) :
    (after.record setting e).Over setting ∨
      (after.record setting e).halted = false ∧ (after'.record setting' e').halted = false ∧
        ((s.recover parts.recovery setting e after).Paired p spot .unread none
            (s'.recover parts.recovery setting' e' after') ∨
          (s.recover parts.recovery setting e after).Passed p spot) := by
  refine (h.record hsetting he (ParseError.not_mendsAt hstops)).symm.imp_right fun hnoted => ?_
  refine ⟨hnoted.running_left, hnoted.running_right, ?_⟩
  have hrest : (after.record setting e).rest <:+ s.rest :=
    (State.Kept.record setting e after).rest.trans hkept.rest
  unfold State.recover
  generalize after.record setting e = noted at *
  generalize after'.record setting' e' = noted' at *
  simp only [hnoted.running_left, hnoted.running_right, Bool.false_eq_true, if_false]
  have hskip : noted.Kept false (noted.skip (parts.recovery.resume noted.rest)) := .skip _ noted
  obtain hresumed | hpassed := hnoted.resume parts
  · have hiff := hs.length_iff hmended hresumed (hskip.rest.trans hrest)
    by_cases hlength : (noted.skip (parts.recovery.resume noted.rest)).rest.length = s.rest.length
    · rw [if_pos hlength, if_pos (hiff.1 hlength)]
      obtain ⟨spot', hspot, hmended'⟩ := hresumed.apart (.inr rfl)
      have hmore : (noted.skip (parts.recovery.resume noted.rest)).atEnd = false := by
        rw [atEnd, List.isEmpty_eq_false_iff] at hend ⊢
        exact fun hnil => hend (List.length_eq_zero_iff.1 (by rw [← hlength, hnil]; rfl))
      exact ((hresumed.advance_apart hspot hmended' hmore).reach_or_passed (ψ := .unread)
        fun h => by cases h.2).imp_right And.left
    · rw [if_neg hlength, if_neg fun h => hlength (hiff.2 h)]
      exact .inl hresumed
  · right
    split
    · exact hpassed.kept (.advance _)
    · exact hpassed

/-- The present place is as good a start as an earlier one. -/
theorem Paired.rebase (h : s.Paired p origin φ hand s') (hφ : φ.ended = true ∨ φ.stale = true) :
    ∃ spot, spot.Since p s origin ∧ Lexeme.Mended p spot s.rest s'.rest ∧
      s.Paired p spot φ hand s' := by
  cases hmeet : h.meet with
  | @apart spot hspot hmended hend =>
    refine ⟨spot, hspot, hmended, { h with meet := .apart ?_ hmended hend }⟩
    cases hspot with
    | ahead hno => exact .ahead hno
    | passed => exact .passed nofun
  | gap _ _ _ _ _ _ _ _ htight =>
    obtain hφ | hφ := hφ
    · exact absurd (htight.1.symm.trans hφ) Bool.false_ne_true
    · exact absurd (htight.2.symm.trans hφ) Bool.false_ne_true

end State

theorem State.Passed.lift (h : t.Passed p spot) (hspot : spot.Since p s origin) :
    t.Passed p origin := by
  obtain ⟨behind, horigin, h⟩ := h
  obtain ⟨rfl, -⟩ := hspot.of_ne_nowhere (by rw [horigin]; nofun)
  exact ⟨behind, horigin, h⟩

section Parts

variable {L : Comparison} {R : σ → σ → Prop} {part part' : σ → Parser σ} {a a' : σ}
  {stop : State → Bool}

/-- Where nothing is mended in a part nothing is mended in those behind it. -/
theorem Reply.Gone.readParts
    (hstop : stop = (fun s => s.kind.isSymbol .rightBrace || s.atEnd) ∨ stop = State.atEnd)
    (hprogresses : Parser.Progresses (turnUntil stop parts.recovery part))
    (hbreaks : ∀ a, parts.BreaksOff (part a))
    (hpart : ∀ a a', R a a' → Parser.Alike L true true none .unread χ R (part a) (part' a'))
    (hmended : L.mended = some p) (ha : R a a') (hrunning : s.halted = false) (hdone : stop s = false)
    (h : (part a setting s).Gone p setting origin true χ) :
    (loop (turnUntil stop parts.recovery part) a setting s).Gone p setting origin true .unread := by
  have hread (b : σ) (t : State) (ht : (∃ b', R b b') ∧ t.Wanders p setting parts) :
      (loop (turnUntil stop parts.recovery part) b setting t).Strays p setting .unread := by
    refine .readParts stop (fun b => ∃ b', R b b') hstop hprogresses hbreaks
      (fun b s ⟨b', hb⟩ hs => ?_) ht.1 ht.2
    refine ((hpart b b' hb).strays hmended (Hand.knows_none _) hs).answers.imp
      (fun r s ⟨hr, hs⟩ => ?_) fun _ _ h => h
    exact ⟨(hpart b b' hb).keepAlike.answer r hr, hs.unread⟩
  have hturn : (resilient parts.recovery part a setting s).EndsWith
      (fun r s => if r.1 = true then (∃ b', R r.2 b') ∧ s.Wanders p setting parts
        else s.Strays p setting .unread) fun _ _ => False := by
    refine Reply.Strays.turn (fun b => ∃ b', R b b') hrunning ⟨a', ha⟩ ?_
    exact h.strays.answers.imp
      (fun r s ⟨hr, hs⟩ => ⟨(hpart a a' ha).keepAlike.answer r hr, hs.unread⟩)
      fun _ _ h => ⟨h.1.ofStatements, h.2⟩
  have hkept : (part a setting s).state.Kept true
      (resilient parts.recovery part a setting s).state := Keeps.kept_resilient hrunning
  have hplaced {t : State} (ht : (part a setting s).state.Kept true t) (hrun : t.halted = false) :
      origin ≠ .nowhere := h.placed (by
    rw [Bool.eq_false_iff]
    exact fun hhalted => Bool.false_ne_true (hrun.symm.trans (ht.stays_halted hhalted)))
  rw [loop_eq hprogresses, turnUntil_of_not_stop hdone]
  generalize resilient parts.recovery part a setting s = r at *
  cases r with
  | fail e after => exact hturn.elim
  | ok r after =>
    obtain ⟨again, b⟩ := r
    cases again with
    | false => exact ⟨hturn, hplaced hkept, nofun⟩
    | true =>
      obtain ⟨b', hb⟩ := hturn.1
      have hloop : KeepAlike (L.mended = none) true R (loop (turnUntil stop parts.recovery part) b)
          (loop (turnUntil stop parts.recovery part') b') :=
        .loop (fun b b' hb => .turnUntil stop parts.recovery hb (hpart b b' hb).keepAlike) hb
      exact ⟨hread b after hturn, hplaced (hkept.trans (hloop.left setting after)), nofun⟩

theorem Reply.Paired.readParts
    (hstop : stop = (fun s => s.kind.isSymbol .rightBrace || s.atEnd) ∨ stop = State.atEnd)
    (hprogresses : Parser.Progresses (turnUntil stop parts.recovery part))
    (hprogresses' : Parser.Progresses (turnUntil stop parts.recovery part'))
    (hbreaks : ∀ a, parts.BreaksOff (part a))
    (hpart : ∀ a a', R a a' → Parser.Alike L true true none .unread χ R (part a) (part' a'))
    (hmended : L.mended = some p) (hsetting : setting.Paired p setting')
    (hreplies : ∀ origin a a' s s', R a a' → s.Paired p origin .unread none s' →
      (part a setting s).Paired p setting origin true χ R (part' a' setting' s'))
    (ha : R a a') (hs : s.Paired p origin .unread none s') :
    (loop (turnUntil stop parts.recovery part) a setting s).Paired p setting origin true .unread R
      (loop (turnUntil stop parts.recovery part') a' setting' s') := by
  have hloop (b b' : σ) (hb : R b b') : Parser.Alike L true true none .unread .unread R
      (loop (turnUntil stop parts.recovery part) b) (loop (turnUntil stop parts.recovery part') b') :=
    .parts parts stop (by simp [hmended]) hstop hprogresses hprogresses' hbreaks hpart hb
  induction hn : s.rest.length using Nat.strongRecOn generalizing a a' s s' with
  | ind n ih =>
    obtain ⟨spot, hspot, hmendeds, hs'⟩ := hs.rebase (.inr rfl)
    have hstopped : stop s = stop s' := by
      obtain rfl | rfl := hstop
      · simp only [hmendeds.kind_resembles.isSymbol_eq, hmendeds.atEnd_eq]
      · exact hmendeds.atEnd_eq
    cases hdone : stop s with
    | true =>
      rw [loop_of_stop hdone, loop_of_stop (hstopped ▸ hdone)]
      exact .inr (.both hs ha)
    | false =>
      have hend : s.atEnd = false := by
        obtain rfl | rfl := hstop
        · exact (Bool.or_eq_false_iff.1 hdone).2
        · exact hdone
      have hkept : s.Kept true (part a setting s).state :=
        (hpart a a' ha).keepAlike.left setting s
      obtain hgone | hmet := hreplies spot a a' s s' ha hs'
      · exact .inl (.readParts hstop hprogresses hbreaks hpart hmended ha hs.running_left hdone
          (hgone.lift hspot))
      have hturn : turnUntil stop parts.recovery part a setting s = _ :=
        (turnUntil_of_not_stop hdone).trans (Keeps.resilient_eq hs.running_left)
      have hturn' : turnUntil stop parts.recovery part' a' setting' s' = _ :=
        (turnUntil_of_not_stop (hstopped ▸ hdone)).trans (Keeps.resilient_eq hs.running_right)
      generalize part a setting s = r at *
      generalize part' a' setting' s' = r' at *
      -- the repetition goes on where the turn has led
      have hnext {b b' : σ} {t t' : State} (hb : R b b')
          (ht : turnUntil stop parts.recovery part a setting s = .ok (true, b) t)
          (ht' : turnUntil stop parts.recovery part' a' setting' s' = .ok (true, b') t')
          (h : t.Paired p origin .unread none t' ∨ t.Gone p setting origin true .unread) :
          (loop (turnUntil stop parts.recovery part) a setting s).Paired p setting origin true
            .unread R (loop (turnUntil stop parts.recovery part') a' setting' s') := by
        rw [loop_eq hprogresses, loop_eq hprogresses', ht, ht']
        obtain h | hgone := h
        · exact ih _ (hn ▸ hprogresses _ _ _ _ _ ht) hb h rfl
        · exact .inl ((hloop b b' hb).gone hmended (Hand.knows_none _) hgone)
      cases hmet with
      | both h hb =>
        exact hnext hb hturn hturn'
          ((h.lift hspot hkept).reach _ _ fun h => absurd h.2 nofun)
      | @failed e e' after after' h he hstops =>
        have hkept' : after.Kept true (s.recover parts.recovery setting e after) :=
          (State.Kept.record setting e after).trans (Keeps.kept_recover ..)
        obtain hover | ⟨hnoted, hnoted', hrecovered⟩ :=
          hs'.recover parts hmendeds hend hsetting h hkept he hstops
        · left
          rw [loop_eq hprogresses, hturn]
          simp only [hover.halted, Bool.not_true]
          have hover : (s.recover parts.recovery setting e after).Over setting :=
            hover.kept (@Keeps.kept_recover true ..)
          exact .ok (.of_over hover)
        · simp only [hnoted, hnoted', Bool.not_false] at hturn hturn'
          refine hnext ha hturn hturn' (hrecovered.imp (·.lift hspot (hkept.trans hkept')) fun h => ?_)
          exact .of_passed (h.lift hspot) (.inr rfl)

end Parts

end ActorFrontend
