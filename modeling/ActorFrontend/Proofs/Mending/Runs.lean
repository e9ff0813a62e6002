import ActorFrontend.Proofs.Mending.Strings

/-!
# Readings around a missing semicolon

Readings that go alike answer alike where the second run has a semicolon that the first one lacks,
unless the first one mends nothing there.
-/

namespace ActorFrontend

open ActorFrontend.Parser

variable {α β σ : Type} {p : Nat} {origin : Spot} {setting setting' : Setting}
  {φ ψ χ : Footing} {hand : Hand} {loud inside : Bool} {s s' : State} {L : Comparison}
  {R : α → α → Prop} {q q' : Parser α}

/-! ## Tokens at hand -/

namespace State

/-- The string at hand is entered; the semicolon may be missing in it. -/
theorem Paired.enterString {fragments fragments' : List Fragment} (h : s.Paired p origin φ hand s')
    (hkind : s.kind = .interpolated fragments) (hkind' : s'.kind = .interpolated fragments') :
    ∃ within, Fragment.MendedAll p within fragments fragments' ∧
      s.advance.Paired p origin .behind none s'.advance ∧
      (within = true → s.advance.Within p origin s'.advance) := by
  obtain ⟨spot, hspot, hm⟩ := h.apart_or_gap.resolve_right fun h => by
    obtain ⟨_, h, _⟩ := h
    rw [hkind'] at h
    cases h
  have hend : s.atEnd = false := by
    refine Bool.eq_false_iff.2 fun hend => ?_
    rw [State.kind, List.isEmpty_iff.1 hend] at hkind
    cases hkind
  have hnext := h.advance_apart hspot hm hend
  have hfragments {within : Bool} {t t' : Token} (htoken : Token.Mended p within t t')
      (ht : t.kind = .interpolated fragments) (ht' : t'.kind = .interpolated fragments') :
      Fragment.MendedAll p within fragments fragments' := by
    cases htoken with
    | plain hstring => exact absurd ht (hstring _)
    | interpolated h h' _ hall =>
      cases h.symm.trans ht
      cases h'.symm.trans ht'
      exact hall
  have hadvance {t : State} {a : Lexeme} {rest : List Lexeme} (ht : t.rest = a :: rest) :
      t.advance = { t with rest, previousEnd := a.token.span.stop } := by
    rw [State.advance, ht]
  unfold State.kind at hkind hkind'
  cases hrest : s.rest with
  | nil => rw [State.atEnd, hrest] at hend; cases hend
  | cons a rest =>
    cases hrest' : s'.rest with
    | nil => rw [hrest'] at hkind'; cases hkind'
    | cons a' rest' =>
      rw [hrest] at hkind hm
      rw [hrest'] at hkind' hm
      cases hm with
      | cons _ htoken => exact ⟨false, hfragments htoken hkind hkind', hnext, fun h => by cases h⟩
      | last _ htoken => exact ⟨false, hfragments htoken hkind hkind', hnext, fun h => by cases h⟩
      | string _ htoken hbefore hstop hm =>
        obtain ⟨rfl, hno⟩ := hspot.of_ne_nowhere fun h => by cases h
        refine ⟨true, hfragments htoken hkind hkind', hnext, fun _ => ?_⟩
        rw [hadvance hrest, hadvance hrest']
        refine ⟨rfl, hno, hm, hstop, ?_⟩
        rw [htoken.span, Span.insertAt_stop fun hp => absurd hbefore (Nat.not_lt_of_le hp)]

/-- A unit stands directly behind an integer in both runs, or in none. -/
theorem attachedUnit?_mended {spot : Spot} (h : Lexeme.Mended p spot s.rest s'.rest)
    (hend : s.previousEnd ≠ p) (hend' : s'.previousEnd = movedEnd p s.previousEnd) :
    s'.attachedUnit? = s.attachedUnit? := by
  have hstart (span : Span) :
      (span.insertAt p).start = s'.previousEnd ↔ span.start = s.previousEnd := by
    rw [hend', Span.insertAt_start, movedEnd]
    split <;> split <;> omega
  have htoken {within : Bool} {a a' : Lexeme} {rest rest' : List Lexeme}
      (h : Token.Mended p within a.token a'.token) (hrest : s.rest = a :: rest)
      (hrest' : s'.rest = a' :: rest') : s'.attachedUnit? = s.attachedUnit? := by
    unfold attachedUnit?
    rw [hrest, hrest']
    cases h with
    | plain _ hkind _ hspan => simp only [hkind, hspan, hstart]
    | interpolated hkind hkind' => simp only [hkind, hkind']
  cases hrest : s.rest with
  | nil =>
    cases hrest' : s'.rest with
    | nil => rw [attachedUnit?, attachedUnit?, hrest, hrest']
    | cons => rw [hrest, hrest'] at h; cases h
  | cons a rest =>
    cases hrest' : s'.rest with
    | nil => rw [hrest, hrest'] at h; cases h
    | cons a' rest' =>
      rw [hrest, hrest'] at h
      cases h with
      | cons _ h => exact htoken h hrest hrest'
      | string _ h => exact htoken h hrest hrest'
      | last _ h => exact htoken h hrest hrest'

/-- There is a state with any token at hand that resembles the one that is, and otherwise the same. -/
theorem exists_resembling (h : s.kind.Resembles s'.kind) :
    ∃ t : State, t.kind = s'.kind ∧ Lexeme.Resembling s.rest t.rest ∧ s.context = t.context := by
  cases hrest : s.rest with
  | nil =>
    refine ⟨s, ?_, by rw [hrest]; exact .nil, rfl⟩
    have hkind : s.kind = .endOfFile := by rw [State.kind, hrest]
    rw [hkind] at h ⊢
    generalize s'.kind = k at h
    cases h
    rfl
  | cons a rest =>
    refine ⟨{ s with rest := { a with token := { a.token with kind := s'.kind } } :: rest }, rfl, ?_, rfl⟩
    rw [State.kind, hrest] at h
    exact .cons h (List.forall₂_same.2 fun _ _ => .same _)

end State

/-- A reading that has mistaken a lambda for something else mends nothing behind it. -/
theorem Reply.Slips.gone {behind : List Lexeme} {r : Reply α} (h : r.Slips behind s)
    (hs : s.Paired p (.before behind) φ hand s') (hφ : φ.stale = true)
    (hbehind : Avoiding p behind) (hno : NoMend p s.errors) (hχ : χ.blocked = true) :
    r.Gone p setting (.before behind) true χ := by
  obtain ⟨⟨k, hrest, hend⟩, hlt, htext, herrors, hhalted, hr⟩ := h
  have hstart : s.Paired p (.before behind) .unread none s' :=
    hs.forget.standing ⟨fun h => absurd h.2 nofun, fun h => absurd (h.2.symm.trans hφ) nofun⟩
      (Hand.holds_none _ _)
  have hlt' : behind.length < (s.skip k).rest.length := by rwa [State.rest_skip, ← hrest]
  have hplace : (s.skip k).previousEnd ≠ p := by
    obtain hskip | ⟨_, horigin, _, hsuffix, _⟩ := hstart.skip k
    · cases hskip.meet with
      | apart hspot hm hends =>
        cases hspot with
        | ahead => exact (hends nofun).1
        | passed h => exact absurd (h behind rfl).2 (Nat.not_le_of_lt hlt')
      | gap _ _ _ _ _ _ _ _ htight => exact absurd htight.2 nofun
    · cases horigin
      exact absurd hsuffix.length_le (Nat.not_le_of_lt hlt')
  have hhead : InHeadBefore p .statements r.state.rest :=
    ⟨behind, 0, htext, fun _ => rfl, hlt, hbehind⟩
  refine ⟨?_, fun _ => nofun, nofun⟩
  cases r with
  | ok a after =>
    exact .stuck (hhalted.trans hs.running_left) (herrors ▸ hno) (.inr hχ) hr.1 hr.2 (hend ▸ hplace) hhead
  | fail e after =>
    exact ⟨.inHead (hhalted.trans hs.running_left) (herrors ▸ hno) hhead, fun _ => hr⟩

namespace Parser

/-- Readings that go alike answer alike, or the first one mends nothing at `p`. -/
theorem Alike.paired (h : Alike L loud inside hand φ χ R q q') (hmended : L.mended = some p)
    (hsetting : setting.Paired p setting') (hs : s.Paired p origin φ hand s') :
    (q setting s).Paired p setting origin loud χ R (q' setting' s') := by
  have hne : L.mended ≠ none := by simp [hmended]
  have hspans : L.spans = false := L.unplaced hne
  induction h generalizing origin setting setting' s s' with
  | value ha => exact .inr (.both hs.forget ha)
  | bind hp hq ihp ihq =>
    exact (ihp hsetting hs).bind hp hq hmended fun a a' s s' ha hs => ihq a a' ha hsetting hs
  | @weaken _ loud loud' _ _ hand₀ hand φ₀ φ _ _ _ _ _ _ h hloud _ hhand hφ hχ hR ih =>
    obtain hs | hgone := hs.reach setting loud (Footing.tight_of_le hφ)
    · have hs : s.Paired p origin φ₀ hand₀ s' := by
        obtain rfl | rfl := hhand
        · exact hs.forget
        · exact hs
      exact (ih hsetting hs).weaken hloud hχ hR
    · have hhand : hand₀.Knows s.kind := by
        obtain rfl | rfl := hhand
        · exact Hand.knows_none _
        · exact fun k k' hk => (hs.hand k k' hk).1
      exact .inl ((h.gone hmended hhand hgone).weaken hloud hχ)
  | settle hnone => rw [hmended] at hnone; cases hnone
  | separator _ hended =>
    have hkind := (hs.hand _ _ rfl).1
    obtain hnext | ⟨-, hgone⟩ := hs.advance _ (by simp [hkind])
    · exact .both hnext trivial fun _ => ⟨rfl, rfl⟩
    · exact .inl (.ok (hgone setting _))
  | unblock hk _ ih => exact ih hsetting (hs.standing .rfl hs.hand)
  | place f hstale _ ih =>
    obtain ⟨_, _, hm⟩ := hs.apart (.inr (hstale hne))
    refine ih _ _ ⟨Likeness.sameSpan_of_not hspans _ _, fun p' hp => ?_⟩ hsetting hs
    obtain rfl : p = p' := Option.some.inj (hmended.symm.trans hp)
    exact hm.span_eq hsetting.endOfInput
  | @spanSince _ _ _ φ start start' h =>
    refine .inr (.both hs.forget
      ⟨Likeness.sameSpan_of_not hspans _ _, fun hended hstale hstarted => ?_⟩)
    refine ⟨Likeness.sameSpan_of_not hspans _ _, fun p' hp => ?_⟩
    obtain rfl : p = p' := Option.some.inj (hmended.symm.trans hp)
    rw [Span.insertAt_since, hstarted.2 p hmended, ← hs.previousEnd ⟨hended, hstale⟩]
  | freshId =>
    exact .inr (.both { hs with
      meet := hs.meet.congr rfl rfl rfl rfl rfl .rfl
      hand := Hand.holds_none _ _
      nextId := congrArg (· + 1) hs.nextId } (by rw [hs.nextId]; rfl))
  | text hk hsymbol hstring hended hstale _ ih =>
    obtain ⟨_, _, hm⟩ := hs.apart (.inr (hstale hne))
    obtain ⟨rfl, rfl⟩ := hs.hand _ _ rfl
    rw [query_bind, query_bind, hm.text_eq hstring]
    exact ih s.text hsetting hs
  | kind hended hq verdict hpasses htakes hends ih ihpasses ihtakes =>
    rw [kind_bind, kind_bind]
    obtain ⟨_, _, hm⟩ | ⟨hpassed, hkind, htight⟩ := hs.apart_or_gap
    · exact ih _ _ (.inr ⟨hne, hm.kind_resembles⟩) hsetting (hs.standing .rfl (Hand.holds_some _ _))
    have hgap : L.Gap _ := ⟨hne, htight.2⟩
    cases hverdict : verdict s.kind with
    | passes =>
      rw [hkind]
      exact ihpasses hgap s.kind hverdict hsetting (hs.standing .rfl (hkind ▸ Hand.holds_some _ _))
    | takes =>
      exact .inl ((htakes hgap s.kind hverdict).gone hmended (Hand.knows_some _ _)
        (.of_passed hpassed (.inr rfl)))
    | ends =>
      obtain ⟨hχ, a, ha⟩ := hends hgap s.kind hverdict
      rw [ha]
      exact .inl (.ok (.of_passed hpassed (.inl hχ)))
  | @look _ _ loud _ φ χ R f q q' known hended hstable hq hknown hsteady hahead verdict hpasses htakes
      hends ih ihpasses ihtakes =>
    rw [query_bind, query_bind]
    have hhand (t : State) (ht : t.kind = s'.kind) :
        Hand.Holds (some (known.elim (s.kind, t.kind) fun k => (k, k))) s.kind s'.kind := by
      cases known with
      | none => exact ht ▸ Hand.holds_some _ _
      | some k => exact hs.hand
    have hknown' : ∀ k ∈ known, s.kind = k := by
      rintro k hk
      obtain rfl : known = some k := hk
      exact (hs.hand _ _ rfl).1
    obtain ⟨spot, hspot, hm⟩ | ⟨hpassed, hkind, htight⟩ := hs.apart_or_gap
    · have hsame (heq : f s = f s') :
          (q (f s) setting s).Paired p setting origin loud χ R (q' (f s') setting' s') := by
        rw [← heq]
        exact ih s s' (.inr ⟨hne, hm.kind_resembles⟩) heq hsetting (hs.standing .rfl (hhand s' rfl))
      cases spot with
      | nowhere => exact hsame (hsteady hne s s' (hm.resembling rfl) hs.context)
      | within => exact hsame (hsteady hne s s' (hm.resembling rfl) hs.context)
      | before behind =>
        obtain heq | hdeflected := hahead hne behind setting setting' s s' hm.gapped.1 hm.gapped.2
          hs.context hknown'
        · exact hsame heq
        -- the second run, were it told the same
        obtain ⟨t, htkind, ht, hcontext⟩ := State.exists_resembling hm.kind_resembles
        have heq := hsteady hne s t ht hcontext
        obtain ⟨rfl, hno⟩ := hspot.of_ne_nowhere nofun
        have hreply := ih s t (.inr ⟨hne, htkind ▸ hm.kind_resembles⟩) heq hsetting
          (hs.standing .rfl (hhand t htkind))
        obtain ⟨e, after, hfail, hlength⟩ | ⟨hpast, herrors⟩ | hsame := hdeflected
        · rw [hfail] at hreply
          refine .inl (hreply.resolve_right fun hmet => ?_)
          generalize q (f s) setting s = r at hmet
          cases hmet with
          | failed h => exact h.length_ne (.inr rfl) hlength
        · refine .inl (hreply.resolve_right fun hmet => ?_)
          rw [← herrors] at hno
          generalize q (f s) setting s = r at *
          generalize q' (f s) setting' s' = r' at *
          cases hmet with
          | both h => exact Nat.not_le_of_lt (h.length_lt hno) hpast
          | failed h => exact Nat.not_le_of_lt (h.length_lt hno) hpast
        · rwa [hsame] at hreply
    · obtain rfl : known = none := by
        cases known with
        | none => rfl
        | some k =>
          obtain rfl : k = .symbol .semicolon := (hs.hand _ _ rfl).2.symm.trans hkind
          exact absurd rfl (hknown _ rfl)
      have hgap : L.Gap φ := ⟨hne, htight.2⟩
      cases hverdict : verdict s with
      | passes =>
        exact ihpasses hgap rfl s s' hkind hs.context hverdict hsetting
          (hs.standing .rfl (hkind ▸ Hand.holds_some _ _))
      | takes =>
        exact .inl ((htakes hgap rfl s hverdict).gone hmended (Hand.knows_some _ _)
          (.of_passed hpassed (.inr rfl)))
      | ends =>
        obtain ⟨hχ, a, ha⟩ := hends hgap rfl s hverdict
        rw [ha]
        exact .inl (.ok (.of_passed hpassed (.inl hχ)))
  | advance hk hended harrow =>
    have hkind := (hs.hand _ _ rfl).1
    obtain hnext | ⟨-, hgone⟩ := hs.advance _ (hkind ▸ hk)
    · exact .both hnext trivial fun _ => ⟨rfl, rfl⟩
    · exact .inl (.ok (hgone setting _))
  | enter hk hended h ih =>
    rw [advance_bind, advance_bind]
    have hkind := (hs.hand _ _ rfl).1
    obtain hnext | ⟨-, hgone⟩ := hs.advance _ (hkind ▸ ne_endOfFile_of_opens hk)
    · exact ih hsetting hnext
    · exact .inl (h.gone hmended (Hand.knows_none _) (hgone setting _))
  | @fails _ _ _ _ _ _ _ e e' hended _ hstops hmoved =>
    obtain ⟨_, _, hm⟩ | ⟨hpassed, -, -⟩ := hs.apart_or_gap
    · exact .failed hs (hmoved p hmended setting setting' s s' hsetting.limits hm.kind_resembles
        (hm.span_eq hsetting.endOfInput)) (hstops _ _)
    · exact .inl (.failed (φ := .unread) (.of_passed hpassed (.inr rfl)) (hstops _ _))
  | refused hlax => exact absurd ((L.level (by simp [hmended])).symm.trans hlax) Bool.false_ne_true
  | semicolon hended hstale => exact .semicolon hsetting hs ⟨hended, hstale⟩
  | @duplicate _ _ clause span span' hplaced =>
    have hmoved : ParseError.Moved p ⟨.duplicate clause, span⟩ ⟨.duplicate clause, span'⟩ :=
      ⟨hplaced.2 p hmended, rfl, rfl, rfl, rfl⟩
    obtain hs | hover := hs.record hsetting hmoved fun ⟨⟨_, hcause⟩, _⟩ => nomatch hcause
    · exact .inr (.both hs.forget trivial)
    · exact .inl (.ok (.of_over hover))
  | @inContext _ _ _ _ _ χ₀ _ R q q' f hf h ih =>
    have hinner : (q setting { s with context := f s.context }).Paired p setting origin _ χ₀ R
        (q' setting' { s' with context := f s'.context }) :=
      ih hsetting { hs with
        meet := hs.meet.congr rfl rfl rfl rfl rfl .rfl, context := congrArg f hs.context }
    have hkept := h.keepAlike.left setting { s with context := f s.context }
    refine hinner.mapState (fun hgone => ?_) (fun t t' _ _ h => ?_) fun t t' _ _ h => ?_
    · refine ⟨hgone.strays.leave hf hkept.context, ?_, ?_⟩
      · rw [Reply.state_mapState]
        exact hgone.placed
      · rw [Reply.state_mapState]
        exact hgone.silent
    · refine { h with meet := h.meet.congr rfl rfl rfl rfl rfl ?_, context := hs.context }
      unfold Footing.Tight
      rw [hf.ended_eq, hf.stale_eq]
    · exact { h with meet := h.meet.congr rfl rfl rfl rfl rfl .rfl, context := hs.context }
  | @nested _ _ _ _ _ χ R q q' hended h ih =>
    unfold Parser.nested
    rw [← hsetting.limits, ← hs.depth]
    split
    case isTrue =>
      obtain ⟨_, _, hm⟩ | ⟨hpassed, -, -⟩ := hs.apart_or_gap
      · have hmoved : ParseError.Moved p ⟨.tooDeep setting.limits.maxDepth, s.span setting⟩
            ⟨.tooDeep setting'.limits.maxDepth, s'.span setting'⟩ := by
          rw [← hsetting.limits]
          exact ⟨hm.span_eq hsetting.endOfInput, rfl, rfl, rfl, rfl⟩
        exact .failed hs hmoved rfl
      · exact .inl (.failed (φ := .unread) (.of_passed hpassed (.inr rfl)) rfl)
    case isFalse =>
      have hinner : (q setting { s with depth := s.depth + 1 }).Paired p setting origin _ χ R
          (q' setting' { s' with depth := s.depth + 1 }) :=
        ih hsetting { hs with meet := hs.meet.congr rfl rfl rfl rfl rfl .rfl, depth := rfl }
      have hdepth {t t' : State} (h : t.depth = t'.depth) : t.depth - 1 = t'.depth - 1 := by rw [h]
      refine hinner.mapState (fun hgone => ?_) (fun t t' _ _ h => ?_) fun t t' _ _ h => ?_
      · refine ⟨hgone.strays.rise, ?_, ?_⟩
        · rw [Reply.state_mapState]
          exact hgone.placed
        · rw [Reply.state_mapState]
          exact hgone.silent
      · exact { h with meet := h.meet.congr rfl rfl rfl rfl rfl .rfl, depth := hdepth h.depth }
      · exact { h with meet := h.meet.congr rfl rfl rfl rfl rfl .rfl, depth := hdepth h.depth }
  | @loop _ _ _ _ φ R step step' a a' hended hprogresses hprogresses' hstep ha ih =>
    have hloop (b b' : _) (hb : R b b') : Alike L _ _ none φ φ R (Parser.loop step b)
        (Parser.loop step' b') := .loop hended hprogresses hprogresses' hstep hb
    replace hs := hs.forget
    induction hn : s.rest.length using Nat.strongRecOn generalizing a a' s s' with
    | ind n ihn =>
      have hturn := ih a a' ha hsetting hs
      rw [loop_eq hprogresses, loop_eq hprogresses']
      obtain hgone | hmet := hturn
      · left
        cases hreply : step a setting s with
        | fail e after =>
          rw [hreply] at hgone
          exact ⟨hgone.strays, hgone.placed, hgone.silent⟩
        | ok r after =>
          obtain ⟨again, b⟩ := r
          rw [hreply] at hgone
          cases again with
          | false => exact .ok hgone.state
          | true =>
            obtain ⟨r', -, hb⟩ := (hstep a a' ha).keepAlike.answer _ ⟨setting, s, after, hreply⟩
            exact (hloop b r'.2 hb).gone hmended (Hand.knows_none _) hgone.state
      · generalize hreply : step a setting s = r at hmet
        generalize hreply' : step' a' setting' s' = r' at hmet
        cases hmet with
        | @both r r' after after' hafter hr =>
          obtain ⟨again, b⟩ := r
          obtain ⟨again', b'⟩ := r'
          obtain ⟨hagain, hb⟩ := hr
          obtain rfl : again = again' := hagain
          cases again with
          | false => exact .inr (.both hafter hb)
          | true => exact ihn _ (hn ▸ hprogresses _ _ _ _ _ hreply) hb hafter rfl
        | failed hafter he hstops => exact .inr (.failed hafter he hstops)
  | resilient _ hnone => rw [hmended] at hnone; cases hnone
  | @parts _ _ φ _ R part part' a a' parts stop _ hstop hprogresses hprogresses' hbreaks h ha ih =>
    obtain hs | hgone := hs.forget.reach (ψ := .unread) setting true
      fun hψ => absurd hψ.2 nofun
    · exact .readParts hstop hprogresses hprogresses' hbreaks h hmended hsetting
        (fun origin a a' s s' ha hs => ih a a' ha hsetting hs) ha hs
    · exact .inl ((Alike.parts (φ := .unread) parts stop hne hstop hprogresses hprogresses' hbreaks h
        ha).gone hmended (Hand.knows_none _) hgone)
  | @guess _ _ _ _ _ φ ψ _ R _ q q' _ _ r _ hk hended hχ hp hq hr _ hstale hquiet hlapse ihp ihq ihr =>
    obtain ⟨spot, hspot, hm, hs'⟩ := hs.rebase (.inr (hstale hne))
    obtain ⟨hkind, hkind'⟩ := hs.hand _ _ rfl
    have hother := ihr hsetting hs
    unfold Parser.guess
    rw [query_bind, query_bind, ← hs.context]
    split
    case isFalse => exact hother
    case isTrue hlambdas =>
      have hkept := hp.keepAlike.left setting s
      have htrial : (q setting s).Paired p setting spot false ψ R (q' setting' s') :=
        ihp hsetting hs'
      cases hreply : q setting s with
      | ok a after =>
        rw [hreply] at htrial hkept
        rw [bind_ok (Keeps.attempt_of_ok hreply)]
        obtain hgone | hmet := htrial
        · obtain ⟨a', ha⟩ := hp.keepAlike.answer a ⟨setting, s, after, hreply⟩
          exact .inl ((hq a a' ha).gone hmended (Hand.knows_none _)
            ((hgone.lift hspot).weaken nofun (Footing.le_refl _)).state)
        · generalize hreply' : q' setting' s' = r' at hmet
          cases hmet with
          | both hafter ha =>
            rw [bind_ok (Keeps.attempt_of_ok hreply')]
            exact ihq _ _ ha hsetting (hafter.lift hspot hkept)
      | fail e after =>
        rw [bind_ok (Keeps.attempt_of_fail hp.keepAlike.left hreply)]
        cases hreply' : q' setting' s' with
        | fail e' after' =>
          have hquiet := hquiet hne setting' s'
          rw [hreply'] at hquiet
          rw [bind_ok (Keeps.attempt_of_quiet hreply' hquiet.1 hquiet.2)]
          exact hother
        | ok a' after' =>
          -- only the second trial succeeds
          rw [hreply, hreply'] at htrial
          have hgone := htrial.resolve_right nofun
          obtain ⟨behind, rfl, hle⟩ := hgone.silent rfl
          have hslips := hlapse hne behind setting setting' s s' e after a' after' hkind hkind'
            hm.gapped.1 hm.gapped.2 hs.context hlambdas hreply hle hreply'
          obtain ⟨-, hno⟩ := hspot.of_ne_nowhere nofun
          exact .inl ((hslips.gone hs' (hstale hne) hm.avoiding_behind hno hχ).lift hspot)
  | splice hnone => rw [hmended] at hnone; cases hnone
  | interpolated _ hended h ih =>
    obtain ⟨hkind, hkind'⟩ := hs.hand _ _ rfl
    obtain ⟨within, hfragments, hnext, hwithin⟩ := hs.enterString hkind hkind'
    unfold Parser.interpolatedString
    rw [advance_bind, advance_bind]
    exact (Reply.Paired.stringParts h hmended (fun hsetting hs => ih hsetting hs) hfragments hsetting
      hnext hwithin).map fun parts parts' hparts => by simp_all
  | unit hended hsome hnone ihsome ihnone =>
    have hkind := (hs.hand _ _ rfl).1
    rw [advance_bind, advance_bind, bind_ok (durationUnit?_eq ..), bind_ok (durationUnit?_eq ..)]
    obtain hnext | ⟨-, hgone⟩ := hs.advance _ (by simp [hkind])
    · cases hnext.meet with
      | apart hspot hm hend =>
        obtain ⟨hend, hend'⟩ := hend fun _ => ⟨rfl, rfl⟩
        rw [State.attachedUnit?_mended hm hend hend']
        cases hunit : s.advance.attachedUnit? with
        | none => exact ihnone hsetting (hnext.standing .rfl (Hand.holds_none _ _))
        | some unit =>
          obtain ⟨suffix, hkind⟩ := State.kind_of_attachedUnit? hunit
          have hkind' : s'.advance.kind = .ident suffix :=
            hm.kind_resembles.eq_of_left hkind nofun
          refine ihsome unit suffix hsetting { hnext with
            meet := .apart hspot hm fun _ => ⟨hend, hend'⟩
            hand := ?_ }
          rw [hkind, hkind']
          exact Hand.holds_some _ _
      | gap horigin hrest hsemicolon _ hm hno =>
        have hnone' : s'.advance.attachedUnit? = none := by
          rw [State.attachedUnit?, hrest]
          simp only [hsemicolon]
        rw [hnone']
        cases hunit : s.advance.attachedUnit? with
        | none => exact ihnone hsetting (hnext.standing .rfl (Hand.holds_none _ _))
        | some unit =>
          -- the unit would not follow the integer directly in the second run
          obtain ⟨suffix, hkind⟩ := State.kind_of_attachedUnit? hunit
          exact .inl ((hsome unit suffix).gone hmended (fun _ _ h => by cases h; exact hkind)
            (.of_passed ⟨_, horigin, hm.avoiding, List.suffix_rfl, hno, hnext.running_left⟩
              (.inr rfl)))
    · left
      cases hunit : s.advance.attachedUnit? with
      | none => exact hnone.gone hmended (Hand.knows_none _) (hgone setting _)
      | some unit =>
        obtain ⟨suffix, hkind⟩ := State.kind_of_attachedUnit? hunit
        exact (hsome unit suffix).gone hmended (fun _ _ h => by cases h; exact hkind) (hgone setting _)

end Parser

end ActorFrontend
