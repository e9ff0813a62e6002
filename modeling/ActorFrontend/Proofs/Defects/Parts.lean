import ActorFrontend.Proofs.Alike.Items
import ActorFrontend.Proofs.Defects.Resume

/-!
# Parts read one after another

A block and a program read their parts one after another until nothing more belongs to them.  Where
the parts before some place are read without an error, what follows that place has no bearing on them;
and a part that fails is left out at the cost of its error.
-/

namespace ActorFrontend

open ActorFrontend.Parser

variable {α σ : Type} {L : Likeness} {cut : Cut} {χ : Footing} {setting setting' : Setting}
  {s s' after : State} {stop : State → Bool} {recovery : Recovery} {part part' : σ → Parser σ}
  {R : σ → σ → Prop} {a a' b : σ}

/-- The cut has not been reached where tokens before it are left. -/
theorem Lexeme.AlikeUpTo.length_lt {ts ts' : List Lexeme} (hcut : cut.symbol? ≠ none)
    (h : Lexeme.AlikeUpTo L cut ts ts') : cut.left.length < ts.length := by
  induction ts generalizing ts' with
  | nil =>
    cases h
    exact absurd rfl hcut
  | cons lexeme ts ih =>
    cases h with
    | last => exact Nat.lt_succ_self _
    | cons _ _ _ _ h => exact Nat.lt_succ_of_lt (ih h)

/-- Two runs over the tokens before a cut meet if there are none, or if the last one is the one that is
counted as the end. -/
theorem State.meet_of_getLast {symbol : Symbol} (hcut : cut.symbol? = some symbol)
    (hended : χ.ended = true) {ts : List Lexeme}
    (hlast : ∀ last ∈ ts.getLast?, last.token.kind = .symbol symbol)
    (hrest : s.rest = ts ++ cut.left) (hrest' : s'.rest = ts ++ cut.right) :
    State.Meet L cut χ none s s' := by
  obtain rfl | ⟨front, last, rfl⟩ := ts.eq_nil_or_concat
  · exact .behind (by simp [hcut]) hrest hrest' (fun _ => hended) rfl
  · have hkind := hlast last (by simp)
    refine .before ?_ (Hand.holds_none _ _)
    rw [hrest, hrest', List.concat_eq_append, List.append_assoc, List.append_assoc]
    exact .append hcut hkind front

/-- A first run that has found nothing wrong and does not stop before an arrow has not gone astray where
the inputs are the same up to the end. -/
theorem Reply.Together.of_quiet {errors : List ParseError} {T : α → α → Prop} {c : α} {r' : Reply α}
    (h : (Reply.ok c s).Together L .none setting setting' errors χ T r') (hquiet : ¬ s.Noted)
    (harrow : s.kind.isArrow = false) :
    ∃ c' s', r' = .ok c' s' ∧ s.Together L .none setting setting' errors χ none s' ∧ T c c' := by
  cases h with
  | astray h =>
    cases h with
    | noted h => exact absurd h hquiet
    | stuck _ h => exact absurd (harrow.symm.trans h) Bool.false_ne_true
    | beyond h => exact absurd h (Nat.not_lt_zero _)
    | behind hcut => exact absurd rfl hcut
  | both h hc => exact ⟨_, _, rfl, h, hc⟩

namespace Parser

/-- A part that fails is left out, and its error is recorded. -/
theorem loop_of_fail (hprogresses : Progresses (turnUntil stop recovery part)) {e : ParseError}
    (hstop : stop s = false) (hrunning : s.halted = false) (hreply : part a setting s = .fail e after)
    (hrun : (after.record setting e).halted = false) :
    loop (turnUntil stop recovery part) a setting s =
      loop (turnUntil stop recovery part) a setting (s.recover recovery setting e after) := by
  rw [loop_eq hprogresses, turnUntil_of_not_stop hstop, Keeps.resilient_eq hrunning, hreply]
  simp only [hrun, Bool.not_false]

/-- Two repetitions that read parts which go alike. -/
structure TurnAlike (L : Likeness) (stop : State → Bool) (recovery : Recovery) (χ : Footing)
    (R : σ → σ → Prop) (part part' : σ → Parser σ) : Prop where
  progresses : Progresses (turnUntil stop recovery part)
  progresses' : Progresses (turnUntil stop recovery part')
  part : ∀ a a', R a a' → Alike L true true none .unread χ R (part a) (part' a')
  stop_eq : ∀ cut s s', Lexeme.AlikeUpTo L cut s.rest s'.rest → stop s = stop s'

namespace TurnAlike

theorem alike_loop (h : TurnAlike L stop recovery χ R part part') (ha : R a a') :
    Alike L true true none .unread .unread R (loop (turnUntil stop recovery part) a)
      (loop (turnUntil stop recovery part') a') := by
  refine .loop rfl h.progresses h.progresses' (fun a a' ha => ?_) ha
  have hturn (s s' : State) : Alike L true true (some (s.kind, s'.kind)) Footing.unread.look .unread
      (fun r r' => r.1 = r'.1 ∧ R r.2 r'.2)
      (if stop s then pure (false, a) else resilient recovery part a)
      (if stop s then pure (false, a') else resilient recovery part' a') := by
    split
    · exact .value ⟨rfl, ha⟩
    · exact Alike.forget (.settled rfl (.resilient recovery rfl ha (h.part a a' ha)))
  exact .forget (.look none rfl (fun cut s s' halike _ _ => .inl (h.stop_eq cut s s' halike))
    (fun s s' _ _ => hturn s s') nofun (absurd rfl) (absurd rfl) (fun _ => .takes)
    (fun hgap => absurd rfl hgap.1) (fun hgap => absurd rfl hgap.1) fun hgap => absurd rfl hgap.1)

/-- A repetition whose first run has gone astray behind a part stays astray. -/
theorem astray (h : TurnAlike L stop recovery χ R part part') (ha : R a a') (hs : s.Astray cut χ) :
    (loop (turnUntil stop recovery part) a setting s).Astray cut χ := by
  have hloop : (loop (turnUntil stop recovery part) a setting s).Ends
      (fun a s => (∃ a', R a a') ∧ s.Astray cut χ) fun _ => True := by
    refine ends_loop _ (fun a s ⟨⟨a', ha⟩, hs⟩ => ?_) ⟨⟨a', ha⟩, hs⟩
    cases hstop : stop s with
    | true =>
      rw [turnUntil_of_stop hstop]
      exact ⟨⟨a', ha⟩, hs⟩
    | false =>
      rw [turnUntil_of_not_stop hstop]
      have halike := h.part a a' ha
      have hpart : (part a setting s).Astray cut χ :=
        halike.astray (Hand.knows_none _) (hs.settle.le (Footing.settle_le χ))
      cases hhalted : s.halted with
      | true =>
        unfold resilient
        rw [hhalted]
        exact ⟨⟨a', ha⟩, .noted ((State.Noted.kept (.inr hhalted) (@State.Kept.skip true ..)))⟩
      | false =>
        rw [Keeps.resilient_eq hhalted]
        cases hreply : part a setting s with
        | ok b after =>
          rw [hreply] at hpart
          exact ⟨halike.keepAlike.answer b ⟨setting, s, after, hreply⟩, hpart⟩
        | fail e after =>
          exact ⟨⟨a', ha⟩, .noted ((State.noted_record ..).kept (@Keeps.kept_recover true ..))⟩
  exact hloop.imp (fun _ _ h => h.2) fun _ h => h

/-- A repetition that ends directly at the cut, without an error: the second run gets to the cut with
the same parts, whatever follows there. -/
theorem until_cut (h : TurnAlike L stop recovery χ R part part')
    (hsetting : setting.Comparable L cut setting') (hcut : cut.symbol? ≠ none)
    (hstop : ∀ s, s.rest = cut.left → stop s = true ∧ s.kind.isArrow = false)
    (hstale : χ.stale = false) (hlooked : cut.symbol? = some .rightBrace → χ.looked = false)
    (hreply : loop (turnUntil stop recovery part) a setting s = .ok b after) (hquiet : ¬ after.Noted)
    (hend : after.rest = cut.left) (ha : R a a')
    (hs : s.Together L cut setting setting' [] χ none s') :
    ∃ b' t', R b b' ∧ s'.Kept true t' ∧ t'.rest = cut.right ∧ t'.errors = [] ∧ t'.halted = false ∧
      loop (turnUntil stop recovery part') a' setting' s' =
        loop (turnUntil stop recovery part') b' setting' t' := by
  have hnowhere : ¬ after.Astray cut χ := by
    intro hastray
    cases hastray with
    | noted h => exact hquiet h
    | stuck _ harrow => exact absurd ((hstop after hend).2.symm.trans harrow) Bool.false_ne_true
    | beyond h =>
      rw [hend] at h
      exact Nat.lt_irrefl _ h
    | behind _ _ hsemicolon hbrace =>
      cases cut with
      | none => exact hcut rfl
      | semicolon => exact absurd (hstale.symm.trans (hsemicolon rfl)) Bool.false_ne_true
      | brace => exact absurd ((hlooked rfl).symm.trans (hbrace rfl)) Bool.false_ne_true
  have hrun (n : Nat) : ∀ {a a' s s'}, s.rest.length < n →
      loop (turnUntil stop recovery part) a setting s = .ok b after → R a a' →
      s.Together L cut setting setting' [] χ none s' →
      ∃ b' t', R b b' ∧ s'.Kept true t' ∧ t'.rest = cut.right ∧ t'.errors = [] ∧
        t'.halted = false ∧ loop (turnUntil stop recovery part') a' setting' s' =
          loop (turnUntil stop recovery part') b' setting' t' := by
    induction n with
    | zero => exact fun hlt => absurd hlt (Nat.not_lt_zero _)
    | succ n ih =>
      intro a a' s s' hlt hreply ha hs
      cases hs.meet with
      | behind _ hrest hrest' =>
        rw [loop_of_stop (hstop s hrest).1] at hreply
        obtain ⟨rfl, rfl⟩ := Reply.ok.inj hreply
        exact ⟨a', s', ha, .refl s', hrest', hs.errors_right, hs.running_right, rfl⟩
      | before halike hhand =>
        have hgo : stop s = false := by
          rw [← Bool.not_eq_true]
          intro htrue
          rw [loop_of_stop htrue] at hreply
          obtain ⟨rfl, rfl⟩ := Reply.ok.inj hreply
          exact absurd (halike.length_lt hcut) (by rw [hend]; exact Nat.lt_irrefl _)
        have hgo' : stop s' = false := (h.stop_eq _ _ _ halike).symm.trans hgo
        have hmeet : State.Meet L cut .unread none s s' := .before halike hhand
        have hpart := (h.part a a' ha).together hsetting (hs.standing hmeet)
        rw [loop_eq h.progresses, turnUntil_of_not_stop hgo, Keeps.resilient_eq hs.running_left]
          at hreply
        rw [loop_eq h.progresses', turnUntil_of_not_stop hgo', Keeps.resilient_eq hs.running_right]
        cases hstep : part a setting s with
        | fail e s₁ =>
          have hnoted : (s.recover recovery setting e s₁).Noted :=
            (State.noted_record ..).kept (@Keeps.kept_recover true ..)
          rw [hstep] at hreply
          cases hhalted : (s₁.record setting e).halted with
          | true =>
            simp only [hhalted, Bool.not_true] at hreply
            obtain ⟨-, rfl⟩ := Reply.ok.inj hreply
            exact absurd hnoted hquiet
          | false =>
            simp only [hhalted, Bool.not_false] at hreply
            have hlater : (loop (turnUntil stop recovery part) a setting _).Astray cut χ :=
              h.astray ha (.noted hnoted)
            rw [hreply] at hlater
            exact absurd hlater hnowhere
        | ok b₁ s₁ =>
          rw [hstep] at hreply hpart
          generalize hstep' : part' a' setting' s' = r' at hpart
          cases hpart with
          | astray hastray =>
            obtain ⟨b', hb⟩ := (h.part a a' ha).keepAlike.answer b₁ ⟨setting, s, s₁, hstep⟩
            have hlater : (loop (turnUntil stop recovery part) b₁ setting s₁).Astray cut χ :=
              h.astray hb hastray
            rw [show loop _ b₁ setting s₁ = _ from hreply] at hlater
            exact absurd hlater hnowhere
          | both hs₁ hb =>
            have hlt₁ : s₁.rest.length < s.rest.length := by
              refine h.progresses setting s a b₁ s₁ ?_
              rw [turnUntil_of_not_stop hgo, Keeps.resilient_eq hs.running_left, hstep]
            have hkept := (h.part a a' ha).keepAlike.right rfl setting' s'
            rw [hstep'] at hkept
            obtain ⟨b', t', hb, hlater, hrest⟩ := ih (by omega) hreply hb hs₁
            exact ⟨b', t', hb, hkept.trans hlater, hrest⟩
  exact hrun _ (Nat.lt_succ_self _) hreply ha hs

end TurnAlike

/-! ## A defect between parts -/

/-- A run of tokens in which a part goes wrong without consequences: it is flat, and of its tokens only
the first one may be a keyword that a part starts with. -/
structure Defect (starts : Keyword → Bool) (ts : List Lexeme) : Prop where
  ne_nil : ts ≠ []
  flat : Flat ts
  unkeyed : Unkeyed starts ts.tail

variable {starts : Keyword → Bool} {semi : Lexeme} {ts rest : List Lexeme} {e : ParseError}

theorem Defect.kind_flat (h : Defect starts ts) (hrest : s.rest = ts ++ rest) :
    s.kind.isFlat = true ∧ s.atEnd = false := by
  rw [State.kind, State.atEnd, hrest]
  cases ts with
  | nil => exact absurd rfl h.ne_nil
  | cons lexeme ts => exact ⟨h.flat.head, rfl⟩

/-- Where a part has failed in a defect, no keyword is left that a part starts with. -/
theorem Defect.exists_left (h : Defect starts ts) (hrest : s.rest = ts ++ semi :: rest)
    (hsuffix : after.rest <:+ s.rest) (hbefore : rest.length < after.rest.length)
    (htaken : ∀ k, starts k = true → s.kind = .keyword k → after.rest <:+ s.advance.rest) :
    ∃ left, after.rest = left ++ semi :: rest ∧ Flat left ∧ Unkeyed starts left := by
  obtain ⟨front, hfront⟩ := hsuffix
  rw [hrest] at hfront
  obtain ⟨left, hts, hleft⟩ | ⟨more, -, hmore⟩ := List.append_eq_append_iff.1 hfront
  · refine ⟨left, hleft, fun l hl => h.flat l (hts ▸ List.mem_append_right _ hl), ?_⟩
    cases front with
    | cons lexeme front =>
      intro l hl
      exact h.unkeyed l (by rw [hts]; exact List.mem_append_right _ hl)
    | nil =>
      obtain rfl : ts = left := hts
      cases ts with
      | nil => simp [Unkeyed]
      | cons lexeme ts =>
        have hkind : s.kind = lexeme.token.kind := by
          rw [State.kind, hrest]
          rfl
        intro l hl k hk
        obtain rfl | hl := List.mem_cons.1 hl
        · rw [← Bool.not_eq_true]
          intro hstarts
          -- the keyword has been passed over
          have hlength := (htaken k hstarts (hkind.trans hk)).length_le
          rw [State.rest_advance, hleft, hrest] at hlength
          simp only [List.cons_append, List.drop_succ_cons, List.drop_zero, List.length_cons] at hlength
          omega
        · exact h.unkeyed l hl k hk
  · cases more with
    | nil => exact ⟨[], hmore.symm, by simp [Flat], by simp [Unkeyed]⟩
    | cons lexeme more =>
      obtain ⟨-, hmore⟩ := List.cons.inj hmore
      rw [show rest = more ++ after.rest from hmore, List.length_append] at hbefore
      omega

/-- The parser fails before the semicolon behind a defect.  It has recorded nothing, and has passed over
the token at hand if that is a keyword that a part starts with. -/
def FailsWithin (p : Parser α) (starts : Keyword → Bool) (rest : List Lexeme) (setting : Setting)
    (s : State) : Prop :=
  ∃ e after, p setting s = .fail e after ∧ after.errors = [] ∧ rest.length < after.rest.length ∧
    ∀ k, starts k = true → s.kind = .keyword k → after.rest <:+ s.advance.rest

theorem FailsWithin.congr {p p' : Parser α} (h : p'.FailsWithin starts rest setting s)
    (hsame : p setting s = p' setting s) : p.FailsWithin starts rest setting s := by
  unfold FailsWithin at h ⊢
  rwa [hsame]

theorem FailsWithin.bind {p : Parser α} {q : α → Parser β} (h : p.FailsWithin starts rest setting s) :
    (p >>= q).FailsWithin starts rest setting s := by
  obtain ⟨e, after, hreply, hafter⟩ := h
  refine ⟨e, after, ?_, hafter⟩
  change Parser.bind p q setting s = _
  rw [Parser.bind, hreply]

/-- What fails on a defect and the semicolon behind it fails there whatever follows, also with fewer
levels left. -/
theorem Alike.failsWithin {p p' : Parser α} {T : α → α → Prop}
    (h : Alike L true false none .unread χ T p p') (hspans : L.spans = false) (hids : L.ids = false)
    (hdefect : Defect starts ts) (hsemi : semi.token.kind = .symbol .semicolon)
    {e' : ParseError} {after' : State}
    (hreply : p' setting' (.initial setting' (ts ++ [semi])) = .fail e' after')
    (hlevels : setting.limits.maxDepth ≤ setting'.limits.maxDepth + s.depth)
    (hrest : s.rest = ts ++ semi :: rest) (hcontext : s.context = .anything) (herrors : s.errors = [])
    (htaken : ∀ k, starts k = true → s.kind = .keyword k → p.Overlooks setting s) :
    p.FailsWithin starts rest setting s := by
  have habreast : s.Abreast semi rest [] setting setting' [] (.initial setting' (ts ++ [semi])) :=
    ⟨⟨ts, hdefect.flat, hrest, rfl⟩, hcontext, hlevels, herrors⟩
  obtain ⟨e, after, hfail, hsilent, hbefore⟩ := h.fails_left hspans hids hsemi habreast hreply
  refine ⟨e, after, hfail, hsilent, hbefore, fun k hk hkind => ?_⟩
  have hsuffix := (htaken k hk hkind).rest_suffix h.keepAlike.left (by simp [hkind])
  rwa [hfail] at hsuffix

/-- A part that fails in a defect costs one error, and the next part is looked for directly behind the
semicolon that closes the defect. -/
theorem loop_defect (hprogresses : Progresses (turnUntil stop recovery part)) (hkeeps : (part a).Keeps true)
    (hresumes : ResumesBehind starts recovery) (hdefect : Defect starts ts)
    (hsemi : semi.token.kind = .symbol .semicolon) (hlimit : 1 < setting.limits.maxErrors)
    (hrest : s.rest = ts ++ semi :: rest) (herrors : s.errors = []) (hrunning : s.halted = false)
    (hstop : stop s = false) (hfails : (part a).FailsWithin starts rest setting s) :
    ∃ e u, u.rest = rest ∧ u.errors = [e] ∧ u.halted = false ∧ u.context = s.context ∧
      u.depth = s.depth ∧
      loop (turnUntil stop recovery part) a setting s =
        loop (turnUntil stop recovery part) a setting u := by
  obtain ⟨e, after, hreply, hsilent, hbefore, htaken⟩ := hfails
  have hkept : s.Kept true after := by
    have hkept := hkeeps setting s
    rwa [hreply] at hkept
  have hnoted : (after.record setting e).errors = [e] ∧ (after.record setting e).halted = false := by
    have hhalted := (hkept.unspent (hsilent.trans herrors.symm)).trans hrunning
    rw [State.record, hhalted]
    simp [hsilent]
    omega
  obtain ⟨left, hleft, hflat, hunkeyed⟩ := hdefect.exists_left hrest hkept.rest hbefore htaken
  have hresumed := State.rest_recover_flat hresumes hleft hflat hunkeyed hsemi hkept.rest.length_le
    hnoted.2
  have hrecord := hkept.trans (State.Kept.record setting e after)
  have hrecover := @Keeps.kept_recover false recovery setting s e after
  have hsame := hrecover.silent rfl
  exact ⟨e, s.recover recovery setting e after, hresumed, hsame.trans hnoted.1,
    (hrecover.unspent hsame).trans hnoted.2, hrecover.context.trans hrecord.context,
    hrecover.depth.trans hrecord.depth, loop_of_fail hprogresses hstop hrunning hreply hnoted.2⟩

/-- A defect that the second run meets costs one error, and from then on the runs go on together. -/
theorem TurnAlike.past_defect (h : TurnAlike L stop recovery χ R part part)
    (hresumes : ResumesBehind starts recovery) (hspans : L.spans = false) (hids : L.ids = false)
    {settingB : Setting} {tB t afterB : State} {b b' found : σ} (hb : R b b')
    -- the parts behind the defect
    (hB : loop (turnUntil stop recovery part) b settingB tB = .ok found afterB)
    (hquietB : ¬ afterB.Noted) (hendB : afterB.kind.isArrow = false) (hrestB : tB.rest = rest)
    (herrorsB : tB.errors = []) (hrunningB : tB.halted = false)
    -- the defect
    (hdefect : Defect starts ts) (hsemi : semi.token.kind = .symbol .semicolon)
    (hlimit : 1 < setting.limits.maxErrors) (hrest : t.rest = ts ++ semi :: rest) (herrors : t.errors = [])
    (hrunning : t.halted = false) (hcontext : tB.context = t.context)
    (hlevels : settingB.limits.maxDepth + t.depth ≤ setting.limits.maxDepth + tB.depth)
    (hgo : stop t = false) (hfails : (part b').FailsWithin starts rest setting t) :
    ∃ e found' after, loop (turnUntil stop recovery part) b' setting t = .ok found' after ∧
      afterB.Together L .none settingB setting [e] .unread none after ∧ R found found' := by
  obtain ⟨e, u, hrestU, herrorsU, hrunningU, hcontextU, hdepthU, hloopU⟩ := loop_defect h.progresses
    ((h.part b b' hb).keepAlike.right rfl) hresumes hdefect hsemi hlimit hrest herrors hrunning hgo hfails
  have htogether : tB.Together L .none settingB setting [e] .unread none u :=
    { meet := .before (by rw [hrestB, hrestU]; exact .refl rest) (Hand.holds_none _ _)
      context := hcontext.trans hcontextU.symm
      levels := by rw [hdepthU]; exact hlevels
      previousEnd := Likeness.sameOffset_of_not hspans _ _
      nextId := Likeness.sameId_of_not hids _ _
      errors_left := herrorsB
      running_left := hrunningB
      errors_right := herrorsU
      running_right := hrunningU }
  have hruns := (h.alike_loop hb).together (.of_unplaced hspans) htogether
  rw [hB] at hruns
  generalize hwhole : loop _ b' setting u = r' at hruns
  obtain ⟨found', after', rfl, hafter, hfound⟩ := hruns.of_quiet hquietB hendB
  exact ⟨e, found', after', hloopU.trans hwhole, hafter, hfound⟩

/-- A defect between parts costs one error.  What is read besides is what is read where the defect is
left out, if the parts before it can be read alone. -/
theorem TurnAlike.one_error [Relabeled σ] (h : TurnAlike L stop recovery χ (Like L) part part)
    (hresumes : ResumesBehind starts recovery) (hstale : χ.stale = false) (hspans : L.spans = false)
    (hids : L.ids = false) {settingA settingB : Setting} {sA sB afterA afterB : State} {foundA foundB : σ}
    {left : List Lexeme} (hend : ∀ s, s.rest = left → stop s = true ∧ s.kind.isArrow = false)
    -- the parts before the defect
    (hA : loop (turnUntil stop recovery part) a settingA sA = .ok foundA afterA)
    (hquietA : ¬ afterA.Noted) (hendA : afterA.rest = left)
    -- the parts before it and behind it
    (hB : loop (turnUntil stop recovery part) a settingB sB = .ok foundB afterB)
    (hquietB : ¬ afterB.Noted) (hendB : afterB.kind.isArrow = false)
    (hAB : sA.Together L (.semicolon left rest) settingA settingB [] χ none sB)
    -- the defect
    (hdefect : Defect starts ts) (hsemi : semi.token.kind = .symbol .semicolon)
    (hlimit : 1 < setting.limits.maxErrors) (hcontext : sB.context = s.context)
    (hlevels : settingB.limits.maxDepth + s.depth ≤ setting.limits.maxDepth + sB.depth)
    (hA' : sA.Together L (.semicolon left (ts ++ semi :: rest)) settingA setting [] χ none s)
    (hfails : ∀ a t, s.Kept true t → t.rest = ts ++ semi :: rest → t.errors = [] →
      stop t = false ∧ (part a).FailsWithin starts rest setting t) :
    ∃ e found after, loop (turnUntil stop recovery part) a setting s = .ok found after ∧
      afterB.Together L .none settingB setting [e] .unread none after ∧ Like L foundB found := by
  -- both runs find the parts before the defect
  have hmeet (right : List Lexeme) {settingR : Setting} {sR : State}
      (hR : sA.Together L (.semicolon left right) settingA settingR [] χ none sR) :=
    have hsetting : settingA.Comparable L (.semicolon left right) settingR := .of_unplaced hspans
    h.until_cut hsetting (by simp [Cut.symbol?]) hend hstale nofun hA hquietA hendA
      (show Like L a a from rfl) hR
  obtain ⟨b, tB, hb, hkeptB, hrestB, herrorsB, hrunningB, hloopB⟩ := hmeet rest hAB
  obtain ⟨b', t, hb', hkept, hrest, herrors, hrunning, hloop⟩ := hmeet (ts ++ semi :: rest) hA'
  obtain ⟨hgo, hfails⟩ := hfails b' t hkept hrest herrors
  have hsame : tB.context = t.context := by rw [hkeptB.context, hkept.context, hcontext]
  have hlower : settingB.limits.maxDepth + t.depth ≤ setting.limits.maxDepth + tB.depth := by
    rw [hkept.depth, hkeptB.depth]
    exact hlevels
  obtain ⟨e, found, after, hwhole, hafter⟩ := h.past_defect hresumes hspans hids
    (show Like L b b' from Eq.trans (Eq.symm hb) hb') (hloopB.symm.trans hB) hquietB hendB hrestB herrorsB
    hrunningB hdefect hsemi hlimit hrest herrors hrunning hsame hlower hgo hfails
  exact ⟨e, found, after, hloop.trans hwhole, hafter⟩

/-- Parts that are read until nothing more belongs to the construct, the last one first. -/
def partsUntil (stop : State → Bool) (recovery : Recovery) (part : Parser α) :
    List α → Parser (List α) :=
  loop (turnUntil stop recovery fun found => do
    let next ← part
    pure (next :: found))

section

variable [Relabeled α] {part : Parser α}

/-- How a construct reads its parts, one after another, so that two readings of them go alike and the
next part is looked for behind a semicolon or at a keyword that parts start with. -/
structure Series (L : Likeness) (stop : State → Bool) (recovery : Recovery) (starts : Keyword → Bool)
    (χ : Footing) (part : Parser α) : Prop where
  progresses : Progresses (turnUntil stop recovery fun found => do
    let next ← part
    pure (next :: found))
  part : Alike L true true none .unread χ (Like L) part part
  stop_eq : ∀ cut s s', Lexeme.AlikeUpTo L cut s.rest s'.rest → stop s = stop s'
  stale : χ.stale = false
  resumes : ResumesBehind starts recovery

namespace Series

/-- The parts go alike, where the second run has found some before. -/
theorem turnAlike (h : Series L stop recovery starts χ part) (base : List α) :
    TurnAlike L stop recovery χ (fun found found' => Like L (found ++ base) found')
      (fun found => do
        let next ← part
        pure (next :: found))
      (fun found => do
        let next ← part
        pure (next :: found)) where
  progresses := h.progresses
  progresses' := h.progresses
  part found found' hfound := .map h.part fun next next' hnext => by simp_all
  stop_eq := h.stop_eq

theorem keeps (h : Series L stop recovery starts χ part) :
    (partsUntil stop recovery part []).Keeps true :=
  ((h.turnAlike []).alike_loop (show Like L ([] ++ []) [] from rfl)).keepAlike.left

/-- A defect between parts that are read without an error costs one error, and the parts before it and
behind it are the same. -/
theorem one_error (h : Series L stop recovery starts χ part) (hspans : L.spans = false)
    (hids : L.ids = false) {settingA settingB : Setting} {sA sB afterA afterB : State}
    {foundA foundB : List α}
    -- the parts before the defect
    (hcut : cut.symbol? ≠ none)
    (hend : ∀ s, s.rest = cut.left → stop s = true ∧ s.kind.isArrow = false)
    (hlooked : cut.symbol? = some .rightBrace → χ.looked = false)
    (hA : partsUntil stop recovery part [] settingA sA = .ok foundA afterA)
    (hquietA : ¬ afterA.Noted) (hendA : afterA.rest = cut.left)
    (hsA : sA.Together L cut settingA setting [] χ none s)
    -- the defect
    (hdefect : Defect starts ts) (hsemi : semi.token.kind = .symbol .semicolon)
    (hright : cut.right = ts ++ semi :: rest) (hlimit : 1 < setting.limits.maxErrors)
    (hfails : ∀ t, s.Kept true t → t.rest = ts ++ semi :: rest → t.errors = [] → stop t = false ∧
      part.FailsWithin starts rest setting t)
    -- the parts behind it
    (hB : partsUntil stop recovery part [] settingB sB = .ok foundB afterB)
    (hquietB : ¬ afterB.Noted) (hendB : afterB.kind.isArrow = false) (hrestB : sB.rest = rest)
    (herrorsB : sB.errors = []) (hrunningB : sB.halted = false) (hcontextB : sB.context = s.context)
    (hlevelsB : settingB.limits.maxDepth + s.depth ≤ setting.limits.maxDepth + sB.depth) :
    ∃ e found after, partsUntil stop recovery part [] setting s = .ok found after ∧
      afterB.Together L .none settingB setting [e] .unread none after ∧
      Like L (foundB ++ foundA) found := by
  -- up to the defect the parts are those found before
  obtain ⟨foundA', t, hfoundA, hkeptA, hrestA, herrorsA, hrunningA, hloopA⟩ :=
    (h.turnAlike []).until_cut (.of_unplaced hspans) hcut hend h.stale hlooked hA hquietA hendA rfl hsA
  have hrest := hrestA.trans hright
  obtain ⟨hgo, hfails⟩ := hfails t hkeptA hrest herrorsA
  have hlower : settingB.limits.maxDepth + t.depth ≤ setting.limits.maxDepth + sB.depth := by
    rw [hkeptA.depth]
    exact hlevelsB
  -- behind the defect the parts are those found there
  obtain ⟨e, found, after, hwhole, hafter, hfound⟩ := (h.turnAlike foundA').past_defect h.resumes hspans hids
    (show Like L ([] ++ foundA') foundA' from rfl) hB hquietB hendB hrestB herrorsB hrunningB hdefect hsemi
    hlimit hrest herrorsA hrunningA (hcontextB.trans hkeptA.context.symm) hlower hgo hfails.bind
  refine ⟨e, found, after, hloopA.trans hwhole, hafter, ?_⟩
  simp_all [relabel]

end Series

end

end Parser

end ActorFrontend
