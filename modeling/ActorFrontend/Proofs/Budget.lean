import ActorFrontend.Proofs.Alike.Kept
import ActorFrontend.Proofs.Alike.Items

/-!
# The error budget

A reading stops recording errors when its budget is spent.  Under a smaller budget and under a larger
one it takes the same steps until the smaller one is spent; from then on the first run records
nothing more, and the second one only adds to what both have recorded.
-/

namespace ActorFrontend

variable {α β σ : Type} {m : Nat} {loud : Bool} {setting setting' : Setting}
  {s s' t t' : State}

/-- Settings that differ in the error budget alone, the first one being `m`. -/
structure Setting.Tighter (m : Nat) (setting setting' : Setting) : Prop where
  maxErrors : setting.limits.maxErrors = m
  pos : 0 < m
  le : m ≤ setting'.limits.maxErrors
  maxDepth : setting.limits.maxDepth = setting'.limits.maxDepth
  endOfInput : setting.endOfInput = setting'.endOfInput

theorem Setting.Tighter.inSplice (h : setting.Tighter m setting') (span : Span) :
    (setting.inSplice span).Tighter m (setting'.inSplice span) :=
  ⟨h.maxErrors, h.pos, h.le, h.maxDepth, rfl⟩

namespace State

/-- The budget is not spent. -/
structure Unspent (m : Nat) (s : State) : Prop where
  running : s.halted = false
  lt : s.errors.length < m

theorem Unspent.congr (h : s.Unspent m) (herrors : t.errors = s.errors)
    (hhalted : t.halted = s.halted) : t.Unspent m :=
  ⟨hhalted.trans h.running, herrors ▸ h.lt⟩

/-- The first run has spent its budget on errors that the second one has recorded too. -/
structure Outspent (m : Nat) (s s' : State) : Prop where
  halted : s.halted = true
  length : s.errors.length = m
  errors : s.errors <+: s'.errors

/-- The two runs are in the same state, or the budget of the first one is spent. -/
def InStep (m : Nat) (s s' : State) : Prop := (s.Unspent m ∧ s' = s) ∨ s.Outspent m s'

theorem Outspent.kept (h : s.Outspent m s') (hs : s.Kept loud t) (hs' : s'.Kept loud t') :
    t.Outspent m t' where
  halted := hs.stays_halted h.halted
  length := by rw [hs.halted h.halted, h.length]
  errors := by
    rw [hs.halted h.halted]
    exact h.errors.trans hs'.errors

/-- What was in step stays so, if nothing is done to the state that depends on the errors. -/
theorem InStep.map {f f' : State → State} (h : s.InStep m s') (hf : f' s = f s)
    (hunspent : s.Unspent m → (f s).Unspent m) (hkept : s.Kept loud (f s))
    (hkept' : s'.Kept loud (f' s')) : (f s).InStep m (f' s') := by
  obtain ⟨hs, rfl⟩ | hs := h
  · exact .inl ⟨hunspent hs, hf⟩
  · exact .inr (hs.kept hkept hkept')

/-- An error is recorded in both runs, or in the second one alone. -/
theorem InStep.record (hsetting : setting.Tighter m setting') (h : s.InStep m s')
    (error : ParseError) : (s.record setting error).InStep m (s'.record setting' error) := by
  obtain ⟨hs, rfl⟩ | hs := h
  · have hlt := hs.lt
    have hlength : (s'.errors ++ [error]).length = s'.errors.length + 1 := by simp
    unfold State.record
    rw [hs.running, hsetting.maxErrors]
    simp only [Bool.false_eq_true, if_false, hlength]
    by_cases hspent : s'.errors.length + 1 < m
    · have hle := hsetting.le
      have hopen : ¬ m ≤ s'.errors.length + 1 := by omega
      have hopen' : ¬ setting'.limits.maxErrors ≤ s'.errors.length + 1 := by omega
      exact .inl ⟨⟨by simpa using hopen, by simpa using hspent⟩, by simp [hopen, hopen']⟩
    · have hend : s'.errors.length + 1 = m := by omega
      exact .inr ⟨by simp [hend], by simpa using hend, List.prefix_rfl⟩
  · exact .inr (hs.kept (.record setting error s) (.record setting' error s'))

theorem InStep.recordAll (hsetting : setting.Tighter m setting') (h : s.InStep m s')
    (errors : List ParseError) :
    (errors.foldl (fun s error => s.record setting error) s).InStep m
      (errors.foldl (fun s error => s.record setting' error) s') := by
  induction errors generalizing s s' with
  | nil => exact h
  | cons error errors ih => exact ih (h.record hsetting error)

/-- As many errors are recorded as the budget allows. -/
theorem errors_recordAll (h : s.Unspent setting.limits.maxErrors) (errors : List ParseError) :
    (errors.foldl (fun s error => s.record setting error) s).errors =
      (s.errors ++ errors).take setting.limits.maxErrors ∧
    (setting.limits.maxErrors ≤ s.errors.length + errors.length →
      (errors.foldl (fun s error => s.record setting error) s).halted = true) := by
  have hlt := h.lt
  induction errors generalizing s with
  | nil =>
    rw [List.append_nil, List.take_of_length_le (Nat.le_of_lt h.lt)]
    refine ⟨rfl, fun hle => ?_⟩
    simp only [List.length_nil] at hle
    omega
  | cons error errors ih =>
    rw [List.foldl_cons]
    have hrecord : s.record setting error = { s with
        errors := s.errors ++ [error]
        halted := decide (setting.limits.maxErrors ≤ s.errors.length + 1) } := by
      unfold State.record
      rw [h.running]
      simp
    by_cases hspent : s.errors.length + 1 < setting.limits.maxErrors
    · have hopen : (s.record setting error).Unspent setting.limits.maxErrors := by
        rw [hrecord]
        exact ⟨by simpa using hspent, by simpa using hspent⟩
      obtain ⟨herrors, hhalted⟩ := ih hopen hopen.lt
      refine ⟨?_, fun hle => hhalted ?_⟩
      · rw [herrors, hrecord, List.append_assoc]
        rfl
      · rw [hrecord]
        simp only [List.length_append, List.length_cons, List.length_nil] at hle ⊢
        omega
    · -- the budget is spent on this error
      have hkept : (s.record setting error).Kept true
          (errors.foldl (fun s error => s.record setting error) (s.record setting error)) :=
        .recordAll setting errors _
      have hhalted : (s.record setting error).halted = true := by
        rw [hrecord]
        simpa using hspent
      refine ⟨?_, fun _ => hkept.stays_halted hhalted⟩
      have hlength : setting.limits.maxErrors = (s.errors ++ [error]).length := by
        rw [List.length_append, List.length_singleton]
        omega
      have htake : (s.errors ++ error :: errors).take setting.limits.maxErrors =
          s.errors ++ [error] := by
        rw [hlength, List.append_cons s.errors error errors, List.take_left]
      rw [hkept.halted hhalted, hrecord, htake]

/-- Where a splice has spent the budget the string around it has spent it too. -/
theorem Outspent.leaveSplice {inner inner' : State} (hsetting : setting.Tighter m setting')
    (hs : s.Unspent m) (h : inner.Outspent m inner') :
    (Parser.leaveSplice setting s inner).Outspent m (Parser.leaveSplice setting' s inner') := by
  have hmax := hsetting.maxErrors
  have hle := hsetting.le
  have hlt := hs.lt
  have hall : m ≤ (s.errors ++ inner.errors).length := by
    rw [List.length_append, h.length]
    exact Nat.le_add_left ..
  have hopen : { s with nextId := inner.nextId }.Unspent setting.limits.maxErrors :=
    hmax ▸ ⟨hs.running, hs.lt⟩
  have hopen' : { s with nextId := inner'.nextId }.Unspent setting'.limits.maxErrors :=
    ⟨hs.running, Nat.lt_of_lt_of_le hs.lt hle⟩
  obtain ⟨herrors, hhalted⟩ := errors_recordAll hopen inner.errors
  obtain ⟨herrors', -⟩ := errors_recordAll hopen' inner'.errors
  obtain ⟨more, hmore⟩ := h.errors
  refine ⟨hhalted (by rwa [hmax, ← List.length_append]), ?_, ?_⟩
  · rw [Parser.leaveSplice, herrors, hmax, List.length_take]
    exact Nat.min_eq_left hall
  · rw [Parser.leaveSplice, Parser.leaveSplice, herrors, herrors', hmax, ← hmore,
      ← List.append_assoc, ← List.take_append_of_le_length hall]
    exact List.take_prefix_take_left hle

/-- The errors of a splice are recorded in the string around it. -/
theorem InStep.leaveSplice {inner : State} (hsetting : setting.Tighter m setting')
    (hs : s.Unspent m) :
    (Parser.leaveSplice setting s inner).InStep m (Parser.leaveSplice setting' s inner) := by
  have hids : ({ s with nextId := inner.nextId } : State).Unspent m := hs.congr rfl rfl
  exact InStep.recordAll hsetting (.inl ⟨hids, rfl⟩) inner.errors

end State

/-! ## Answers -/

/-- The same answer in the same state, but that the budget of the first run may be spent. -/
inductive Reply.InStep (m : Nat) (R : α → α → Prop) : Reply α → Reply α → Prop where
  | ok {a a' : α} {s : State} (hs : s.Unspent m) (ha : R a a') : InStep m R (.ok a s) (.ok a' s)
  | fail {e : ParseError} {s : State} (hs : s.Unspent m) : InStep m R (.fail e s) (.fail e s)
  | outspent {r r' : Reply α} (h : r.state.Outspent m r'.state) : InStep m R r r'

namespace Reply.InStep

variable {R : α → α → Prop} {S : β → β → Prop} {r r' : Reply α}

theorem weaken {S : α → α → Prop} (h : r.InStep m R r') (hR : ∀ a a', R a a' → S a a') :
    r.InStep m S r' := by
  cases h with
  | ok hs ha => exact .ok hs (hR _ _ ha)
  | fail hs => exact .fail hs
  | outspent h => exact .outspent h

theorem ok_of_state {a a' : α} (ha : R a a') (h : s.InStep m s') :
    Reply.InStep m R (.ok a s) (.ok a' s') := by
  obtain ⟨hs, rfl⟩ | h := h
  · exact .ok hs ha
  · exact .outspent h

theorem fail_of_state {e : ParseError} (h : s.InStep m s') :
    Reply.InStep m R (.fail e s) (.fail e s') := by
  obtain ⟨hs, rfl⟩ | h := h
  · exact .fail hs
  · exact .outspent h

theorem bind {both : Prop} {p p' : Parser α} {q q' : α → Parser β} (hboth : both)
    (hp : (p setting s).InStep m R (p' setting' s'))
    (hkeep : Parser.KeepAlike both true R p p')
    (hkeep' : ∀ a a', R a a' → Parser.KeepAlike both true S (q a) (q' a'))
    (hq : ∀ a a' s, R a a' → s.Unspent m → (q a setting s).InStep m S (q' a' setting' s)) :
    ((p >>= q) setting s).InStep m S ((p' >>= q') setting' s') := by
  have hkept := Parser.Keeps.kept_bind (hkeep.keeps_left hkeep') setting s
  have hkept' := Parser.Keeps.kept_bind (hkeep.keeps_right hkeep' hboth) setting' s'
  change (Parser.bind p q setting s).InStep m S (Parser.bind p' q' setting' s')
  change (p setting s).state.Kept true (Parser.bind p q setting s).state at hkept
  change (p' setting' s').state.Kept true (Parser.bind p' q' setting' s').state at hkept'
  unfold Parser.bind at hkept hkept' ⊢
  generalize p setting s = r at hp hkept ⊢
  generalize p' setting' s' = r' at hp hkept' ⊢
  cases hp with
  | ok hs ha => exact hq _ _ _ ha hs
  | fail hs => exact .fail hs
  | outspent h => exact .outspent (h.kept hkept hkept')

/-- A change of the state that leaves the errors alone. -/
theorem mapState {f : State → State} (hf : ∀ s, (f s).errors = s.errors ∧ (f s).halted = s.halted)
    (h : r.InStep m R r') : (r.mapState f).InStep m R (r'.mapState f) := by
  cases h with
  | ok hs ha => exact .ok (hs.congr (hf _).1 (hf _).2) ha
  | fail hs => exact .fail (hs.congr (hf _).1 (hf _).2)
  | outspent h =>
    refine .outspent ?_
    rw [Reply.state_mapState, Reply.state_mapState]
    exact ⟨(hf _).2.trans h.halted, (hf _).1.symm ▸ h.length, (hf _).1.symm ▸ (hf _).1.symm ▸ h.errors⟩

/-- The errors of a splice are recorded in the string around it. -/
theorem leaveSplice (hsetting : setting.Tighter m setting') (hs : s.Unspent m)
    (h : r.InStep m R r') :
    (r.mapState (Parser.leaveSplice setting s)).InStep m R
      (r'.mapState (Parser.leaveSplice setting' s)) := by
  cases h with
  | ok _ he => exact .ok_of_state he (.leaveSplice hsetting hs)
  | fail _ => exact .fail_of_state (.leaveSplice hsetting hs)
  | outspent h =>
    refine .outspent ?_
    rw [Reply.state_mapState, Reply.state_mapState]
    exact h.leaveSplice hsetting hs

end Reply.InStep

/-! ## Parsers -/

namespace Parser

variable {L : Likeness} {inside : Bool} {hand : Hand} {φ χ : Footing} {R : α → α → Prop}
  {p p' : Parser α}

/-- Readings that go alike stay in step until the smaller budget is spent. -/
theorem Alike.inStep (hspans : L.spans = true) (hlax : L.lax = false)
    (h : Alike L loud inside hand φ χ R p p') (hsetting : setting.Tighter m setting')
    (hhand : hand.Holds s.kind s.kind) (hs : s.Unspent m) :
    (p setting s).InStep m R (p' setting' s) := by
  induction h generalizing setting setting' s with
  | value h => exact .ok hs h
  | bind hp hq ihp ihq =>
    exact .bind rfl (ihp hsetting hhand hs) (hp.keepAlike.louder fun _ => rfl)
      (fun a a' ha => (hq a a' ha).keepAlike.louder fun _ => rfl)
      fun a a' s ha hs => ihq a a' ha hsetting (Hand.holds_none _ _) hs
  | weaken _ _ _ hhand' _ _ hR ih =>
    refine (ih hsetting ?_ hs).weaken hR
    obtain rfl | rfl := hhand'
    · exact Hand.holds_none _ _
    · exact hhand
  | settle _ _ ih => exact ih hsetting hhand hs
  | separator hmended => exact absurd rfl hmended
  | unblock _ _ ih => exact ih hsetting hhand hs
  | @place _ _ _ _ _ _ _ _ q q' f _ _ ih =>
    have hspan : s.span setting' = s.span setting := by simp [State.span, hsetting.endOfInput]
    change (q (f (s.span setting)) setting s).InStep m _ (q' (f (s.span setting')) setting' s)
    rw [hspan]
    exact ih (s.span setting) (s.span setting) (Comparison.placed_of_not rfl rfl) hsetting hhand hs
  | spanSince h =>
    have hsame := Likeness.SameOffset.span h fun hspans => congrArg (max s.previousEnd) (h hspans)
    exact .ok hs ⟨hsame, fun _ _ _ => Comparison.placed_of_not rfl hsame⟩
  | freshId => exact .ok (hs.congr rfl rfl) rfl
  | text _ _ _ _ _ _ ih => exact ih _ hsetting hhand hs
  | kind _ _ _ _ _ _ ih =>
    exact ih s.kind s.kind (.same _) hsetting (Hand.holds_some _ _) hs
  | look known _ _ _ _ _ _ _ _ _ _ ih =>
    refine ih s s (.same _) rfl hsetting ?_ hs
    cases known with
    | none => exact Hand.holds_some _ _
    | some k => exact hhand
  | advance => exact .ok (hs.congr s.advance_errors.1 s.advance_errors.2) trivial
  | enter _ _ _ ih =>
    exact ih hsetting (Hand.holds_none _ _) (hs.congr s.advance_errors.1 s.advance_errors.2)
  | fails _ hsame =>
    have herror := hsame hspans setting setting' s hsetting.maxDepth hsetting.endOfInput
    simp only [herror]
    exact .fail hs
  | refused hlax' => exact absurd (hlax.symm.trans hlax') Bool.false_ne_true
  | semicolon =>
    unfold Parser.semicolon
    split
    · exact .ok (hs.congr s.advance_errors.1 s.advance_errors.2) trivial
    · split
      · exact .ok_of_state trivial (.record hsetting (.inl ⟨hs, rfl⟩) _)
      · have herror (wanted : Expected) :
            s.expectedError setting' wanted = s.expectedError setting wanted := by
          simp [State.expectedError, State.span, hsetting.endOfInput]
        rw [herror]
        exact .fail hs
  | duplicate clause h =>
    rw [Likeness.sameSpan_iff.1 h.1 hspans]
    exact .ok_of_state trivial (.record hsetting (.inl ⟨hs, rfl⟩) _)
  | inContext f _ _ ih =>
    exact (ih (s := { s with context := f s.context }) hsetting hhand (hs.congr rfl rfl)).mapState
      fun _ => ⟨rfl, rfl⟩
  | nested _ _ ih =>
    unfold Parser.nested
    rw [hsetting.maxDepth]
    split
    · have hspan : s.span setting' = s.span setting := by simp [State.span, hsetting.endOfInput]
      unfold tooDeep
      rw [hspan, hsetting.maxDepth]
      exact .fail hs
    · exact (ih (s := { s with depth := s.depth + 1 }) hsetting hhand (hs.congr rfl rfl)).mapState
        fun _ => ⟨rfl, rfl⟩
  | @loop σ _ _ _ _ R step step' a a' _ _ _ hstep ha ih =>
    have hkeep (a a' : σ) (ha : R a a') :
        KeepAlike ((L : Comparison).mended = none) true (fun r r' => r.1 = r'.1 ∧ R r.2 r'.2)
          (step a) (step' a') :=
      (hstep a a' ha).keepAlike.louder fun _ => rfl
    have hmended : (L : Comparison).mended = none := rfl
    have hrepeat (fuel : List Lexeme) (a a' : σ) (s : State) (ha : R a a') (hs : s.Unspent m) :
        (repeatAlong step fuel a setting s).InStep m R (repeatAlong step' fuel a' setting' s) := by
      induction fuel generalizing a a' s with
      | nil =>
        exact .bind hmended (ih a a' ha hsetting (Hand.holds_none _ _) hs) (hkeep a a' ha)
          (fun r r' hr => .value hr.2)
          fun r r' s hr hs => .ok hs hr.2
      | cons lexeme fuel ih' =>
        refine .bind hmended (ih a a' ha hsetting (Hand.holds_none _ _) hs) (hkeep a a' ha) ?_ ?_
        · rintro ⟨again, b⟩ ⟨again', b'⟩ ⟨rfl, hb⟩
          dsimp only
          split
          · exact .repeatAlong hkeep fuel hb
          · exact .value hb
        · rintro ⟨again, b⟩ ⟨again', b'⟩ s ⟨rfl, hb⟩ hs
          simp only
          split
          · exact ih' b b' s hb hs
          · exact .ok hs hb
    exact hrepeat s.rest a a' s ha hs
  | @resilient _ _ _ _ _ part part' a a' recovery _ ha _ ih =>
    have hpart := ih hsetting hhand hs
    have hkept : (part a setting s).state.Kept true
        (Parser.resilient recovery part a setting s).state := Keeps.kept_resilient hs.running
    have hkept' : (part' a' setting' s).state.Kept true
        (Parser.resilient recovery part' a' setting' s).state := Keeps.kept_resilient hs.running
    rw [Keeps.resilient_eq hs.running] at hkept hkept' ⊢
    rw [Keeps.resilient_eq hs.running]
    generalize part a setting s = r at hpart hkept
    generalize part' a' setting' s = r' at hpart hkept'
    cases hpart with
    | ok hs hb => exact .ok hs ⟨rfl, hb⟩
    | @fail e after hafter =>
      obtain ⟨hnoted, heq⟩ | hspent := State.InStep.record hsetting (.inl ⟨hafter, rfl⟩) e
      · have hrecover := @Keeps.kept_recover false recovery setting s e after
        have herrors := hrecover.silent rfl
        have heq' : s.recover recovery setting' e after = s.recover recovery setting e after := by
          unfold State.recover
          rw [heq]
        simp only [heq', heq]
        exact .ok (hnoted.congr herrors (hrecover.unspent herrors)) ⟨rfl, ha⟩
      · exact .outspent (hspent.kept (@Keeps.kept_recover true ..) (Keeps.kept_recover ..))
    | outspent h => exact .outspent (h.kept hkept hkept')
  | parts _ _ hmended => exact absurd rfl hmended
  | @guess _ _ _ _ _ _ _ _ _ _ p p' q q' r r' _ _ _ hp hq hr _ _ _ _ ihp ihq ihr =>
    have hother := ihr hsetting hhand hs
    unfold Parser.guess
    rw [query_bind, query_bind]
    split
    · have htrial := ihp hsetting hhand hs
      have hkept := hp.keepAlike.left setting s
      have hrunning : (p setting s).state.halted = false :=
        (hkept.unspent (hkept.silent rfl)).trans hs.running
      generalize hreply : p setting s = r at htrial hrunning
      generalize hreply' : p' setting' s = r' at htrial
      cases htrial with
      | ok hs ha =>
        rw [bind_ok (Keeps.attempt_of_ok hreply), bind_ok (Keeps.attempt_of_ok hreply')]
        exact ihq _ _ ha hsetting (Hand.holds_none _ _) hs
      | fail _ =>
        rw [bind_ok (Keeps.attempt_of_fail hp.keepAlike.left hreply),
          bind_ok (Keeps.attempt_of_fail (hp.keepAlike.right rfl) hreply')]
        exact hother
      | outspent h => exact absurd (hrunning.symm.trans h.halted) Bool.false_ne_true
    · exact hother
  | @splice _ _ _ g g' tokens tokens' span span' _ _ hsame _ _ ih =>
    obtain ⟨rfl, rfl⟩ := hsame hspans
    have hentry : (s.inSplice (setting.inSplice span) tokens).Unspent m := ⟨rfl, hsetting.pos⟩
    rw [splice_eq_mapState, splice_eq_mapState]
    exact (ih (hsetting.inSplice span) (Hand.holds_none _ _) hentry).leaveSplice hsetting hs
  | interpolated hmended => exact absurd rfl hmended
  | unit _ _ _ ihsome ihnone =>
    have hs := hs.congr s.advance_errors.1 s.advance_errors.2
    rw [advance_bind, advance_bind, bind_ok (durationUnit?_eq ..), bind_ok (durationUnit?_eq ..)]
    cases hunit : s.advance.attachedUnit? with
    | none => exact ihnone hsetting (Hand.holds_none _ _) hs
    | some unit =>
      obtain ⟨suffix, hkind⟩ := State.kind_of_attachedUnit? hunit
      refine ihsome unit suffix hsetting ?_ hs
      rintro _ _ ⟨⟩
      exact ⟨hkind, hkind⟩

end Parser

/-! ## Programs -/

/-- The first run has recorded what fits into its budget of what the second one has recorded. -/
theorem Reply.InStep.errors_eq {R : α → α → Prop} {r r' : Reply α} (h : r.InStep m R r') :
    r.state.errors = r'.state.errors.take m := by
  cases h with
  | ok hs _ => exact (List.take_of_length_le (Nat.le_of_lt hs.lt)).symm
  | fail hs => exact (List.take_of_length_le (Nat.le_of_lt hs.lt)).symm
  | outspent h =>
    obtain ⟨more, hmore⟩ := h.errors
    rw [← hmore, ← h.length, List.take_left]

theorem Session.errors_program (session : Session) :
    session.program.2.errors =
      (Parser.program session.rules session.setting session.state).state.errors := by
  unfold Session.program Session.run
  cases Parser.program session.rules session.setting session.state <;> rfl

/-- The error budget only cuts the list short.  What a program's reading records under a budget are
the first errors that it records under a larger one, as many as the budget allows. -/
theorem Session.errors_program_eq_take (tokens : List Token) (maxDepth m maxErrors : Nat)
    (hpos : 1 ≤ m) (hle : m ≤ maxErrors) :
    (Session.ofTokens tokens ⟨m, maxDepth⟩).program.2.errors =
      (Session.ofTokens tokens ⟨maxErrors, maxDepth⟩).program.2.errors.take m := by
  rw [errors_program, errors_program]
  have halike := Parser.alike_program (Rules.alike_within (L := (⟨true, true, false⟩ : Likeness)) maxDepth)
  have hsetting : (Session.ofTokens tokens ⟨m, maxDepth⟩).setting.Tighter m
      (Session.ofTokens tokens ⟨maxErrors, maxDepth⟩).setting := ⟨rfl, hpos, hle, rfl, rfl⟩
  have hstate : (Session.ofTokens tokens ⟨m, maxDepth⟩).state.Unspent m := ⟨rfl, hpos⟩
  exact (halike.inStep rfl rfl hsetting (Hand.holds_none _ _) hstate).errors_eq

/-- Of the three errors in `1; 2; 3;` the first two are recorded under a budget of two. -/
theorem Session.errors_program_three_numbers :
    let tokens : List Token :=
      [⟨.int 1, "1", ⟨0, 1⟩⟩, ⟨.symbol .semicolon, ";", ⟨1, 2⟩⟩, ⟨.int 2, "2", ⟨2, 3⟩⟩,
        ⟨.symbol .semicolon, ";", ⟨3, 4⟩⟩, ⟨.int 3, "3", ⟨4, 5⟩⟩, ⟨.symbol .semicolon, ";", ⟨5, 6⟩⟩]
    (Session.ofTokens tokens ⟨20, 3⟩).program.2.errors.map ParseError.span =
        [⟨0, 1⟩, ⟨2, 3⟩, ⟨4, 5⟩] ∧
      (Session.ofTokens tokens ⟨2, 3⟩).program.2.errors =
        (Session.ofTokens tokens ⟨20, 3⟩).program.2.errors.take 2 :=
  ⟨by decide +kernel, Session.errors_program_eq_take _ 3 2 20 (by decide) (by decide)⟩

end ActorFrontend
