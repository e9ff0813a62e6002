import ActorFrontend.Proofs.Alike.Combinators
import ActorFrontend.Proofs.Enclosure

/-!
# What every reading keeps

Readings that go alike with others do so step by step, so what every step keeps, they keep: the
context, the nesting depth and the errors recorded before.  And each of them answers with a value
only if the other one may answer with one that is related to it.
-/

namespace ActorFrontend

variable {α β σ : Type} {setting : Setting} {s s' s'' : State} {loud : Bool}

/-- What a reading keeps of the state in which it starts. -/
structure State.Kept (loud : Bool) (s after : State) : Prop where
  errors : s.errors <+: after.errors
  silent : loud = false → after.errors = s.errors
  halted : s.halted = true → after.errors = s.errors
  /-- Only an error that is recorded stops the recording. -/
  unspent : after.errors = s.errors → after.halted = s.halted
  context : after.context = s.context
  depth : after.depth = s.depth
  rest : after.rest <:+ s.rest

namespace State.Kept

theorem refl (s : State) : s.Kept loud s :=
  ⟨List.prefix_rfl, fun _ => rfl, fun _ => rfl, fun _ => rfl, rfl, rfl, List.suffix_rfl⟩

theorem trans (h : s.Kept loud s') (h' : s'.Kept loud s'') : s.Kept loud s'' where
  errors := h.errors.trans h'.errors
  silent hloud := (h'.silent hloud).trans (h.silent hloud)
  halted hhalted := by
    have herrors := h.halted hhalted
    exact (h'.halted ((h.unspent herrors).trans hhalted)).trans herrors
  unspent herrors := by
    have hmiddle : s'.errors = s.errors :=
      (h'.errors.eq_of_length_le (by rw [herrors]; exact h.errors.length_le)).trans herrors
    exact (h'.unspent (herrors.trans hmiddle.symm)).trans (h.unspent hmiddle)
  context := h'.context.trans h.context
  depth := h'.depth.trans h.depth
  rest := h'.rest.trans h.rest

theorem errors_eq_nil (h : s.Kept loud s') (hs' : s'.errors = []) : s.errors = [] :=
  List.prefix_nil.1 (hs' ▸ h.errors)

theorem louder {loud' : Bool} (h : s.Kept loud s') (hloud : loud = true → loud' = true) :
    s.Kept loud' s' :=
  { h with silent := fun hloud' => h.silent (by cases loud <;> simp_all) }

/-- The recording stays stopped. -/
theorem stays_halted (h : s.Kept loud s') (hhalted : s.halted = true) : s'.halted = true :=
  (h.unspent (h.halted hhalted)).trans hhalted

theorem of_eq (herrors : s'.errors = s.errors) (hhalted : s'.halted = s.halted)
    (hcontext : s'.context = s.context) (hdepth : s'.depth = s.depth) (hrest : s'.rest <:+ s.rest) :
    s.Kept loud s' :=
  ⟨herrors ▸ List.prefix_rfl, fun _ => herrors, fun _ => herrors, fun _ => hhalted, hcontext, hdepth,
    hrest⟩

theorem advance (s : State) : s.Kept loud s.advance := by
  refine .of_eq s.advance_errors.1 s.advance_errors.2 ?_ ?_ s.rest_advance_suffix
  all_goals
    unfold State.advance
    split <;> rfl

theorem skip (n : Nat) (s : State) : s.Kept loud (s.skip n) := by
  induction n generalizing s with
  | zero => exact .refl s
  | succ n ih => exact (advance s).trans (ih _)

theorem record (setting : Setting) (error : ParseError) (s : State) :
    s.Kept true (s.record setting error) := by
  unfold State.record
  split
  case isTrue => exact .refl s
  case isFalse hhalted =>
    refine ⟨List.prefix_append _ _, nofun, fun h => absurd h hhalted, fun herrors => ?_, rfl, rfl,
      List.suffix_rfl⟩
    exact absurd (congrArg List.length herrors) (by simp)

theorem recordAll (setting : Setting) (errors : List ParseError) (s : State) :
    s.Kept true (errors.foldl (fun s error => s.record setting error) s) := by
  induction errors generalizing s with
  | nil => exact .refl s
  | cons error errors ih => exact (record setting error s).trans (ih _)

theorem leaveSplice (setting : Setting) (outer inner : State) :
    outer.Kept true (Parser.leaveSplice setting outer inner) := by
  have hids : outer.Kept true { outer with nextId := inner.nextId } :=
    .of_eq rfl rfl rfl rfl List.suffix_rfl
  exact hids.trans (recordAll setting inner.errors _)

end State.Kept

/-- The unit that is written directly after the token read last. -/
def State.attachedUnit? (s : State) : Option DurationUnit :=
  match s.rest with
  | lexeme :: _ =>
      match lexeme.token.kind with
      | .ident suffix =>
          if lexeme.token.span.start = s.previousEnd then DurationUnit.ofSuffix? suffix else none
      | _ => none
  | [] => none

theorem State.kind_of_attachedUnit? {unit : DurationUnit} (h : s.attachedUnit? = some unit) :
    ∃ suffix, s.kind = .ident suffix := by
  unfold State.attachedUnit? at h
  unfold State.kind
  cases hrest : s.rest with
  | nil =>
    rw [hrest] at h
    cases h
  | cons lexeme rest =>
    simp only [hrest] at h ⊢
    split at h
    case h_1 suffix hkind => exact ⟨suffix, hkind⟩
    case h_2 => cases h

namespace Parser

theorem durationUnit?_eq (setting : Setting) (s : State) :
    durationUnit? setting s = .ok s.attachedUnit? s := by
  unfold durationUnit? State.attachedUnit? State.kind State.span
  cases s.rest with
  | nil => rfl
  | cons lexeme rest =>
    simp only
    cases lexeme.token.kind with
    | ident suffix =>
      simp only
      split <;> rfl
    | _ => rfl

/-- Whatever the parser answers, it keeps what a reading keeps. -/
def Keeps (loud : Bool) (p : Parser α) : Prop :=
  ∀ (setting : Setting) (s : State), s.Kept loud (p setting s).state

theorem Keeps.kept {p : Parser α} {a : α} (h : p.Keeps loud) (hreply : p setting s = .ok a s') :
    s.Kept loud s' := by
  have hkept := h setting s
  rwa [hreply] at hkept

/-- The parser may answer with this value. -/
def Answers (p : Parser α) (a : α) : Prop := ∃ setting s after, p setting s = .ok a after

theorem Answers.of_bind {p : Parser α} {q : α → Parser β} {b : β} (h : (p >>= q).Answers b) :
    ∃ a, p.Answers a ∧ (q a).Answers b := by
  obtain ⟨setting, s, after, hreply⟩ := h
  change bind p q setting s = _ at hreply
  unfold bind at hreply
  cases hp : p setting s with
  | ok a s' =>
    rw [hp] at hreply
    exact ⟨a, ⟨setting, s, s', hp⟩, ⟨setting, s', after, hreply⟩⟩
  | fail e s' =>
    rw [hp] at hreply
    cases hreply

theorem splice_eq (g : Rules) (tokens : List Token) (span : Span) (setting : Setting) (s : State) :
    splice g tokens span setting s =
      match wholeExpr g (.symbol .rightBrace) (setting.inSplice span)
        (s.inSplice (setting.inSplice span) tokens) with
      | .ok e inner => .ok e (leaveSplice setting s inner)
      | .fail e inner => .fail e (leaveSplice setting s inner) := rfl

theorem splice_eq_mapState (g : Rules) (tokens : List Token) (span : Span) (setting : Setting)
    (s : State) :
    splice g tokens span setting s =
      (wholeExpr g (.symbol .rightBrace) (setting.inSplice span)
        (s.inSplice (setting.inSplice span) tokens)).mapState (leaveSplice setting s) := by
  rw [splice_eq]
  cases wholeExpr g (.symbol .rightBrace) (setting.inSplice span)
    (s.inSplice (setting.inSplice span) tokens) <;> rfl

namespace Answers

variable {p : Parser α} {q : α → Parser β} {r : Parser β}

theorem of_inContext {f : Context → Context} {a : α} (h : (inContext f p).Answers a) :
    p.Answers a := by
  obtain ⟨setting, s, after, hreply⟩ := h
  unfold inContext withContext at hreply
  cases hp : p setting { s with context := f s.context } with
  | ok b inner =>
    rw [hp] at hreply
    cases hreply
    exact ⟨setting, _, inner, hp⟩
  | fail e inner =>
    rw [hp] at hreply
    cases hreply

theorem of_nested {a : α} (h : (nested p).Answers a) : p.Answers a := by
  obtain ⟨setting, s, after, hreply⟩ := h
  unfold nested at hreply
  split at hreply
  · cases hreply
  · cases hp : p setting { s with depth := s.depth + 1 } with
    | ok b inner =>
      rw [hp] at hreply
      cases hreply
      exact ⟨setting, _, inner, hp⟩
    | fail e inner =>
      rw [hp] at hreply
      cases hreply

theorem of_resilient {recovery : Recovery} {part : σ → Parser σ} {a : σ} {r : Bool × σ}
    (h : (resilient recovery part a).Answers r) : r.2 = a ∨ (part a).Answers r.2 := by
  obtain ⟨setting, s, after, hreply⟩ := h
  unfold resilient at hreply
  split at hreply
  · cases hreply
    exact .inl rfl
  · cases hpart : part a setting s with
    | ok b after' =>
      rw [hpart] at hreply
      cases hreply
      exact .inr ⟨setting, s, after, hpart⟩
    | fail e after' =>
      rw [hpart] at hreply
      simp only at hreply
      split at hreply
      · cases hreply
        exact .inl rfl
      · cases hreply
        exact .inl rfl

theorem of_guess {b : β} (h : (guess p q r).Answers b) :
    (∃ a, p.Answers a ∧ (q a).Answers b) ∨ r.Answers b := by
  obtain ⟨setting, s, after, hreply⟩ := h
  unfold guess at hreply
  rw [query_bind] at hreply
  split at hreply
  · change bind (attempt p) _ setting s = _ at hreply
    unfold bind attempt at hreply
    cases hp : p setting s with
    | ok a s' =>
      rw [hp] at hreply
      exact .inl ⟨a, ⟨setting, s, s', hp⟩, ⟨setting, s', after, hreply⟩⟩
    | fail e s' =>
      rw [hp] at hreply
      exact .inr ⟨setting, _, after, hreply⟩
  · exact .inr ⟨setting, s, after, hreply⟩

theorem of_splice {g : Rules} {tokens : List Token} {span : Span} {e : Expr}
    (h : (splice g tokens span).Answers e) : (wholeExpr g (.symbol .rightBrace)).Answers e := by
  obtain ⟨setting, s, after, hreply⟩ := h
  rw [splice_eq] at hreply
  split at hreply
  case h_1 e' inner hwhole =>
    cases hreply
    exact ⟨_, _, inner, hwhole⟩
  case h_2 => cases hreply

end Answers

namespace Keeps

theorem louder {loud' : Bool} {p : Parser α} (h : p.Keeps loud) (hloud : loud = true → loud' = true) :
    p.Keeps loud' :=
  fun setting s => (h setting s).louder hloud

/-- What the first part of a sequence leaves behind, the whole keeps. -/
theorem kept_bind {p : Parser α} {q : α → Parser β} (hq : ∀ a, p.Answers a → (q a).Keeps loud)
    (setting : Setting) (s : State) :
    (p setting s).state.Kept loud ((p >>= q) setting s).state := by
  change (p setting s).state.Kept loud (Parser.bind p q setting s).state
  unfold Parser.bind
  cases hreply : p setting s with
  | ok a s' => exact hq a ⟨setting, s, s', hreply⟩ setting s'
  | fail e s' => exact .refl s'

theorem bind {p : Parser α} {q : α → Parser β} (hp : p.Keeps loud)
    (hq : ∀ a, p.Answers a → (q a).Keeps loud) : (p >>= q).Keeps loud :=
  fun setting s => (hp setting s).trans (kept_bind hq setting s)

theorem inContext {f : Context → Context} {p : Parser α} (hp : p.Keeps loud) :
    (inContext f p).Keeps loud := by
  intro setting s
  have h := hp setting { s with context := f s.context }
  rw [Parser.inContext, withContext, Reply.state_mapState]
  exact ⟨h.errors, h.silent, h.halted, h.unspent, rfl, h.depth, h.rest⟩

theorem nested {p : Parser α} (hp : p.Keeps loud) : (nested p).Keeps loud := by
  intro setting s
  unfold Parser.nested
  split
  · exact .refl s
  · have h := hp setting { s with depth := s.depth + 1 }
    rw [Reply.state_mapState]
    refine ⟨h.errors, h.silent, h.halted, h.unspent, h.context, ?_, h.rest⟩
    simp [h.depth]

theorem semicolon : semicolon.Keeps true := by
  intro setting s
  unfold Parser.semicolon
  split
  · exact .advance s
  · split
    · exact .record setting _ s
    · exact .refl s

/-- What a part leaves behind is kept where its error is recorded. -/
theorem kept_recover (recovery : Recovery) (setting : Setting) (s : State) (error : ParseError)
    (after : State) : (after.record setting error).Kept loud (s.recover recovery setting error after) := by
  unfold State.recover
  simp only
  split
  · exact .skip _ _
  · split
    · exact (State.Kept.skip _ _).trans (.advance _)
    · exact .skip _ _

/-- A part, where errors are still recorded. -/
theorem resilient_eq {recovery : Recovery} {part : σ → Parser σ} {a : σ} (hs : s.halted = false) :
    Parser.resilient recovery part a setting s =
      match part a setting s with
      | .ok a after => .ok (true, a) after
      | .fail error after =>
          .ok (!(after.record setting error).halted, a) (s.recover recovery setting error after) := by
  unfold Parser.resilient State.recover
  rw [hs]
  cases part a setting s with
  | ok b after => rfl
  | fail error after => cases hnoted : (after.record setting error).halted <;> simp [hnoted]

theorem kept_resilient {recovery : Recovery} {part : σ → Parser σ} {a : σ} (hs : s.halted = false) :
    (part a setting s).state.Kept true (Parser.resilient recovery part a setting s).state := by
  rw [resilient_eq hs]
  cases part a setting s with
  | ok b after => exact .refl after
  | fail e after => exact (State.Kept.record setting e after).trans (kept_recover ..)

theorem resilient {recovery : Recovery} {part : σ → Parser σ} {a : σ} (hpart : (part a).Keeps true) :
    (resilient recovery part a).Keeps true := by
  intro setting s
  cases hs : s.halted with
  | true =>
    unfold Parser.resilient
    rw [hs]
    exact .skip _ s
  | false => exact (hpart setting s).trans (kept_resilient hs)

theorem attempt_of_quiet {p : Parser α} {e : ParseError} {after : State}
    (hreply : p setting s = .fail e after) (herrors : after.errors = s.errors)
    (hhalted : after.halted = s.halted) : Parser.attempt p setting s = .ok none s := by
  rw [Parser.attempt, hreply]
  simp only [herrors, hhalted, List.take_length]

/-- A trial that records nothing leaves everything as it was if it fails. -/
theorem attempt_of_fail {p : Parser α} (hp : p.Keeps false) {e : ParseError} {after : State}
    (hreply : p setting s = .fail e after) : attempt p setting s = .ok none s := by
  have hkept := hp setting s
  rw [hreply] at hkept
  have herrors : after.errors = s.errors := hkept.silent rfl
  exact attempt_of_quiet hreply herrors (hkept.unspent herrors)

theorem attempt_of_ok {p : Parser α} {a : α} {after : State} (hreply : p setting s = .ok a after) :
    attempt p setting s = .ok (some a) after := by
  rw [Parser.attempt, hreply]

theorem attempt {p : Parser α} (hp : p.Keeps false) : (attempt p).Keeps true := by
  intro setting s
  cases hreply : p setting s with
  | ok a after =>
    rw [attempt_of_ok hreply]
    exact (hp.kept hreply).louder nofun
  | fail e after =>
    rw [attempt_of_fail hp hreply]
    exact .refl s

theorem guess {p : Parser α} {q : α → Parser β} {r : Parser β} (hp : p.Keeps false)
    (hq : ∀ a, p.Answers a → (q a).Keeps true) (hr : r.Keeps true) : (guess p q r).Keeps true := by
  refine .bind (fun _ s => .refl s) fun lambdas _ => ?_
  split
  · refine .bind (attempt hp) fun found hfound => ?_
    cases found with
    | none => exact hr
    | some a =>
      obtain ⟨setting, s, after, hreply⟩ := hfound
      cases htrial : p setting s with
      | ok b after' =>
        rw [attempt_of_ok htrial] at hreply
        cases hreply
        exact hq a ⟨setting, s, after, htrial⟩
      | fail e after' =>
        rw [attempt_of_fail hp htrial] at hreply
        cases hreply
  · exact hr

theorem splice (g : Rules) (tokens : List Token) (span : Span) : (splice g tokens span).Keeps true := by
  intro setting s
  rw [splice_eq]
  cases wholeExpr g (.symbol .rightBrace) (setting.inSplice span)
      (s.inSplice (setting.inSplice span) tokens) with
  | ok e inner => exact .leaveSplice setting s inner
  | fail e inner => exact .leaveSplice setting s inner

theorem query (f : State → α) : (query f).Keeps loud := fun _ s => .refl s

theorem pure (a : α) : (Pure.pure a : Parser α).Keeps loud := fun _ s => .refl s

theorem freshId : freshId.Keeps loud := fun _ _ => .of_eq rfl rfl rfl rfl List.suffix_rfl

theorem advance : advance.Keeps loud := fun _ s => .advance s

theorem durationUnit? : durationUnit?.Keeps loud := fun setting s => by
  rw [durationUnit?_eq]
  exact .refl s

end Keeps

/-! ## Readings that go alike -/

/-- The first reading keeps what a reading keeps, and the second one has an answer for those of it;
it is the same the other way round if `both`. -/
structure KeepAlike (both : Prop) (loud : Bool) (R : α → α → Prop) (p p' : Parser α) : Prop where
  left : p.Keeps loud
  right : both → p'.Keeps loud
  answer : ∀ a, p.Answers a → ∃ a', R a a'
  answer' : both → ∀ a', p'.Answers a' → ∃ a, R a a'

namespace KeepAlike

variable {both : Prop} {R : α → α → Prop} {S : β → β → Prop} {p p' : Parser α}

theorem louder {loud' : Bool} (h : KeepAlike both loud R p p') (hloud : loud = true → loud' = true) :
    KeepAlike both loud' R p p' :=
  ⟨h.left.louder hloud, fun hboth => (h.right hboth).louder hloud, h.answer, h.answer'⟩

theorem keeps_left {loud' : Bool} {q q' : α → Parser β} (hp : KeepAlike both loud' R p p')
    (hq : ∀ a a', R a a' → KeepAlike both loud S (q a) (q' a')) (a : α) (ha : p.Answers a) :
    (q a).Keeps loud := by
  obtain ⟨a', h⟩ := hp.answer a ha
  exact (hq a a' h).left

theorem keeps_right {loud' : Bool} {q q' : α → Parser β} (hp : KeepAlike both loud' R p p')
    (hq : ∀ a a', R a a' → KeepAlike both loud S (q a) (q' a')) (hboth : both) (a' : α)
    (ha' : p'.Answers a') : (q' a').Keeps loud := by
  obtain ⟨a, h⟩ := hp.answer' hboth a' ha'
  exact (hq a a' h).right hboth

theorem bind {q q' : α → Parser β} (hp : KeepAlike both loud R p p')
    (hq : ∀ a a', R a a' → KeepAlike both loud S (q a) (q' a')) :
    KeepAlike both loud S (p >>= q) (p' >>= q') where
  left := .bind hp.left (hp.keeps_left hq)
  right hboth := .bind (hp.right hboth) (hp.keeps_right hq hboth)
  answer b hb := by
    obtain ⟨a, ha, hb⟩ := hb.of_bind
    obtain ⟨a', h⟩ := hp.answer a ha
    exact (hq a a' h).answer b hb
  answer' hboth b' hb' := by
    obtain ⟨a', ha', hb'⟩ := hb'.of_bind
    obtain ⟨a, h⟩ := hp.answer' hboth a' ha'
    exact (hq a a' h).answer' hboth b' hb'

/-- Something that is looked up in both states. -/
theorem lookup {γ : Type} {f f' : Setting → State → γ} {q q' : γ → Parser β}
    (h : ∀ setting s, ∃ c', KeepAlike both loud S (q (f setting s)) (q' c'))
    (h' : both → ∀ setting s, ∃ c, KeepAlike both loud S (q c) (q' (f' setting s))) :
    KeepAlike both loud S ((fun setting s => .ok (f setting s) s : Parser γ) >>= q)
      ((fun setting s => .ok (f' setting s) s : Parser γ) >>= q') where
  left setting s := by
    obtain ⟨c', h⟩ := h setting s
    exact h.left setting s
  right hboth setting s := by
    obtain ⟨c, h⟩ := h' hboth setting s
    exact h.right hboth setting s
  answer := fun b ⟨setting, s, after, hreply⟩ => by
    obtain ⟨c', h⟩ := h setting s
    exact h.answer b ⟨setting, s, after, hreply⟩
  answer' := fun hboth b ⟨setting, s, after, hreply⟩ => by
    obtain ⟨c, h⟩ := h' hboth setting s
    exact h.answer' hboth b ⟨setting, s, after, hreply⟩

theorem fails (e e' : Setting → State → ParseError) :
    KeepAlike both loud R (fun setting s => .fail (e setting s) s)
      (fun setting s => .fail (e' setting s) s) where
  left _ s := .refl s
  right _ _ s := .refl s
  answer := fun _ ⟨_, _, _, hreply⟩ => nomatch hreply
  answer' := fun _ _ ⟨_, _, _, hreply⟩ => nomatch hreply

theorem of_total (hleft : p.Keeps loud) (hright : p'.Keeps loud) (hR : ∀ a, ∃ a', R a a')
    (hR' : both → ∀ a', ∃ a, R a a') : KeepAlike both loud R p p' :=
  ⟨hleft, fun _ => hright, fun a _ => hR a, fun hboth a' _ => hR' hboth a'⟩

theorem value {a a' : α} (h : R a a') : KeepAlike both loud R (pure a) (pure a') := by
  refine ⟨.pure a, fun _ => .pure a', ?_, ?_⟩
  · rintro b ⟨_, _, _, hreply⟩
    cases hreply
    exact ⟨_, h⟩
  · rintro - b ⟨_, _, _, hreply⟩
    cases hreply
    exact ⟨_, h⟩

/-! ### Repetition -/

variable {T : σ → σ → Prop} {step step' : σ → Parser (Bool × σ)}

theorem repeatAlong (hstep : ∀ a a', T a a' →
      KeepAlike both loud (fun r r' => r.1 = r'.1 ∧ T r.2 r'.2) (step a) (step' a'))
    (fuel : List Lexeme) {a a' : σ} (ha : T a a') :
    KeepAlike both loud T (repeatAlong step fuel a) (repeatAlong step' fuel a') := by
  induction fuel generalizing a a' with
  | nil => exact (hstep a a' ha).bind fun r r' hr => .value hr.2
  | cons lexeme fuel ih =>
    refine (hstep a a' ha).bind ?_
    rintro ⟨again, b⟩ ⟨again', b'⟩ ⟨rfl, hb⟩
    simp only
    split
    · exact ih hb
    · exact .value hb

theorem loop (hstep : ∀ a a', T a a' →
      KeepAlike both loud (fun r r' => r.1 = r'.1 ∧ T r.2 r'.2) (step a) (step' a'))
    {a a' : σ} (ha : T a a') : KeepAlike both loud T (loop step a) (loop step' a') where
  left setting s := (repeatAlong hstep s.rest ha).left setting s
  right hboth setting s := (repeatAlong hstep s.rest ha).right hboth setting s
  answer := fun b ⟨setting, s, after, hreply⟩ =>
    (repeatAlong hstep s.rest ha).answer b ⟨setting, s, after, hreply⟩
  answer' := fun hboth b ⟨setting, s, after, hreply⟩ =>
    (repeatAlong hstep s.rest ha).answer' hboth b ⟨setting, s, after, hreply⟩

theorem resilient {part part' : σ → Parser σ} {a a' : σ} (recovery : Recovery) (ha : T a a')
    (h : KeepAlike both true T (part a) (part' a')) :
    KeepAlike both true (fun r r' => r.1 = r'.1 ∧ T r.2 r'.2) (Parser.resilient recovery part a)
      (Parser.resilient recovery part' a') := by
  refine ⟨.resilient h.left, fun hboth => .resilient (h.right hboth), fun r hr => ?_,
    fun hboth r' hr' => ?_⟩
  · obtain hr | hr := hr.of_resilient
    · exact ⟨(r.1, a'), rfl, hr ▸ ha⟩
    · obtain ⟨b', h⟩ := h.answer r.2 hr
      exact ⟨(r.1, b'), rfl, h⟩
  · obtain hr | hr := hr'.of_resilient
    · exact ⟨(r'.1, a), rfl, hr ▸ ha⟩
    · obtain ⟨b, h⟩ := h.answer' hboth r'.2 hr
      exact ⟨(r'.1, b), rfl, h⟩

theorem turnUntil {part part' : σ → Parser σ} {a a' : σ} (stop : State → Bool) (recovery : Recovery)
    (ha : T a a') (h : KeepAlike both true T (part a) (part' a')) :
    KeepAlike both true (fun r r' => r.1 = r'.1 ∧ T r.2 r'.2) (Parser.turnUntil stop recovery part a)
      (Parser.turnUntil stop recovery part' a') := by
  refine .bind (R := (· = ·)) (.of_total (.query _) (.query _) (fun a => ⟨a, rfl⟩) fun _ a => ⟨a, rfl⟩) ?_
  rintro stopped _ rfl
  cases stopped with
  | true => exact .value ⟨rfl, ha⟩
  | false => exact .resilient recovery ha h

end KeepAlike

theorem keeps_tooDeep : (tooDeep : Parser α).Keeps loud := fun _ s => .refl s

theorem keeps_stringParts (g : Rules) (fragments : List Fragment) :
    (stringParts g fragments).Keeps true := by
  induction fragments with
  | nil => exact .pure _
  | cons fragment fragments ih =>
    cases fragment with
    | text => exact .bind ih fun _ _ => .pure _
    | splice tokens span => exact .bind (.splice g tokens span) fun _ _ => .bind ih fun _ _ => .pure _

theorem keeps_interpolatedString (g : Rules) (fragments : List Fragment) :
    (interpolatedString g fragments).Keeps true :=
  .bind .advance fun _ _ => .bind (keeps_stringParts g fragments) fun _ _ => .pure _

/-- What is said of the second reading holds where no semicolon is missing. -/
theorem Alike.keepAlike {L : Comparison} {inside : Bool} {hand : Hand} {φ χ : Footing}
    {R : α → α → Prop} {p p' : Parser α} (h : Alike L loud inside hand φ χ R p p') :
    KeepAlike (L.mended = none) loud R p p' := by
  induction h with
  | value h => exact .value h
  | bind _ _ ihp ihq => exact ihp.bind ihq
  | weaken _ hloud _ _ _ _ hR ih =>
    have ih := ih.louder hloud
    exact ⟨ih.left, ih.right, fun a ha => (ih.answer a ha).imp (hR a),
      fun hboth a' ha' => (ih.answer' hboth a' ha').imp fun a => hR a a'⟩
  | settle _ _ ih => exact ih
  | separator => exact .of_total .advance .advance (fun a => ⟨a, trivial⟩) fun _ a => ⟨a, trivial⟩
  | unblock _ _ ih => exact ih
  | place f _ _ ih =>
    refine .lookup (fun setting s => ?_) fun hnone setting s => ?_
    · obtain ⟨span', h⟩ := L.exists_placed (s.span setting)
      exact ⟨f span', ih _ _ h⟩
    · exact ⟨f (s.span setting), ih _ _ (Comparison.placed_of_not hnone rfl)⟩
  | spanSince =>
    refine .of_total (.query _) (.query _) (fun span => ?_) fun hnone span => ?_
    · obtain ⟨span', h⟩ := L.exists_placed span
      exact ⟨span', h.1, fun _ _ _ => h⟩
    · exact ⟨span, rfl, fun _ _ _ => Comparison.placed_of_not hnone rfl⟩
  | freshId => exact .of_total .freshId .freshId (fun a => ⟨a, rfl⟩) fun _ a => ⟨a, rfl⟩
  | text _ _ _ _ _ _ ih => exact .lookup (fun setting s => ⟨_, ih _⟩) fun _ setting s => ⟨_, ih _⟩
  | kind _ _ _ _ _ _ ih =>
    exact .lookup (fun setting s => ⟨_, ih _ _ (.same _)⟩) fun _ setting s => ⟨_, ih _ _ (.same _)⟩
  | look known _ _ _ _ _ _ _ _ _ _ ih =>
    exact .lookup (fun setting s => ⟨_, ih s s (.same _) rfl⟩) fun _ setting s =>
      ⟨_, ih s s (.same _) rfl⟩
  | advance => exact .of_total .advance .advance (fun a => ⟨a, trivial⟩) fun _ a => ⟨a, trivial⟩
  | enter _ _ _ ih =>
    exact .bind (R := fun _ _ => True)
      (.of_total .advance .advance (fun a => ⟨a, trivial⟩) fun _ a => ⟨a, trivial⟩) fun _ _ _ => ih
  | fails => exact .fails _ _
  | refused _ _ _ ih =>
    exact ⟨keeps_tooDeep, ih.right, fun _ ⟨_, _, _, hreply⟩ => (nomatch hreply), ih.answer'⟩
  | semicolon =>
    exact .of_total .semicolon .semicolon (fun a => ⟨a, trivial⟩) fun _ a => ⟨a, trivial⟩
  | duplicate =>
    exact .of_total (fun setting s => .record setting _ s) (fun setting s => .record setting _ s)
      (fun a => ⟨a, trivial⟩) fun _ a => ⟨a, trivial⟩
  | inContext f _ _ ih =>
    exact ⟨.inContext ih.left, fun hboth => .inContext (ih.right hboth),
      fun a ha => ih.answer a ha.of_inContext,
      fun hboth a' ha' => ih.answer' hboth a' ha'.of_inContext⟩
  | nested _ _ ih =>
    exact ⟨.nested ih.left, fun hboth => .nested (ih.right hboth),
      fun a ha => ih.answer a ha.of_nested, fun hboth a' ha' => ih.answer' hboth a' ha'.of_nested⟩
  | loop _ _ _ _ ha ih => exact .loop ih ha
  | resilient recovery _ ha _ ih => exact .resilient recovery ha ih
  | parts parts stop _ _ _ _ _ _ ha ih =>
    exact .loop (fun b b' hb => .turnUntil stop parts.recovery hb (ih b b' hb)) ha
  | guess _ _ _ _ _ _ _ _ _ _ ihp ihq ihr =>
    refine ⟨.guess ihp.left (ihp.keeps_left ihq) ihr.left,
      fun hboth => .guess (ihp.right hboth) (ihp.keeps_right ihq hboth) (ihr.right hboth),
      fun b hb => ?_, fun hboth b' hb' => ?_⟩
    · obtain ⟨a, ha, hb⟩ | hb := hb.of_guess
      · obtain ⟨a', h⟩ := ihp.answer a ha
        exact (ihq a a' h).answer b hb
      · exact ihr.answer b hb
    · obtain ⟨a', ha', hb'⟩ | hb' := hb'.of_guess
      · obtain ⟨a, h⟩ := ihp.answer' hboth a' ha'
        exact (ihq a a' h).answer' hboth b' hb'
      · exact ihr.answer' hboth b' hb'
  | splice _ _ _ _ _ ih =>
    exact ⟨.splice _ _ _, fun _ => .splice _ _ _, fun a ha => ih.answer a ha.of_splice,
      fun hboth a' ha' => ih.answer' hboth a' ha'.of_splice⟩
  | interpolated =>
    exact .of_total (keeps_interpolatedString _ _) (keeps_interpolatedString _ _) (fun a => ⟨a, rfl⟩)
      fun _ a => ⟨a, rfl⟩
  | unit _ _ _ ihsome ihnone =>
    refine .bind (R := fun _ _ => True)
      (.of_total .advance .advance (fun a => ⟨a, trivial⟩) fun _ a => ⟨a, trivial⟩) fun _ _ _ => ?_
    refine .bind (R := (· = ·))
      (.of_total .durationUnit? .durationUnit? (fun a => ⟨a, rfl⟩) fun _ a => ⟨a, rfl⟩)
      fun unit _ h => ?_
    obtain rfl := h
    cases unit with
    | none => exact ihnone
    | some unit => exact ihsome unit ""

end Parser

end ActorFrontend
