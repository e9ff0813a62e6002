import ActorFrontend.Grammar.Expressions
import ActorFrontend.Proofs.Placement.Combinators

/-!
# What the readings of strings lay

The expressions of a string are read by readings of their own, from the tokens within the string.
What these lay stands inside the string, which the reading around it passes over as one token; their
numbers go on from those given out before, and the numbers of what follows go on from them.
-/

namespace ActorFrontend

open Source

/-- The state is at the same place, and further numbers may have been given out. -/
structure State.Renumbered (s s' : State) : Prop where
  rest : s'.rest = s.rest
  previousEnd : s'.previousEnd = s.previousEnd
  nextId_le : s.nextId ≤ s'.nextId

theorem State.Renumbered.trans {s s' s'' : State} (h : s.Renumbered s') (h' : s'.Renumbered s'') :
    s.Renumbered s'' :=
  ⟨h'.rest.trans h.rest, h'.previousEnd.trans h.previousEnd,
    Nat.le_trans h.nextId_le h'.nextId_le⟩

variable {source : List Char} {setting : Setting} {s : State} {g : Rules}

/-- The tokens passed over hold what was laid since. -/
theorem Trail.fill {s₀ s' : State} {os : List Outline} {b : Bool}
    (h : Trail source setting s₀ b s []) (hs : s.Renumbered s')
    (herrors : ∀ e ∈ s'.errors, e.span.Placed source)
    (hlaid : Laid source (s₀.span setting).start s.previousEnd s.nextId s'.nextId os) :
    Trail source setting s₀ b s' os where
  base := h.base
  located := h.located.congr hs.rest hs.previousEnd herrors
  start_le := by
    have hspan : s'.span setting = s.span setting := by simp only [State.span, hs.rest]
    exact hspan ▸ h.start_le
  previousEnd_le := hs.previousEnd ▸ h.previousEnd_le
  nextId_le := Nat.le_trans h.nextId_le hs.nextId_le
  passed := hs.previousEnd ▸ h.passed
  laid := by
    rw [hs.previousEnd]
    exact hlaid.mono (Nat.le_refl _) (Nat.le_refl _) h.nextId_le (Nat.le_refl _)

namespace Parser

theorem samePlace_foldl_record (setting : Setting) (errors : List ParseError) (s : State) :
    s.SamePlace (errors.foldl (fun s error => s.record setting error) s) := by
  induction errors generalizing s with
  | nil => exact ⟨rfl, rfl, rfl⟩
  | cons error errors ih =>
    have hrecord : s.SamePlace (s.record setting error) := by
      unfold State.record
      split <;> exact ⟨rfl, rfl, rfl⟩
    have hrest := ih (s.record setting error)
    exact ⟨hrest.rest.trans hrecord.rest, hrest.previousEnd.trans hrecord.previousEnd,
      hrest.nextId.trans hrecord.nextId⟩

/-- The errors of a splice are placed in the source that it is part of. -/
theorem errors_leaveSplice {inner : State} (hs : ∀ e ∈ s.errors, e.span.Placed source)
    (hinner : ∀ e ∈ inner.errors, e.span.Placed source) :
    ∀ e ∈ (leaveSplice setting s inner).errors, e.span.Placed source := by
  have hfold (errors : List ParseError) (herrors : ∀ e ∈ errors, e.span.Placed source) (s : State)
      (hs : ∀ e ∈ s.errors, e.span.Placed source) :
      ∀ e ∈ (errors.foldl (fun s error => s.record setting error) s).errors,
        e.span.Placed source := by
    induction errors generalizing s with
    | nil => exact hs
    | cons error errors ih =>
      obtain ⟨herror, hmore⟩ := List.forall_mem_cons.1 herrors
      exact ih hmore _ (State.Located.errors_record hs herror)
  exact hfold inner.errors hinner { s with nextId := inner.nextId } hs

theorem renumbered_leaveSplice {inner : State} (h : s.nextId ≤ inner.nextId) :
    s.Renumbered (leaveSplice setting s inner) ∧
      (leaveSplice setting s inner).nextId = inner.nextId := by
  have hplace := samePlace_foldl_record setting inner.errors { s with nextId := inner.nextId }
  exact ⟨⟨hplace.rest, hplace.previousEnd, hplace.nextId ▸ h⟩, hplace.nextId⟩

/-- A reading of one expression that must be all there is. -/
theorem lays_whole (hg : g.Lay source) (wanted : Expected) :
    (do
      let e ← expr g
      if ← atEnd then pure e else expected wanted).Lays source true outlines := by
  intro setting s hs
  apply (Trail.refl hs).bind (hg.expr 0)
  intro e s h
  apply Trail.query
  split
  · exact h.done rfl
  · exact h.failed rfl

/-- The expression of a splice stands within it. -/
theorem ends_splice (hg : g.Lay source) {tokens : List Token} {span : Span}
    (htokens : TokensAlong source span.start span.stop tokens)
    (hboundary : Boundary source span.stop) (hs : ∀ e ∈ s.errors, e.span.Placed source) :
    (splice g tokens span setting s).EndsWith
      (fun e s' => s.Renumbered s' ∧ (∀ e ∈ s'.errors, e.span.Placed source) ∧
        Laid source span.start span.stop s.nextId s'.nextId (outlines e))
      fun error s' => error.span.Placed source ∧ s.Renumbered s' ∧
        ∀ e ∈ s'.errors, e.span.Placed source := by
  -- the splice is read from its own tokens, and its input ends where the splice does
  let within : Setting := { setting with endOfInput := .empty span.stop }
  let entry : State :=
    { State.initial within (Lexeme.significant false tokens) with
      nextId := s.nextId
      depth := s.depth }
  have hentry : entry.Located source within :=
    (State.located_initial htokens hboundary rfl).congr rfl rfl nofun
  -- white space may stand before the first token that counts
  have hstart : span.start ≤ (entry.span within).start := by
    have hahead := htokens.significant false
    change span.start ≤ ((State.initial within _).span within).start
    unfold State.initial State.span
    cases hrest : Lexeme.significant false tokens with
    | nil => exact htokens.le
    | cons lexeme rest =>
      rw [hrest] at hahead
      exact hahead.1
  have hrun := lays_whole hg (.symbol .rightBrace) within entry hentry
  unfold splice
  simp only
  split
  case h_1 e inner hreply =>
    rw [hreply] at hrun
    obtain ⟨os, hos, htrail⟩ := hrun
    obtain ⟨hrenumbered, hnext⟩ := renumbered_leaveSplice (s := s) htrail.nextId_le
    refine ⟨hrenumbered, errors_leaveSplice hs htrail.located.errors, ?_⟩
    subst hos
    rw [hnext]
    exact htrail.laid.mono hstart htrail.located.ahead.le (Nat.le_refl _) (Nat.le_refl _)
  case h_2 error inner hreply =>
    rw [hreply] at hrun
    obtain ⟨herror, htrail⟩ := hrun
    -- the numbers that a failed splice has used up are not given out again
    exact ⟨herror, (renumbered_leaveSplice (s := s) htrail.nextId_le).1,
      errors_leaveSplice hs htrail.located.errors⟩

/-- The expressions of a string stand in its splices. -/
theorem ends_stringParts (hg : g.Lay source) {fragments : List Fragment} {lo hi : Nat}
    (hfragments : FragmentsAlong source lo hi fragments)
    (hs : ∀ e ∈ s.errors, e.span.Placed source) :
    (stringParts g fragments setting s).EndsWith
      (fun parts s' => s.Renumbered s' ∧ (∀ e ∈ s'.errors, e.span.Placed source) ∧
        Laid source lo hi s.nextId s'.nextId (outlines parts))
      fun error s' => error.span.Placed source ∧ s.Renumbered s' ∧
        ∀ e ∈ s'.errors, e.span.Placed source := by
  induction fragments generalizing lo s with
  | nil => exact ⟨⟨rfl, rfl, Nat.le_refl _⟩, hs, .nil⟩
  | cons fragment fragments ih =>
    cases fragment with
    | text value span =>
      apply (ih hfragments hs).bind
      intro parts s' h
      exact h
    | splice tokens span =>
      obtain ⟨hlo, hboundary, htokens, hrest⟩ := hfragments
      apply (ends_splice hg htokens hboundary hs).bind
      rintro e s₁ ⟨hfirst, hs₁, hlaid⟩
      apply ((ih hrest hs₁).imp (fun _ _ h => h) fun _ _ ⟨herror, h, hs'⟩ =>
        ⟨herror, hfirst.trans h, hs'⟩).bind
      rintro parts s₂ ⟨hmore, hs₂, hlaid'⟩
      -- the expression stands in its splice, so before the next fragment
      have hle := Nat.le_trans hlo htokens.le
      exact ⟨hfirst.trans hmore, hs₂, (hlaid.mono hlo (Nat.le_refl _) (Nat.le_refl _)
        (Nat.le_refl _)).append hlaid' hle (Nat.le_refl _) hrest.le hfirst.nextId_le
        (Nat.le_refl _) hmore.nextId_le⟩

theorem lays_interpolatedString (hg : g.Lay source) (hs : s.Located source setting)
    {fragments : List Fragment} (hkind : s.kind = .interpolated fragments) :
    (interpolatedString g fragments setting s).Lays source setting s true ExprKind.MadeOf := by
  have hne : s.kind ≠ .endOfFile := by simp [hkind]
  have hfragments := hs.fragmentsAlong hkind
  rw [← State.span_stop_advance hne] at hfragments
  apply (Trail.refl hs).past hne
  intro h
  have hparts : (stringParts g fragments setting s.advance).Lays source setting s true
      fun parts os => outlines parts = os :=
    (ends_stringParts hg hfragments h.located.errors).imp
      (fun parts s' ⟨hrenumbered, herrors, hlaid⟩ => ⟨_, rfl, h.fill hrenumbered herrors hlaid⟩)
      fun e s' ⟨herror, hrenumbered, herrors⟩ =>
        ⟨herror, (h.fill hrenumbered herrors .nil).weaken⟩
  apply hparts.bind
  intro parts s os hos h
  exact h.done (.whole (by simp [hos, ExprKind.parts]))

end Parser

end ActorFrontend
