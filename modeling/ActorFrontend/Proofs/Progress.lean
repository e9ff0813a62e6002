import ActorFrontend.Grammar.Session
import ActorFrontend.Proofs.Course.Items

/-!
# Progress

Whatever is read successfully is a token at least, and the cursor never leaves the tokens.  So every
repetition ends by itself, and a program is read to the end of its input, whatever the errors in it
and however tight the limits.
-/

namespace ActorFrontend

open ActorFrontend.Parser

variable {loud : Bool} {setting : Setting} {α σ : Type} {s : State} {g : Rules}

/-! ## Single readings -/

/-- The cursor stays among the tokens, and a reading that succeeds passes over one at least. -/
structure Parser.Steady (p : Parser α) : Prop where
  rest_suffix : ∀ setting s, (p setting s).state.rest <:+ s.rest
  rest_lt : ∀ setting s a s', p setting s = .ok a s' → s'.rest.length < s.rest.length

theorem Parser.Follows.steady {p : Parser α} (h : p.Consumes loud) : p.Steady where
  rest_suffix := by
    intro setting s
    have hrun := h setting s 0
    cases hreply : p setting s with
    | ok a s' =>
      rw [hreply] at hrun
      exact hrun.course.rest_suffix
    | fail e s' =>
      rw [hreply] at hrun
      obtain ⟨-, m, hcourse⟩ := hrun
      exact hcourse.rest_suffix
  rest_lt := by
    intro setting s a s' hreply
    have hrun := h setting s 0
    rw [hreply] at hrun
    exact hrun.shorter rfl

/-- The readings of everything that stands in a program. -/
structure Rules.Steady (g : Rules) : Prop where
  type : g.type.Steady
  pattern : g.pattern.Steady
  expr : ∀ minPower, (g.expr minPower).Steady
  block : g.block.Steady
  blockLike : g.blockLike.Steady
  matchArm : (matchArm g).Steady
  selectArm : (selectArm g).Steady
  /-- Arms of both sorts, timeouts among them. -/
  anyArm : ∀ arms, (anyArm g arms).Steady
  stmt : (stmt g).Steady
  fieldDecl : (fieldDecl g).Steady
  variant : (variant g).Steady
  wireMember : (wireMember g).Steady
  externFn : (externFn g).Steady
  traitItem : (traitItem g).Steady
  implItem : (implItem g).Steady
  /-- The members of an actor, `init` blocks among them. -/
  actorPart : ∀ found, (actorPart g found).Steady
  supervisorMember : (supervisorMember g).Steady
  item : (item g).Steady

theorem Rules.Follow.steady (hg : g.Follow) : g.Steady where
  type := hg.type.steady
  pattern := hg.pattern.steady
  expr minPower := (hg.expr minPower).steady
  block := hg.block.steady
  blockLike := hg.blockLike.steady
  matchArm := (consumes_matchArm hg).steady
  selectArm := (consumes_selectArm hg).steady
  anyArm arms := (consumes_anyArm hg arms).steady
  stmt := (consumes_stmt hg).steady
  fieldDecl := (consumes_fieldDecl hg.type).steady
  variant := (consumes_variant hg.type).steady
  wireMember := (consumes_wireMember hg).steady
  externFn := (consumes_externFn hg.type.louder).steady
  traitItem := (consumes_traitItem hg).steady
  implItem := (consumes_implItem hg).steady
  actorPart found := (consumes_actorPart hg found).steady
  supervisorMember := (consumes_supervisorMember hg).steady
  item := (consumes_item hg).steady

/-! ## Repetitions -/

/-- One turn of the reading of a program. -/
def Parser.programTurn (g : Rules) (items : List Item) : Parser (Bool × List Item) := do
  if ← atEnd then
    pure (false, items)
  else
    resilient .items (fun items => do
      let next ← item g
      pure (next :: items)) items

/-- A turn that reads one part, adds it to those found before and recovers from its errors. -/
def Parser.partsTurn (recovery : Recovery) (part : Parser α) : List α → Parser (Bool × List α) :=
  bodyTurn recovery fun found => do
    let next ← part
    pure (next :: found)

/-- Recovery between declarations passes over a token too, or over all that is left. -/
theorem ends_resilient_items {part : σ → Parser σ} {a : σ} (hpart : (part a).Consumes loud)
    (hne : s.rest ≠ []) :
    (resilient .items part a setting s).Ends
      (fun r s' => s'.rest <:+ s.rest ∧
        if r.1 = true then s'.rest.length < s.rest.length else s'.rest = [])
      fun _ => False := by
  have hskip : ∀ s : State, (s.skip (Recovery.items.abandon s.rest)).rest = [] := by
    intro s
    rw [State.rest_skip]
    exact List.drop_length
  have hrun := hpart setting s 0
  unfold resilient
  split
  · exact ⟨State.rest_skip_suffix _ _, hskip s⟩
  · cases hreply : part a setting s with
    | ok a' after =>
      rw [hreply] at hrun
      exact ⟨hrun.course.rest_suffix, hrun.shorter rfl⟩
    | fail error after =>
      rw [hreply] at hrun
      obtain ⟨-, m, hcourse⟩ := hrun
      have hsuffix := (State.rest_recover_suffix .items setting s error after).trans
        hcourse.rest_suffix
      simp only
      split
      case isTrue hhalted =>
        rw [State.recover, if_pos hhalted] at hsuffix
        exact ⟨hsuffix, hskip _⟩
      case isFalse hhalted =>
        have hlt := State.rest_recover_lt .items hne hcourse.rest_suffix.length_le
          (Bool.eq_false_iff.2 hhalted)
        rw [State.recover, if_neg hhalted] at hsuffix hlt
        exact ⟨hsuffix, hlt⟩

/-- A turn of a program passes over a token, or leaves the loop at the end of the input; it never
fails. -/
theorem ends_programTurn (hg : g.Follow) (items : List Item) :
    (programTurn g items setting s).Ends
      (fun r s' => s'.rest <:+ s.rest ∧
        if r.1 = true then s'.rest.length < s.rest.length else s'.rest = [])
      fun _ => False := by
  change ((if s.atEnd = true then _ else _ : Parser _) setting s).Ends _ _
  split
  case isTrue hend => exact ⟨List.suffix_rfl, List.isEmpty_iff.1 hend⟩
  case isFalse hend =>
    have hne : s.rest ≠ [] := fun hrest => hend (List.isEmpty_iff.2 hrest)
    exact ends_resilient_items (consumes_found (consumes_item hg) items) hne

theorem progresses_programTurn (hg : g.Follow) : Progresses (programTurn g) := by
  intro setting s items items' s' hreply
  have hrun : (programTurn g items setting s).Ends _ _ := ends_programTurn hg items
  rw [hreply] at hrun
  exact hrun.2

theorem progresses_partsTurn {recovery : Recovery} {part : Parser α}
    (hrecovery : recovery = .statements ∨ recovery = .members) (hpart : part.Consumes true) :
    Progresses (partsTurn recovery part) :=
  progresses fun found => follows_bodyTurn found hrecovery (consumes_found hpart)

/-- Every turn of a repetition that recovers from errors leaves the loop, or the cursor is further
on after it. -/
structure Rules.Progress (g : Rules) : Prop where
  program : Progresses (programTurn g)
  block : Progresses (partsTurn .statements (stmt g))
  externBlock : Progresses (partsTurn .members (externFn g))
  trait : Progresses (partsTurn .members (traitItem g))
  impl : Progresses (partsTurn .members (implItem g))
  actor : Progresses (bodyTurn .members (actorPart g))
  supervisor : Progresses (partsTurn .members (supervisorMember g))

theorem Rules.Follow.progress (hg : g.Follow) : g.Progress where
  program := progresses_programTurn hg
  block := progresses_partsTurn (.inl rfl) (consumes_stmt hg)
  externBlock := progresses_partsTurn (.inr rfl) (consumes_externFn hg.type.louder)
  trait := progresses_partsTurn (.inr rfl) (consumes_traitItem hg)
  impl := progresses_partsTurn (.inr rfl) (consumes_implItem hg)
  actor := progresses fun found => follows_bodyTurn found (.inr rfl) (consumes_actorPart hg)
  supervisor := progresses_partsTurn (.inr rfl) (consumes_supervisorMember hg)

/-! ## Programs -/

/-- A program is read to the end of the input. -/
theorem ends_program (hg : g.Follow) (setting : Setting) (s : State) :
    (program g setting s).Ends (fun _ s' => s'.rest = []) fun _ => False := by
  have hloop : (loop (programTurn g) [] setting s).Ends (fun _ s' => s'.rest = [])
      fun _ => False := by
    -- no more turns are asked for than there are tokens left
    refine ends_repeatAlong (fun fuel _ s => s.rest.length ≤ fuel) (fun _ s' => s'.rest = [])
      (fun fuel items s hle => ?_) (fun items s hle => ?_) (Nat.le_refl _)
    · refine (ends_programTurn hg items).imp (fun r s' hturn => ?_) fun _ hfail => hfail
      obtain ⟨-, hturn⟩ := hturn
      split
      case isTrue hagain =>
        rw [if_pos hagain] at hturn
        omega
      case isFalse hagain =>
        rw [if_neg hagain] at hturn
        exact hturn
    · refine (ends_programTurn hg items).imp (fun r s' hturn => ?_) fun _ hfail => hfail
      rw [List.length_eq_zero_iff.1 (Nat.le_zero.1 hle)] at hturn
      exact List.suffix_nil.1 hturn.1
  apply hloop.bind
  intro items s' hs'
  exact hs'

/-- Reading ends and consumes everything.  Whatever the tokens and the limits, a program is read to
the end of the input.  At every nesting level every reading keeps the cursor among the tokens and
passes over a token if it succeeds, and no turn of a recovering loop asks for another one without
having moved the cursor on. -/
theorem Session.program_reads_to_the_end (tokens : List Token) (limits : Limits) :
    let session := Session.ofTokens tokens limits
    (∃ program state, Parser.program session.rules session.setting session.state =
      .ok program state ∧ session.program = (program, { session with state }) ∧
        state.atEnd = true) ∧
    ∀ levels, (Rules.within levels).Steady ∧ (Rules.within levels).Progress := by
  intro session
  constructor
  · have hends := ends_program (Rules.follow_within limits.maxDepth) session.setting session.state
    change (Parser.program session.rules session.setting session.state).Ends _ _ at hends
    cases hreply : Parser.program session.rules session.setting session.state with
    | ok program state =>
      rw [hreply] at hends
      refine ⟨program, state, rfl, ?_, List.isEmpty_iff.2 hends⟩
      rw [Session.program, Session.run, hreply]
    | fail e state =>
      rw [hreply] at hends
      exact hends.elim
  · intro levels
    have hg := Rules.follow_within levels
    exact ⟨hg.steady, hg.progress⟩

end ActorFrontend
