import ActorFrontend.Grammar.Session
import ActorFrontend.Proofs.Course.Statements

/-!
# Speculation

A parenthesis is first taken for the head of a lambda.  Such a head holds names and types only, in
which no error is recorded, so a trial that fails is undone completely: what follows reads the
parenthesis as if it had never been tried.
-/

namespace ActorFrontend

open ActorFrontend.Parser

variable {levels : Nat} {setting : Setting} {s after : State} {e : ParseError}

/-- The trial of a head that fails changes nothing. -/
theorem Parser.attempt_lambdaHead_of_fail
    (h : lambdaHead (.within levels) setting s = .fail e after) :
    attempt (lambdaHead (.within levels)) setting s = .ok none s :=
  attempt_eq_of_fail (consumes_lambdaHead (Rules.follow_within levels).type) h

/-- Behind such a trial the reading is that of brackets. -/
theorem Parser.parenOrLambda_of_fail
    (h : lambdaHead (.within levels) setting s = .fail e after) :
    parenOrLambda (.within levels) setting s = parenOrTuple (.within levels) setting s := by
  change (if s.context.lambdas = true then _ else _ : Parser ExprKind) setting s = _
  split
  · rw [bind_ok (attempt_lambdaHead_of_fail h)]
  · rfl

/-- Readings that answer alike make expressions alike. -/
theorem Parser.asExpr_congr {kind kind' : Parser ExprKind} (h : kind setting s = kind' setting s) :
    asExpr kind setting s = asExpr kind' setting s := by
  simp only [asExpr, start_bind]
  change bind kind _ setting s = bind kind' _ setting s
  rw [bind, bind, h]

theorem Session.run_congr {α : Type} {p q : Parser α} {session : Session}
    (h : p session.setting session.state = q session.setting session.state) :
    session.run p = session.run q := by
  rw [run, run, h]

/-- A lambda head that is rejected leaves no trace.  After the trial the session is what it was
before, and the parenthesis is read, with the same answer and the same session after it, as if it
had been known to be none of a lambda. -/
theorem Session.rejected_lambdaHead_leaves_no_trace (levels : Nat) (session after : Session)
    (e : ParseError) (hparen : session.state.kind = .symbol .leftParen)
    (hfail : session.run (lambdaHead (.within levels)) = (.error e, after)) :
    session.run (attempt (lambdaHead (.within levels))) = (.ok none, session) ∧
      session.run (parenOrLambda (.within levels)) = session.run (parenOrTuple (.within levels)) ∧
      session.run (operand (.within levels)) =
        session.run (asExpr (parenOrTuple (.within levels))) := by
  have hhead : ∃ state, lambdaHead (.within levels) session.setting session.state =
      .fail e state := by
    unfold Session.run at hfail
    split at hfail
    case h_1 => cases hfail
    case h_2 error state hreply =>
      cases hfail
      exact ⟨state, hreply⟩
  obtain ⟨state, hhead⟩ := hhead
  have hparens := parenOrLambda_of_fail hhead
  refine ⟨?_, run_congr hparens, run_congr ?_⟩
  · rw [Session.run, attempt_lambdaHead_of_fail hhead]
  · rw [operand, kind_bind, hparen]
    exact asExpr_congr hparens

/-- In `(a, 1)` the head of a lambda is rejected at the number. -/
theorem Session.lambdaHead_rejected_at_number :
    let session := Session.ofTokens ([.symbol .leftParen, .ident "a", .symbol .comma, .int 1,
      .symbol .rightParen].map fun kind => ⟨kind, "", .empty 0⟩) .standard
    session.state.kind = .symbol .leftParen ∧ session.state.context.lambdas = true ∧
      session.run (attempt (lambdaHead (.within 2))) = (.ok none, session) := by
  intro session
  have hfail : ∃ e after, session.run (lambdaHead (.within 2)) = (.error e, after) := ⟨_, _, rfl⟩
  obtain ⟨e, after, hfail⟩ := hfail
  exact ⟨rfl, rfl, (rejected_lambdaHead_leaves_no_trace 2 session after e rfl hfail).1⟩

end ActorFrontend
