import ActorFrontend.Grammar.Session
import ActorFrontend.Proofs.Precedence.Completeness
import ActorFrontend.Proofs.Precedence.Soundness

/-!
# Which terms sessions read

Of an expression a session reads the one term that is canonical on the level asked for, and nothing
that is not canonical.
-/

namespace ActorFrontend

variable {m : Nat} {t t' : Term} {ks : List TokenKind}

theorem OperatorToken.exists_token (op : OperatorToken) : ∃ k, ofToken? k = some op := by
  cases op with
  | binary op =>
    cases op with
    | add => exact ⟨.symbol .plus, rfl⟩
    | sub => exact ⟨.symbol .minus, rfl⟩
    | mul => exact ⟨.symbol .star, rfl⟩
    | div => exact ⟨.symbol .slash, rfl⟩
    | mod => exact ⟨.symbol .percent, rfl⟩
    | eq => exact ⟨.symbol .eqEq, rfl⟩
    | ne => exact ⟨.symbol .bangEq, rfl⟩
    | lt => exact ⟨.symbol .lt, rfl⟩
    | gt => exact ⟨.symbol .gt, rfl⟩
    | le => exact ⟨.symbol .ltEq, rfl⟩
    | ge => exact ⟨.symbol .gtEq, rfl⟩
    | and => exact ⟨.symbol .ampAmp, rfl⟩
    | or => exact ⟨.symbol .pipePipe, rfl⟩
    | send => exact ⟨.symbol .leftArrow, rfl⟩
  | range inclusive =>
    cases inclusive with
    | false => exact ⟨.symbol .dotDot, rfl⟩
    | true => exact ⟨.symbol .dotDotEq, rfl⟩

mutual

/-- Every term has tokens that spell it. -/
theorem Term.exists_spelled (t : Term) : ∃ ks, t.Spelled ks := by
  cases t with
  | int value => exact ⟨_, .int⟩
  | name name => exact ⟨_, .name⟩
  | paren inner =>
    obtain ⟨ks, hks⟩ := inner.exists_spelled
    exact ⟨_, .paren hks⟩
  | call callee args =>
    obtain ⟨ks, hks⟩ := callee.exists_spelled
    obtain ⟨ks', hks'⟩ := Term.exists_spelledArgs args
    exact ⟨_, .call hks hks'⟩
  | index object index =>
    obtain ⟨ks, hks⟩ := object.exists_spelled
    obtain ⟨ks', hks'⟩ := index.exists_spelled
    exact ⟨_, .index hks hks'⟩
  | field object name =>
    obtain ⟨ks, hks⟩ := object.exists_spelled
    exact ⟨_, .field hks⟩
  | methodCall object method args =>
    obtain ⟨ks, hks⟩ := object.exists_spelled
    obtain ⟨ks', hks'⟩ := Term.exists_spelledArgs args
    exact ⟨_, .methodCall hks hks'⟩
  | propagate operand =>
    obtain ⟨ks, hks⟩ := operand.exists_spelled
    exact ⟨_, .propagate hks⟩
  | prefixed op operand =>
    obtain ⟨ks, hks⟩ := operand.exists_spelled
    exact ⟨_, .prefixed hks⟩
  | operation op left right =>
    obtain ⟨k, hk⟩ := op.exists_token
    obtain ⟨ks, hks⟩ := left.exists_spelled
    obtain ⟨ks', hks'⟩ := right.exists_spelled
    exact ⟨_, .operation hk hks hks'⟩

theorem Term.exists_spelledArgs (args : List Term) : ∃ ks, Term.SpelledArgs args ks := by
  cases args with
  | nil => exact ⟨_, .nil⟩
  | cons arg args =>
    obtain ⟨ks, hks⟩ := arg.exists_spelled
    obtain ⟨ks', hks'⟩ := Term.exists_spelledArgs args
    exact ⟨_, .cons hks hks'⟩

end

/-- Tokens spell one canonical term at most. -/
theorem Term.Canonical.unique (ht : t.Canonical m) (ht' : t'.Canonical m) (hm : m ≤ 19)
    (hks : t.Spelled ks) (hks' : t'.Spelled ks) : t = t' := by
  let setting : Setting := ⟨⟨1, max t.nesting t'.nesting + 1⟩, .empty 0⟩
  let s : State := .initial setting (ks.map fun k => ⟨⟨k, "", .empty 0⟩, false⟩)
  have hs : s.kinds = ks ++ [] := by
    show (ks.map _).map _ = _
    rw [List.map_map, List.append_nil]
    exact List.map_id ks
  have hlevels : 0 + setting.limits.maxDepth ≤ setting.limits.maxDepth := by omega
  have hread := ht.reads hm hks (Nat.lt_succ_of_le (Nat.le_max_left t.nesting t'.nesting)) hlevels
  have hread' := ht'.reads hm hks' (Nat.lt_succ_of_le (Nat.le_max_right t.nesting t'.nesting)) hlevels
  -- both terms are read from the same tokens, and a reading has one answer
  obtain ⟨e, after, hrun, he, -⟩ := (hread s [] hs rfl (.nil m)).exists_eq
  obtain ⟨e', after', hrun', he', -⟩ := (hread' s [] hs rfl (.nil m)).exists_eq
  rw [hrun] at hrun'
  cases hrun'
  rw [he] at he'
  cases he'
  rfl

/-- A session reads the canonical terms.  Tokens that spell one are read as that term, all of them,
if the limits allow it.  Whatever term is read is canonical, the tokens read spell it, and the next
token, if it has a power, has too little of it. -/
theorem Session.expr_reads_canonical (tokens : List Token) (limits : Limits) (hm : m ≤ 19)
    (t : Term) :
    let session := Session.ofTokens tokens limits
    (t.Canonical m → t.Spelled session.state.kinds → t.nesting < limits.maxDepth →
      ∃ e after, session.expr m = (.ok e, after) ∧ e.term? = some t ∧ after.atEnd = true) ∧
    (Unindexed session.state.kinds → ∀ e after, session.expr m = (.ok e, after) →
      e.term? = some t →
        t.Canonical m ∧ t.nesting < limits.maxDepth ∧
        (∃ ks, t.Spelled ks ∧ session.state.kinds = ks ++ after.state.kinds) ∧
        Stops m after.state.kinds) := by
  intro session
  constructor
  · intro ht hks hnesting
    -- the tokens are used up, so nothing stands behind the term that could go on with it
    have hread : session.rules.Reads session.setting 0 m t session.state.kinds :=
      ht.reads hm hks hnesting (by show 0 + limits.maxDepth ≤ limits.maxDepth; omega)
    obtain ⟨e, after, hrun, he, hkinds, -⟩ :=
      (hread session.state [] (List.append_nil _).symm rfl (.nil m)).exists_eq
    refine ⟨e, { session with state := after }, ?_, he, ?_⟩
    · rw [Session.expr, Session.run, hrun]
    · have hrest : after.rest = [] := List.map_eq_nil_iff.1 hkinds
      simp [Session.atEnd, State.atEnd, hrest]
  · intro hnames e after hrun ht
    have hsound := Rules.sound_within limits.maxDepth m session.setting session.state
    change session.run ((Rules.within limits.maxDepth).expr m) = _ at hrun
    unfold Session.run at hrun
    cases hreply : (Rules.within limits.maxDepth).expr m session.setting session.state with
    | ok e' state =>
      rw [hreply] at hrun hsound
      cases hrun
      have hread := hsound hnames t ht
      exact ⟨hread.canonical, hread.nesting, hread.spelled, hread.stops⟩
    | fail error state =>
      rw [hreply] at hrun
      cases hrun

/-- `-a.b(1)? + c <- 0 ..= d` -/
theorem Session.expr_reads_send :
    (0 : Nat) ≤ 19 ∧ ∃ e after,
      (Session.ofTokens ([.symbol .minus, .ident "a", .symbol .dot, .ident "b", .symbol .leftParen,
        .int 1, .symbol .rightParen, .symbol .question, .symbol .plus, .ident "c",
        .symbol .leftArrow, .int 0, .symbol .dotDotEq, .ident "d", .endOfFile].map
        fun k => ⟨k, "", .empty 0⟩) .standard).expr 0 = (.ok e, after) ∧
      e.term? = some (.operation (.binary .send)
        (.operation (.binary .add)
          (.prefixed .neg (.propagate (.methodCall (.name "a") "b" [.int 1]))) (.name "c"))
        (.operation (.range true) (.int 0) (.name "d"))) ∧
      after.atEnd = true := by
  refine ⟨by decide, (Session.expr_reads_canonical _ _ (by decide) _).1 ?_ ?_ (by decide)⟩
  · refine .operation (Nat.zero_le _) ?_ ?_
    · refine .operation (by decide) (.prefixed (.propagate rfl ?_)) .name
      exact .methodCall rfl .name fun arg harg => List.mem_singleton.1 harg ▸ .int
    · exact .operation (by decide) .int .name
  · have hcall : (Term.methodCall (.name "a") "b" [.int 1]).Spelled [.ident "a", .symbol .dot,
        .ident "b", .symbol .leftParen, .int 1, .symbol .rightParen] :=
      .methodCall .name (.last .int)
    have hsum : (Term.operation (.binary .add)
        (.prefixed .neg (.propagate (.methodCall (.name "a") "b" [.int 1]))) (.name "c")).Spelled
        [.symbol .minus, .ident "a", .symbol .dot, .ident "b", .symbol .leftParen, .int 1,
          .symbol .rightParen, .symbol .question, .symbol .plus, .ident "c"] :=
      .operation rfl (.prefixed (.propagate hcall)) .name
    have hrange : (Term.operation (.range true) (.int 0) (.name "d")).Spelled
        [.int 0, .symbol .dotDotEq, .ident "d"] :=
      .operation rfl .int .name
    exact .operation rfl hsum hrange

end ActorFrontend
