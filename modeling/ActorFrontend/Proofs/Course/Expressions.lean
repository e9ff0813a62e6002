import ActorFrontend.Proofs.Course.Types

/-!
# The courses of expressions
-/

namespace ActorFrontend

variable {loud : Bool} {setting : Setting} {s : State} {n : Nat} {g : Rules}

/-- The unit after an integer, if there is one. -/
theorem Stretch.unit {β : Type} {s₀ : State} {n₀ : Nat} {b : Bool} {eats : β → Bool}
    {yes : DurationUnit → Parser β} {no : Parser β} (h : Stretch loud setting s₀ n₀ b s n)
    (hyes : ∀ unit, Stretch loud setting s₀ n₀ true s.advance n →
      (yes unit setting s.advance).Follows loud setting s₀ n₀ eats n)
    (hno : (no setting s).Follows loud setting s₀ n₀ eats n) :
    ((do
      match ← Parser.durationUnit? with
      | some unit =>
          Parser.advance
          yes unit
      | none => no) setting s).Follows loud setting s₀ n₀ eats n := by
  have hunit : ∃ unit, Parser.durationUnit? setting s = .ok unit s ∧
      (unit.isSome = true → s.kind.isName = true) := by
    unfold Parser.durationUnit?
    split
    case h_1 suffix hkind =>
      split
      · exact ⟨_, rfl, fun _ => hkind ▸ rfl⟩
      · exact ⟨_, rfl, nofun⟩
    case h_2 => exact ⟨_, rfl, nofun⟩
  obtain ⟨unit, hunit, hname⟩ := hunit
  rw [Parser.bind_ok hunit]
  cases unit with
  | none => exact hno
  | some unit =>
    have hplain : Plain TokenKind.isName := ⟨rfl, rfl, rfl⟩
    exact hyes unit (h.advanceOver (hplain.isBrace_eq_false (hname rfl))
      (hplain.ne_endOfFile (hname rfl)))

namespace Parser

/-! ## Expressions in special contexts -/

theorem follows_asExpr {kind : Parser ExprKind}
    (hkind : (kind setting s).Follows loud setting s n (fun _ => true) n) :
    (asExpr kind setting s).Follows loud setting s n (fun _ => true) n := by
  apply Stretch.start
  apply Stretch.refl.step hkind
  intro kind s h
  exact h.node fun _ _ => rfl

theorem consumes_condition (hg : g.Follow) : (condition g).Consumes true :=
  fun setting s n => follows_withContext (hg.expr 0) _ setting s n

theorem consumes_armHead (hg : g.Follow) : (armHead g).Consumes true :=
  fun setting s n => follows_withContext (hg.expr 0) _ setting s n

theorem consumes_blockExpr (hg : g.Follow) : (blockExpr g).Consumes true := by
  intro setting s n
  apply follows_asExpr
  apply Stretch.refl.bind hg.block
  intro block s h
  exact h.done fun _ => rfl

theorem consumes_armBody (hg : g.Follow) : (armBody g).Consumes true := by
  intro setting s n
  apply Stretch.query
  split
  · exact consumes_blockExpr hg setting s n
  · exact hg.expr 0 setting s n

/-- Arguments between brackets that are no braces. -/
theorem consumes_exprList (hg : g.Follow) {close : Symbol} (hclose : Plain (·.isSymbol close)) :
    (commaList close (expr g)).Consumes true :=
  consumes_commaList (hg.expr 0).mayConsume hclose

theorem consumes_args (hg : g.Follow) : (args g).Consumes true := by
  intro setting s n
  apply Stretch.refl.bind (consumes_expect ⟨rfl, rfl, rfl⟩)
  intro _ s h
  exact h.last (follows_enclosed (consumes_exprList hg ⟨rfl, rfl, rfl⟩)) fun _ _ => rfl

/-! ## Literals -/

theorem follows_integerOrDuration {value : UInt64} (hs : s.kind = .int value) :
    (integerOrDuration value setting s).Follows loud setting s n (fun _ => true) n := by
  apply Stretch.refl.past hs rfl nofun
  intro h
  apply h.unit
  · intro unit h
    exact h.done fun _ => rfl
  · exact h.done fun _ => rfl

theorem consumes_duration : duration.Consumes loud := by
  intro setting s n
  apply Stretch.refl.bind (consumes_valueOf ⟨rfl, rfl, rfl⟩ _)
  intro value s h
  apply h.unit
  · intro unit h
    exact h.done fun _ => rfl
  · exact h.failed rfl

/-- An expression that must be all there is. -/
def wholeExpr (g : Rules) (wanted : Expected) : Parser Expr := do
  let e ← expr g
  if ← atEnd then pure e else expected wanted

theorem consumes_wholeExpr (hg : g.Follow) (wanted : Expected) :
    (wholeExpr g wanted).Consumes true := by
  intro setting s n
  apply Stretch.refl.bind (hg.expr 0)
  intro e s h
  apply Stretch.query
  split
  · exact h.done fun _ => rfl
  · exact h.failed rfl

/-- A splice is read from tokens of its own. -/
theorem mayConsume_splice (hg : g.Follow) (tokens : List Token) (span : Span) :
    (splice g tokens span).MayConsume true := by
  intro setting s n
  let within := setting.inSplice span
  let entry := s.inSplice within tokens
  have hrun := consumes_wholeExpr hg (.symbol .rightBrace) within entry 0
  unfold splice
  simp only
  split
  case h_1 e inner hreply =>
    replace hrun : (Reply.ok e inner).Follows true within entry 0 (fun _ => true) 0 := by
      rw [← hreply]
      exact hrun
    exact Stretch.refl.stay (.splice tokens span rfl hrun.course) (State.rest_leaveSplice ..)
  case h_2 error inner hreply =>
    replace hrun : (Reply.fail (α := Expr) error inner).Follows true within entry 0
        (fun _ => true) 0 := by
      rw [← hreply]
      exact hrun
    obtain ⟨herror, m, hcourse⟩ := hrun
    exact ⟨herror, n, .splice tokens span rfl hcourse⟩

theorem mayConsume_stringParts (hg : g.Follow) (fragments : List Fragment) :
    (stringParts g fragments).MayConsume true := by
  induction fragments with
  | nil => exact fun _ _ _ => Stretch.refl
  | cons fragment fragments ih =>
    intro setting s n
    cases fragment with
    | text value span =>
      apply Stretch.refl.bind ih
      intro more s h
      exact h.done nofun
    | splice tokens span =>
      apply Stretch.refl.bind (mayConsume_splice hg tokens span)
      intro e s h
      apply h.bind ih
      intro more s h
      exact h.done nofun

theorem follows_interpolatedString (hg : g.Follow) {fragments : List Fragment}
    (hs : s.kind = .interpolated fragments) :
    (interpolatedString g fragments setting s).Follows true setting s n (fun _ => true) n := by
  apply Stretch.refl.past hs rfl nofun
  intro h
  apply h.bind (mayConsume_stringParts hg fragments)
  intro parts s h
  exact h.done fun _ => rfl

/-! ## Names -/

theorem consumes_fieldInit (hg : g.Follow) : (fieldInit g).Consumes true := by
  intro setting s n
  apply Stretch.start
  apply Stretch.span
  apply Stretch.refl.bind consumes_name
  intro name s h
  apply h.ifAccept ⟨rfl, rfl, rfl⟩
  · intro h
    apply h.bind (hg.expr 0)
    intro value s h
    exact h.part fun _ _ => rfl
  · apply h.bind mayConsume_freshId
    intro id s h
    exact h.part fun _ _ => rfl

theorem consumes_pathExpr (hg : g.Follow) : (pathExpr g).Consumes true := by
  intro setting s n
  apply Stretch.refl.bind consumes_path
  intro path s h
  apply Stretch.query
  split
  · apply h.step (follows_expect_leftBrace _ _ _)
    intro _ s h
    apply h.step (Stretch.withContext _ (follows_commaList (consumes_fieldInit hg).mayConsume
      fun s => follows_expect_rightBrace _ s _))
    intro fields s h
    exact h.done fun _ => rfl
  · split <;> exact h.done fun _ => rfl

/-! ## Brackets and lambdas -/

theorem consumes_lambdaParam (hg : g.type.Consumes loud) : (lambdaParam g).Consumes loud := by
  intro setting s n
  apply Stretch.start
  apply Stretch.refl.bind consumes_name
  intro name s h
  apply h.bind (mayConsume_typeAfterColon hg)
  intro type s h
  exact h.part fun _ _ => rfl

/-- The head of a lambda holds names and types only. -/
theorem consumes_lambdaHead (hg : g.type.Consumes loud) : (lambdaHead g).Consumes loud := by
  intro setting s n
  apply Stretch.refl.bind (consumes_expect ⟨rfl, rfl, rfl⟩)
  intro _ s h
  apply h.bind (consumes_commaList (consumes_lambdaParam hg).mayConsume ⟨rfl, rfl, rfl⟩)
  intro params s h
  apply h.bind (mayConsume_resultType hg)
  intro ret s h
  apply h.bind (consumes_expect ⟨rfl, rfl, rfl⟩)
  intro _ s h
  exact h.done fun _ => rfl

theorem consumes_lambda (hg : g.Follow) : (lambda g).Consumes true := by
  intro setting s n
  apply Stretch.refl.bind (follows_acceptIf ⟨rfl, rfl, rfl⟩)
  intro isMove s h
  apply h.weaken.bind (consumes_lambdaHead hg.type.louder)
  rintro ⟨params, ret⟩ s h
  apply h.bind (hg.expr 0)
  intro body s h
  exact h.done fun _ => rfl

theorem follows_parenOrTuple (hg : g.Follow) (hs : s.kind = .symbol .leftParen) :
    (parenOrTuple g setting s).Follows true setting s n (fun _ => true) n := by
  have hinner : (do
      if ← accept .rightParen then
        pure (ExprKind.tuple [])
      else
        let first ← expr g
        if ← accept .comma then
          let more ← commaList .rightParen (expr g)
          pure (.tuple (first :: more))
        else
          expect .rightParen
          pure (.paren first)).Consumes true := by
    intro setting s n
    apply Stretch.refl.ifAccept ⟨rfl, rfl, rfl⟩ (fun h => h.done fun _ => rfl)
    apply Stretch.refl.bind (hg.expr 0)
    intro first s h
    apply h.ifAccept ⟨rfl, rfl, rfl⟩
    · intro h
      apply h.bind (consumes_exprList hg ⟨rfl, rfl, rfl⟩)
      intro more s h
      exact h.done fun _ => rfl
    · apply h.bind (consumes_expect ⟨rfl, rfl, rfl⟩)
      intro _ s h
      exact h.done fun _ => rfl
  apply Stretch.refl.past hs rfl nofun
  intro h
  exact h.last (follows_enclosed hinner) fun _ _ => rfl

theorem follows_parenOrLambda (hg : g.Follow) (hs : s.kind = .symbol .leftParen) :
    (parenOrLambda g setting s).Follows true setting s n (fun _ => true) n := by
  apply Stretch.query
  split
  · cases hreply : lambdaHead g setting s with
    | ok head after =>
      have hattempt : attempt (lambdaHead g) setting s = .ok (some head) after := by
        rw [attempt, hreply]
      have hhead : (lambdaHead g setting s).Follows true setting s n (fun _ => true) n :=
        consumes_lambdaHead hg.type.louder setting s n
      rw [hreply] at hhead
      rw [bind_ok hattempt]
      apply Stretch.bind hhead (hg.expr 0)
      intro body s h
      exact h.done fun _ => rfl
    | fail e after =>
      rw [bind_ok (attempt_eq_of_fail (consumes_lambdaHead hg.type) hreply)]
      exact follows_parenOrTuple hg hs
  · exact follows_parenOrTuple hg hs

theorem consumes_arrayExpr (hg : g.Follow) : (arrayExpr g).Consumes true := by
  have hinner : (do
      if ← accept .rightBracket then
        pure (ExprKind.array [])
      else
        let first ← expr g
        if ← accept .semicolon then
          let count ← expr g
          expect .rightBracket
          pure (.arrayRepeat first count)
        else
          let more ← commaTail .rightBracket (expr g)
          pure (.array (first :: more))).Consumes true := by
    intro setting s n
    apply Stretch.refl.ifAccept ⟨rfl, rfl, rfl⟩ (fun h => h.done fun _ => rfl)
    apply Stretch.refl.bind (hg.expr 0)
    intro first s h
    apply h.ifAccept ⟨rfl, rfl, rfl⟩
    · intro h
      apply h.bind (hg.expr 0)
      intro count s h
      apply h.bind (consumes_expect ⟨rfl, rfl, rfl⟩)
      intro _ s h
      exact h.done fun _ => rfl
    · apply h.bind (consumes_commaTail (hg.expr 0).mayConsume ⟨rfl, rfl, rfl⟩)
      intro more s h
      exact h.done fun _ => rfl
  intro setting s n
  apply Stretch.refl.bind (consumes_expect ⟨rfl, rfl, rfl⟩)
  intro _ s h
  exact h.last (follows_enclosed hinner) fun _ _ => rfl

/-! ## Control flow -/

theorem consumes_ifHead (hg : g.Follow) : (ifHead g).Consumes true := by
  intro setting s n
  apply Stretch.start
  apply Stretch.refl.bind (consumes_expectKeyword _)
  intro _ s h
  apply h.bind (consumes_condition hg)
  intro cond s h
  apply h.bind hg.block
  intro thenBranch s h
  exact h.done fun _ => rfl

theorem mayConsume_closeIfs (elseBranch : Option Expr) (heads : List OpenIf) :
    (closeIfs elseBranch heads).MayConsume loud := by
  induction heads generalizing elseBranch with
  | nil => exact fun _ _ _ => Stretch.refl
  | cons head heads ih =>
    intro setting s n
    apply Stretch.refl.bind (mayConsume_node _ _)
    intro e s h
    exact h.last (ih (some e)) nofun

/-- An `else`, and the `if` or the block after it. -/
def elseTurn (g : Rules) (chain : List OpenIf × Option Expr) :
    Parser (Bool × List OpenIf × Option Expr) := do
  if ← acceptKeyword .elseKw then
    if ← seesKeyword .ifKw then
      let next ← ifHead g
      pure (true, next :: chain.1, none)
    else
      let e ← blockExpr g
      pure (false, chain.1, some e)
  else
    pure (false, chain.1, none)

theorem follows_elseTurn (hg : g.Follow) (chain : List OpenIf × Option Expr) :
    (elseTurn g chain).Follows true Prod.fst := by
  intro setting s n
  refine Stretch.refl.ifAccept ⟨rfl, rfl, rfl⟩ (fun h => ?_) (Stretch.refl.done nofun)
  apply Stretch.query
  split
  · apply h.bind (consumes_ifHead hg)
    intro next s h
    exact h.done fun _ => rfl
  · apply h.bind (consumes_blockExpr hg)
    intro e s h
    exact h.done nofun

theorem consumes_ifExpr (hg : g.Follow) : (ifExpr g).Consumes true := by
  intro setting s n
  apply Stretch.refl.bind (consumes_ifHead hg)
  intro first s h
  apply h.bind (mayConsume_loop (follows_elseTurn hg) _)
  rintro ⟨heads, elseBranch⟩ s h
  apply h.bind (mayConsume_closeIfs elseBranch heads)
  intro inner s h
  exact h.node fun _ _ => rfl

theorem consumes_matchArm (hg : g.Follow) : (matchArm g).Consumes true := by
  intro setting s n
  apply Stretch.start
  apply Stretch.refl.bind hg.pattern.louder
  intro pattern s h
  apply h.bind (mayConsume_optional (follows_acceptIf ⟨rfl, rfl, rfl⟩) (consumes_armHead hg))
  intro guard s h
  apply h.bind (consumes_expect ⟨rfl, rfl, rfl⟩)
  intro _ s h
  apply h.bind (consumes_armBody hg)
  intro body s h
  apply h.bind (mayConsume_spanFrom _)
  intro span s h
  apply h.bind (follows_acceptIf ⟨rfl, rfl, rfl⟩)
  intro _ s h
  exact h.done fun _ => rfl

/-- One arm, unless the body ends here. -/
def matchTurn (g : Rules) : Parser (Bool × List MatchArm) := do
  if ← atBodyEnd then
    pure (false, [])
  else
    let arm ← matchArm g
    pure (true, [arm])

theorem follows_matchTurn (hg : g.Follow) : (matchTurn g).Follows true Prod.fst := by
  intro setting s n
  apply Stretch.query
  split
  · exact Stretch.refl.done nofun
  · apply Stretch.refl.bind (consumes_matchArm hg)
    intro arm s h
    exact h.done fun _ => rfl

theorem consumes_matchExpr (hg : g.Follow) : (matchExpr g).Consumes true := by
  intro setting s n
  apply Stretch.refl.bind (consumes_expectKeyword _)
  intro _ s h
  apply h.bind (consumes_condition hg)
  intro scrutinee s h
  apply h.step (follows_expect_leftBrace _ _ _)
  intro _ s h
  apply h.bind (follows_enclosed (mayConsume_collect (follows_matchTurn hg)))
  intro arms s h
  apply h.step (follows_expect_rightBrace _ _ _)
  intro _ s h
  exact h.done fun _ => rfl

theorem consumes_tryExpr (hg : g.Follow) : (tryExpr g).Consumes true := by
  intro setting s n
  apply Stretch.refl.bind (consumes_expectKeyword _)
  intro _ s h
  apply h.bind hg.block
  intro body s h
  apply Stretch.query
  split
  case isTrue hkind =>
    have hplain : Plain (·.isKeyword .catchKw) := ⟨rfl, rfl, rfl⟩
    apply Stretch.start
    apply h.past rfl (hplain.isBrace_eq_false hkind) (hplain.ne_endOfFile hkind)
    intro h
    apply h.bind (mayConsume_optional (mayConsume_query _) consumes_name)
    intro binding s h
    apply h.bind hg.block
    intro handler s h
    exact h.part fun _ _ => rfl
  case isFalse => exact h.done fun _ => rfl

/-! ## Concurrency -/

theorem consumes_spawnExpr (hg : g.Follow) : (spawnExpr g).Consumes true := by
  intro setting s n
  apply Stretch.refl.bind (consumes_expectKeyword _)
  intro _ s h
  apply Stretch.query
  split
  · apply h.bind (consumes_lambda hg)
    intro lambda s h
    exact h.done fun _ => rfl
  · apply h.bind consumes_name
    intro name s h
    apply h.bind (mayConsume_typeArgs hg.type.louder)
    intro typeArgs s h
    apply h.bind (consumes_args hg)
    intro args s h
    exact h.done fun _ => rfl

theorem consumes_selectArm (hg : g.Follow) : (selectArm g).Consumes true := by
  intro setting s n
  apply Stretch.start
  apply Stretch.refl.bind consumes_name
  intro binding s h
  apply h.bind (consumes_expectWord _)
  intro _ s h
  apply h.bind (consumes_armHead hg)
  intro source s h
  apply h.bind (consumes_expect ⟨rfl, rfl, rfl⟩)
  intro _ s h
  apply h.bind (consumes_armBody hg)
  intro body s h
  exact h.part fun _ _ => rfl

theorem follows_timeoutArm (hg : g.Follow) (hs : s.kind.isWord "after" = true) :
    (timeoutArm g setting s).Follows true setting s n (fun _ => true) n := by
  have hplain : Plain (·.isWord "after") := ⟨rfl, rfl, rfl⟩
  apply Stretch.start
  apply Stretch.refl.past rfl (hplain.isBrace_eq_false hs) (hplain.ne_endOfFile hs)
  intro h
  apply h.bind (consumes_armHead hg)
  intro duration s h
  apply h.bind (consumes_expect ⟨rfl, rfl, rfl⟩)
  intro _ s h
  apply h.bind (consumes_armBody hg)
  intro body s h
  exact h.part fun _ _ => rfl

theorem mayConsume_armSeparator : armSeparator.MayConsume loud := by
  intro setting s n
  refine Stretch.refl.ifAccept ⟨rfl, rfl, rfl⟩ (fun h => h.done nofun) ?_
  apply Stretch.query
  split
  · exact Stretch.refl.done nofun
  · exact Stretch.refl.failed rfl

/-- A clause that is given once more is recorded. -/
theorem mayConsume_record_duplicate (clause : Clause) (span : Span) :
    (record ⟨.duplicate clause, span⟩).MayConsume true :=
  fun _ _ _ => Stretch.refl.stay (.note _ rfl rfl) (State.rest_record ..)

theorem consumes_anyArm (hg : g.Follow) (arms : List SelectArm × Option TimeoutArm) :
    (anyArm g arms).Consumes true := by
  intro setting s n
  apply Stretch.query
  split
  case isTrue hkind =>
    apply Stretch.span
    apply Stretch.refl.step (follows_timeoutArm hg (Bool.and_eq_true_iff.1 hkind).1)
    intro arm s h
    obtain ⟨selects, timeout⟩ := arms
    cases timeout with
    | none => exact h.done fun _ => rfl
    | some first =>
      apply h.bind (mayConsume_record_duplicate _ _)
      intro _ s h
      exact h.done fun _ => rfl
  case isFalse =>
    apply Stretch.refl.bind (consumes_selectArm hg)
    intro arm s h
    exact h.done fun _ => rfl

/-- One arm and its separator, unless the body ends here. -/
def selectTurn (g : Rules) (arms : List SelectArm × Option TimeoutArm) :
    Parser (Bool × List SelectArm × Option TimeoutArm) := do
  if ← atBodyEnd then
    pure (false, arms)
  else
    let arms ← anyArm g arms
    armSeparator
    pure (true, arms)

theorem follows_selectTurn (hg : g.Follow) (arms : List SelectArm × Option TimeoutArm) :
    (selectTurn g arms).Follows true Prod.fst := by
  intro setting s n
  apply Stretch.query
  split
  · exact Stretch.refl.done nofun
  · apply Stretch.refl.bind (consumes_anyArm hg arms)
    intro arms s h
    apply h.bind mayConsume_armSeparator
    intro _ s h
    exact h.done fun _ => rfl

theorem follows_selectExpr (hg : g.Follow) (kind : SelectKind) (hbrace : s.kind.isBrace = false)
    (hne : s.kind ≠ .endOfFile) :
    (selectExpr g kind setting s).Follows true setting s n (fun _ => true) n := by
  apply Stretch.refl.past rfl hbrace hne
  intro h
  apply h.step (follows_expect_leftBrace _ _ _)
  intro _ s h
  apply h.bind (follows_enclosed (mayConsume_loop (follows_selectTurn hg) _))
  rintro ⟨arms, timeout⟩ s h
  apply h.step (follows_expect_rightBrace _ _ _)
  intro _ s h
  exact h.done fun _ => rfl

theorem consumes_joinExpr (hg : g.Follow) : (joinExpr g).Consumes true := by
  intro setting s n
  apply Stretch.refl.bind (consumes_expectKeyword _)
  intro _ s h
  apply h.step (follows_expect_leftBrace _ _ _)
  intro _ s h
  -- the closing brace is read together with the elements
  have hinner : ((do
      let first ← expr g
      let more ← commaTail .rightBrace (expr g)
      pure (first :: more)) setting { s with context := .anything }).Follows true setting
      { s with context := .anything } (n + 1) (fun _ => true) n := by
    apply Stretch.refl.bind (hg.expr 0)
    intro first s h
    apply h.step (follows_commaTail (hg.expr 0).mayConsume fun s =>
      follows_expect_rightBrace _ s _)
    intro more s h
    exact h.done fun _ => rfl
  apply h.step (Stretch.withContext _ hinner)
  intro elems s h
  exact h.done fun _ => rfl

theorem consumes_scopeExpr (hg : g.Follow) : (scopeExpr g).Consumes true := by
  intro setting s n
  have hcall : ∀ {s₀ s : State} (kind : ExprKind), Stretch true setting s₀ n true s n →
      ((do
        expect .leftParen
        expect .rightParen
        pure kind) setting s).Follows true setting s₀ n (fun _ => true) n := by
    intro s₀ s kind h
    apply h.bind (consumes_expect ⟨rfl, rfl, rfl⟩)
    intro _ s h
    apply h.bind (consumes_expect ⟨rfl, rfl, rfl⟩)
    intro _ s h
    exact h.done fun _ => rfl
  apply Stretch.refl.bind (consumes_expectKeyword _)
  intro _ s h
  apply Stretch.query
  split
  · exact h.bind hg.block fun block s h => h.done fun _ => rfl
  · refine h.ifAccept ⟨rfl, rfl, rfl⟩ (fun h => ?_) (h.failed rfl)
    refine h.ifAccept ⟨rfl, rfl, rfl⟩ (fun h => ?_) ?_
    · exact h.bind hg.block fun block s h => h.done fun _ => rfl
    refine h.ifAccept ⟨rfl, rfl, rfl⟩ (hcall _) ?_
    exact h.ifAccept ⟨rfl, rfl, rfl⟩ (hcall _) (h.failed rfl)

/-! ## Operands and operators -/

theorem follows_single (kind : ExprKind) (hbrace : s.kind.isBrace = false)
    (hne : s.kind ≠ .endOfFile) :
    (single kind setting s).Follows loud setting s n (fun _ => true) n :=
  Stretch.refl.past rfl hbrace hne fun h => h.done fun _ => rfl

theorem follows_applied {operand : Parser Expr} (hoperand : operand.Consumes loud)
    (make : Expr → ExprKind) (hbrace : s.kind.isBrace = false) (hne : s.kind ≠ .endOfFile) :
    (applied operand make setting s).Follows loud setting s n (fun _ => true) n := by
  apply Stretch.refl.past rfl hbrace hne
  intro h
  apply h.bind hoperand
  intro e s h
  exact h.done fun _ => rfl

theorem consumes_operand (hg : g.Follow) : (operand g).Consumes true := by
  intro setting s n
  have hsingle : ∀ kind : ExprKind, s.kind.isBrace = false → s.kind ≠ .endOfFile →
      (asExpr (single kind) setting s).Follows true setting s n (fun _ => true) n :=
    fun kind hbrace hne => follows_asExpr (follows_single kind hbrace hne)
  have happlied : ∀ (minPower : Nat) (make : Expr → ExprKind), s.kind.isBrace = false →
      s.kind ≠ .endOfFile → (asExpr (applied (g.expr minPower) make) setting s).Follows true
        setting s n (fun _ => true) n :=
    fun minPower make hbrace hne => follows_asExpr (follows_applied (hg.expr minPower) make hbrace
      hne)
  apply Stretch.kind
  intro kind hkind
  split
  · exact follows_asExpr (follows_integerOrDuration hkind)
  · exact hsingle _ (by rw [hkind]; rfl) (by simp [hkind])
  · exact hsingle _ (by rw [hkind]; rfl) (by simp [hkind])
  · exact follows_asExpr (follows_interpolatedString hg hkind)
  · exact hsingle _ (by rw [hkind]; rfl) (by simp [hkind])
  · exact hsingle _ (by rw [hkind]; rfl) (by simp [hkind])
  · exact hsingle _ (by rw [hkind]; rfl) (by simp [hkind])
  · exact hsingle _ (by rw [hkind]; rfl) (by simp [hkind])
  · exact follows_asExpr (consumes_pathExpr hg setting s n)
  · exact follows_asExpr (follows_parenOrLambda hg hkind)
  · exact follows_asExpr (consumes_arrayExpr hg setting s n)
  · exact consumes_blockExpr hg setting s n
  · exact happlied _ _ (by rw [hkind]; rfl) (by simp [hkind])
  · exact happlied _ _ (by rw [hkind]; rfl) (by simp [hkind])
  · exact happlied _ _ (by rw [hkind]; rfl) (by simp [hkind])
  · exact happlied _ _ (by rw [hkind]; rfl) (by simp [hkind])
  · exact consumes_ifExpr hg setting s n
  · exact follows_asExpr (consumes_matchExpr hg setting s n)
  · exact follows_asExpr (Stretch.refl.bind (consumes_lambda hg) fun _ _ h => h.done fun _ => rfl)
  · exact follows_asExpr (consumes_spawnExpr hg setting s n)
  · exact follows_asExpr (follows_selectExpr hg _ (by rw [hkind]; rfl) (by simp [hkind]))
  · exact follows_asExpr (follows_selectExpr hg _ (by rw [hkind]; rfl) (by simp [hkind]))
  · exact follows_asExpr (consumes_joinExpr hg setting s n)
  · exact follows_asExpr (consumes_scopeExpr hg setting s n)
  · exact follows_asExpr (consumes_tryExpr hg setting s n)
  · refine follows_asExpr (Stretch.refl.past hkind rfl nofun fun h => ?_)
    exact h.bind hg.block fun _ _ h => h.done fun _ => rfl
  · exact Stretch.refl.failed rfl

theorem follows_indexPair (object : Expr) (hbrace : s.kind.isBrace = false)
    (hne : s.kind ≠ .endOfFile) :
    (indexPair object setting s).Follows loud setting s n (fun _ => true) n := by
  apply Stretch.span
  apply Stretch.query
  apply Stretch.refl.past rfl hbrace hne
  intro h
  apply h.bind mayConsume_freshId
  intro id s h
  exact h.node fun _ _ => rfl

theorem consumes_member (hg : g.Follow) (object : Expr) : (member g object).Consumes true := by
  intro setting s n
  apply Stretch.kind
  intro kind hkind
  split
  · apply Stretch.refl.past hkind rfl nofun
    intro h
    apply Stretch.query
    split
    · apply h.bind (consumes_args hg)
      intro args s h
      exact h.node fun _ _ => rfl
    · exact h.node fun _ _ => rfl
  · apply Stretch.query
    apply Stretch.refl.past hkind rfl nofun
    intro h
    exact h.node fun _ _ => rfl
  · exact follows_indexPair object (by rw [hkind]; rfl) (by simp [hkind])
  · exact Stretch.refl.failed rfl

theorem consumes_continuation (hg : g.Follow) (left : Expr) :
    (continuation g left).Consumes true := by
  intro setting s n
  apply Stretch.kind
  intro kind hkind
  split
  · apply Stretch.refl.bind (consumes_args hg)
    intro args s h
    exact h.node fun _ _ => rfl
  · apply Stretch.refl.past hkind rfl nofun
    intro h
    apply h.bind (follows_enclosed (hg.expr 0))
    intro index s h
    apply h.bind (consumes_expect ⟨rfl, rfl, rfl⟩)
    intro _ s h
    exact h.node fun _ _ => rfl
  · apply Stretch.refl.past hkind rfl nofun
    intro h
    exact h.node fun _ _ => rfl
  · apply Stretch.refl.past hkind rfl nofun
    intro h
    exact h.last (consumes_member hg left) fun _ _ => rfl
  · exact Stretch.refl.failed rfl

theorem follows_operation (hg : g.Follow) (op : OperatorToken) (left : Expr)
    (hop : OperatorToken.ofToken? s.kind = some op) :
    (operation g op left setting s).Follows true setting s n (fun _ => true) n := by
  have hplain : Plain fun kind => (OperatorToken.ofToken? kind).isSome := ⟨rfl, rfl, rfl⟩
  have hkind : (OperatorToken.ofToken? s.kind).isSome = true := by rw [hop]; rfl
  apply Stretch.refl.past rfl (hplain.isBrace_eq_false hkind) (hplain.ne_endOfFile hkind)
  intro h
  apply h.bind (hg.expr _)
  intro right s h
  apply h.bind mayConsume_freshId
  intro id s h
  exact h.done fun _ => rfl

theorem follows_extend (hg : g.Follow) (minPower : Nat) (left : Expr) :
    (extend g minPower left).Follows true Prod.fst := by
  intro setting s n
  apply Stretch.kind
  intro kind hkind
  cases continuationPower? kind with
  | some power =>
    simp only
    split
    · exact Stretch.refl.done nofun
    · apply Stretch.refl.bind (consumes_continuation hg left)
      intro e s h
      exact h.done fun _ => rfl
  | none =>
    cases hop : OperatorToken.ofToken? kind with
    | some op =>
      simp only
      split
      · exact Stretch.refl.done nofun
      · apply Stretch.refl.step (follows_operation hg op left (hkind ▸ hop))
        intro e s h
        exact h.done fun _ => rfl
    | none => exact Stretch.refl.done nofun

theorem consumes_exprRule (hg : g.Follow) (minPower : Nat) : (exprRule g minPower).Consumes true := by
  intro setting s n
  apply Stretch.refl.bind (consumes_operand hg)
  intro first s h
  exact h.last (mayConsume_loop (follows_extend hg minPower) first) fun _ _ => rfl

end Parser

end ActorFrontend
