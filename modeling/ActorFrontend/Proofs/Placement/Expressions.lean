import ActorFrontend.Proofs.Placement.Patterns
import ActorFrontend.Proofs.Placement.Strings
import ActorFrontend.Proofs.Placement.Types

/-!
# What the readings of expressions lay
-/

namespace ActorFrontend.Parser

open Source

variable {source : List Char} {setting : Setting} {s₀ s : State} {g : Rules} {os : List Outline}
  {b : Bool}

/-! ## Nodes -/

theorem lays_exprNode {kind : ExprKind} (h : Trail source setting s₀ true s os)
    (hkind : kind.MadeOf os) :
    (exprNode (s₀.span setting).start kind setting s).Lays source setting s₀ true
      fun e os => outlines e = os :=
  h.nodeMerged hkind fun _ _ => rfl

/-- A node that continues the expression to its left. -/
theorem lays_exprNode_from {kind : ExprKind} (left : Expr) (os : List Outline)
    (h : Trail source setting s₀ b s (outlines left ++ os))
    (hparts : kind.parts = outlines left ++ os) (haside : kind.aside = []) :
    (exprNode left.span.start kind setting s).Lays source setting s₀ b
      fun e os => outlines e = os := by
  obtain ⟨id, span, leftKind⟩ := left
  apply Trail.nodeFrom h
  intro id span
  change [Outline.node (some id) span kind.parts kind.aside] = _
  rw [hparts, haside]
  rfl

theorem lays_asExpr {kind : Parser ExprKind}
    (hkind : (kind setting s).Lays source setting s true ExprKind.MadeOf) :
    (asExpr kind setting s).Lays source setting s true fun e os => outlines e = os := by
  apply Trail.start
  apply hkind.bind
  intro kind s os hos h
  exact lays_exprNode h hos

/-! ## Expressions in special contexts -/

theorem lays_condition (hg : g.Lay source) : (condition g).Lays source true outlines :=
  fun setting s hs => laysThat_withContext (hg.expr 0) _ setting s hs

theorem lays_armHead (hg : g.Lay source) : (armHead g).Lays source true outlines :=
  fun setting s hs => laysThat_withContext (hg.expr 0) _ setting s hs

theorem lays_blockExpr (hg : g.Lay source) : (blockExpr g).Lays source true outlines := by
  intro setting s hs
  apply lays_asExpr
  apply (Trail.refl hs).bind hg.block
  intro block s h
  exact h.done (.whole rfl)

theorem lays_armBody (hg : g.Lay source) : (armBody g).Lays source true outlines := by
  intro setting s hs
  apply Trail.query
  split
  · exact lays_blockExpr hg setting s hs
  · exact hg.expr 0 setting s hs

theorem lays_args (hg : g.Lay source) : (args g).Lays source true outlines := by
  intro setting s hs
  apply (Trail.refl hs).pass (passes_expect _)
  intro _ s h
  exact h.last (laysThat_enclosed (lays_commaList (hg.expr 0) _)) fun args => rfl

/-! ## Literals -/

theorem passes_durationUnit? : durationUnit?.Passes source false := by
  intro setting s hs
  unfold durationUnit?
  split
  · split <;> exact (Trail.refl hs).done rfl
  · exact (Trail.refl hs).done rfl

theorem lays_integerOrDuration (hs : s.Located source setting) {value : UInt64}
    (hkind : s.kind = .int value) :
    (integerOrDuration value setting s).Lays source setting s true ExprKind.MadeOf := by
  apply (Trail.refl hs).past (by simp [hkind])
  intro h
  apply h.pass passes_durationUnit?
  intro unit s h
  split
  · exact h.advance.done (.whole rfl)
  · exact h.done (.whole rfl)

theorem passes_duration : duration.Passes source true := by
  intro setting s hs
  apply (Trail.refl hs).pass (passes_valueOf rfl _)
  intro value s h
  apply h.pass passes_durationUnit?
  intro unit s h
  split
  · exact h.advance.done rfl
  · exact h.failed rfl

/-! ## Names -/

theorem lays_fieldInit (hg : g.Lay source) : (fieldInit g).Lays source true outlines := by
  intro setting s hs
  apply Trail.start
  apply Trail.span
  apply (Trail.refl hs).value rfl
  intro name hne h
  apply h.ifAccept rfl
  · intro h
    apply h.bind (hg.expr 0)
    intro value s h
    exact h.part fun span => by simp [outlines, FieldInit.outline]
  · -- The name stands for its value, a node of its own with the span of the name.
    have hstop : s.advance.previousEnd = (s.span setting).stop := State.span_stop_advance hne
    have hname : Trail source setting s true { s.advance with nextId := s.advance.nextId + 1 }
        [.node (some s.advance.nextId) (s.span setting) [] []] :=
      h.wrap (.whole rfl) hs.boundary_span.1 hs.boundary_span.2 hs.start_le_stop (Nat.le_refl _)
        (Nat.le_of_eq hstop.symm) (by simp) ⟨rfl, rfl, rfl⟩ rfl (Nat.le_succ _) (by simp)
    exact hname.part fun span => rfl

theorem lays_pathExpr (hg : g.Lay source) : (pathExpr g).LaysThat source true ExprKind.MadeOf := by
  intro setting s hs
  apply (Trail.refl hs).pass passes_path
  intro path s h
  apply Trail.query
  split
  · apply h.pass (passes_expect _)
    intro _ s h
    apply h.bind (laysThat_enclosed (lays_commaList (lays_fieldInit hg) _))
    intro fields s h
    exact h.done (.whole (by simp [outlines]))
  · split <;> exact h.done (.whole rfl)

/-! ## Brackets and lambdas -/

theorem lays_lambdaParam (hg : g.Lay source) : (lambdaParam g).Lays source true outlines := by
  intro setting s hs
  apply Trail.start
  apply (Trail.refl hs).pass passes_name
  intro name s h
  apply h.bind (lays_typeAfterColon hg)
  intro type s h
  exact h.part fun span => rfl

theorem lays_lambdaHead (hg : g.Lay source) : (lambdaHead g).Lays source true outlines := by
  intro setting s hs
  apply (Trail.refl hs).pass (passes_expect _)
  intro _ s h
  apply h.bind (lays_commaList (lays_lambdaParam hg) _)
  intro params s h
  apply h.bind (lays_resultType hg)
  intro ret s h
  apply h.pass (passes_expect _)
  intro _ s h
  exact h.done rfl

theorem lays_lambda (hg : g.Lay source) : (lambda g).Lays source true outlines := by
  intro setting s hs
  apply (Trail.refl hs).pass (passes_acceptIf rfl)
  intro isMove s h
  apply h.bind (lays_lambdaHead hg)
  intro head s h
  apply h.bind (hg.expr 0)
  intro body s h
  exact h.done rfl

theorem lays_parenOrTuple (hg : g.Lay source) (hs : s.Located source setting) :
    (parenOrTuple g setting s).Lays source setting s true ExprKind.MadeOf := by
  apply (Trail.refl hs).advance.enclosed
  intro s h
  apply h.ifAccept rfl (fun h => h.done (.whole rfl))
  apply h.bind (hg.expr 0)
  intro first s h
  apply h.ifAccept rfl
  · intro h
    apply h.bind (lays_commaList (hg.expr 0) _)
    intro more s h
    exact h.done (.whole (by simp [outlines]))
  · apply h.pass (passes_expect _)
    intro _ s h
    exact h.done (.whole rfl)

theorem lays_parenOrLambda (hg : g.Lay source) (hs : s.Located source setting) :
    (parenOrLambda g setting s).Lays source setting s true ExprKind.MadeOf := by
  apply Trail.query
  split
  · refine (Trail.refl hs).attempt (lays_lambdaHead hg) (fun head s h => ?_) fun s' hplace h => ?_
    · apply h.bind (hg.expr 0)
      intro body s h
      exact h.done (.whole rfl)
    · exact (lays_parenOrTuple hg h.located).rebase ⟨hplace.rest.symm, hplace.previousEnd.symm,
        hplace.nextId.symm⟩ hs
  · exact lays_parenOrTuple hg hs

theorem lays_arrayExpr (hg : g.Lay source) :
    (arrayExpr g).LaysThat source true ExprKind.MadeOf := by
  intro setting s hs
  apply (Trail.refl hs).pass (passes_expect _)
  intro _ s h
  apply h.enclosed
  intro s h
  apply h.ifAccept rfl (fun h => h.done (.whole rfl))
  apply h.bind (hg.expr 0)
  intro first s h
  apply h.ifAccept rfl
  · intro h
    apply h.bind (hg.expr 0)
    intro count s h
    apply h.pass (passes_expect _)
    intro _ s h
    exact h.done (.whole rfl)
  · apply h.bind (lays_commaTail (hg.expr 0) _)
    intro more s h
    exact h.done (.whole (by simp [outlines]))

/-! ## Control flow -/

/-- From `s₀` on `os₀` was laid and then one `if` after another was opened, the last one given
first; behind the last one `os` was laid. -/
def Opened (source : List Char) (setting : Setting) (s₀ : State) (os₀ : List Outline) :
    List OpenIf → State → List Outline → Prop
  | [], s, os => Trail source setting s₀ true s (os₀ ++ os)
  | head :: heads, s, os =>
      ∃ t, Opened source setting s₀ os₀ heads t [] ∧ head.start = (t.span setting).start ∧
        Trail source setting t true s (outlines head.cond ++ outlines head.thenBranch ++ os)

theorem Opened.located {os₀ : List Outline} {heads : List OpenIf}
    (h : Opened source setting s₀ os₀ heads s os) : s.Located source setting := by
  cases heads with
  | nil => exact Trail.located h
  | cons head heads =>
    obtain ⟨t, -, -, htrail⟩ := h
    exact htrail.located

/-- What is laid further on is laid behind the last `if`. -/
theorem Opened.trans {os₀ os' : List Outline} {heads : List OpenIf} {s' : State}
    (h : Opened source setting s₀ os₀ heads s os) (h' : Trail source setting s b s' os') :
    Opened source setting s₀ os₀ heads s' (os ++ os') := by
  cases heads with
  | nil =>
    have htrail := Trail.trans h h'
    rwa [List.append_assoc] at htrail
  | cons head heads =>
    obtain ⟨t, hopened, hstart, htrail⟩ := h
    exact ⟨t, hopened, hstart, by simpa using htrail.trans h'⟩

theorem Opened.forget {os₀ : List Outline} {heads : List OpenIf}
    (h : Opened source setting s₀ os₀ heads s os) : Opened source setting s₀ os₀ heads s [] := by
  cases heads with
  | nil => exact Trail.sublist h (by simp)
  | cons head heads =>
    obtain ⟨t, hopened, hstart, htrail⟩ := h
    exact ⟨t, hopened, hstart, htrail.sublist (by simp)⟩

theorem Opened.trail {os₀ : List Outline} {heads : List OpenIf}
    (h : Opened source setting s₀ os₀ heads s os) : Trail source setting s₀ true s [] := by
  induction heads generalizing s os with
  | nil => exact Trail.sublist h (List.nil_sublist _)
  | cons head heads ih =>
    obtain ⟨t, hopened, -, htrail⟩ := h
    exact (ih hopened).trans (htrail.sublist (List.nil_sublist _))

/-- Where an `if` starts, with its condition and its block. -/
theorem ends_ifHead (hg : g.Lay source) (hs : s.Located source setting) :
    (ifHead g setting s).EndsWith
      (fun head s' => head.start = (s.span setting).start ∧
        Trail source setting s true s' (outlines head.cond ++ outlines head.thenBranch))
      fun e s' => e.span.Placed source ∧ Trail source setting s false s' [] := by
  have hrun : (ifHead g setting s).Lays source setting s true fun head os =>
      head.start = (s.span setting).start ∧ outlines head.cond ++ outlines head.thenBranch = os := by
    apply Trail.start
    apply (Trail.refl hs).pass (passes_expectKeyword _)
    intro _ s h
    apply h.bind (lays_condition hg)
    intro cond s h
    apply h.bind hg.block
    intro thenBranch s h
    exact h.done ⟨rfl, rfl⟩
  refine hrun.imp ?_ fun _ _ h => h
  rintro head s' ⟨os, ⟨hstart, rfl⟩, htrail⟩
  exact ⟨hstart, htrail⟩

/-- Every `if` that is closed becomes the `else` branch of the one before. -/
theorem ends_closeIfs {os₀ : List Outline} {heads : List OpenIf} {elseBranch : Option Expr}
    (h : Opened source setting s₀ os₀ heads s (outlines elseBranch)) :
    (closeIfs elseBranch heads setting s).EndsWith
      (fun e s' => Trail source setting s₀ true s' (os₀ ++ outlines e))
      fun e s' => e.span.Placed source ∧ Trail source setting s₀ false s' [] := by
  induction heads generalizing s elseBranch with
  | nil => exact h
  | cons head heads ih =>
    obtain ⟨t, hopened, hstart, htrail⟩ := h
    -- the `if` read last is closed first and stands behind the one that is closed next
    have hnode : (exprNode head.start (.ifElse head.cond head.thenBranch elseBranch) setting
        s).Lays source setting t true fun e os => outlines e = os := by
      rw [hstart]
      refine lays_exprNode htrail (.whole ?_)
      cases elseBranch <;> rfl
    refine Reply.EndsWith.bind (hnode.imp (fun _ _ h => h) fun error s' h => ?_)
      fun e s' hclosed => ?_
    · exact ⟨h.1, (hopened.trail.trans h.2).weaken⟩
    · obtain ⟨_, rfl, hclosed⟩ := hclosed
      have hnext : Opened source setting s₀ os₀ heads s' (outlines (some e)) := by
        simpa using hopened.trans hclosed
      exact ih hnext

/-- What is read next is laid behind the last `if`. -/
theorem Opened.bind {α β : Type} {p : Parser α} {q : α → Parser β} {view : α → List Outline}
    {os₀ : List Outline} {heads : List OpenIf} {onOk : β → State → Prop}
    (h : Opened source setting s₀ os₀ heads s []) (hp : p.Lays source b view)
    (hq : ∀ a s', Opened source setting s₀ os₀ heads s' (view a) →
      (q a setting s').EndsWith onOk fun e s' =>
        e.span.Placed source ∧ Trail source setting s₀ false s' []) :
    ((p >>= q) setting s).EndsWith onOk fun e s' =>
      e.span.Placed source ∧ Trail source setting s₀ false s' [] := by
  refine Reply.EndsWith.bind
    ((hp setting s h.located).imp (fun a s' hrun => ?_) fun e s' hfail => ?_) hq
  · obtain ⟨_, rfl, htrail⟩ := hrun
    exact h.trans htrail
  · exact ⟨hfail.1, (h.trail.trans hfail.2).weaken⟩

theorem lays_ifExpr (hg : g.Lay source) : (ifExpr g).Lays source true outlines := by
  intro setting s hs
  apply Reply.EndsWith.bind (ends_ifHead hg hs)
  rintro first s₁ ⟨hstart, hfirst⟩
  -- the first `if` is kept open below all others, which the repetition adds one by one
  let os₀ := outlines first.cond ++ outlines first.thenBranch
  have hopened : Opened source setting s os₀ [] s₁ [] := by simpa [Opened] using hfirst
  refine Reply.EndsWith.bind (endsWith_loop (fun chain s' => Opened source setting s os₀ chain.1 s'
    (outlines chain.2)) (fun chain s₂ hopened => ?_) hopened) fun chain s₂ hopened => ?_
  · apply hopened.forget.bind (passes_acceptIf rfl)
    intro found s₃ hopened
    split
    · apply hopened.bind (passes_query _)
      intro found s₃ hopened
      split
      · apply Reply.EndsWith.bind ((ends_ifHead hg hopened.located).imp (fun _ _ h => h) fun _ s' h =>
          ⟨h.1, (hopened.trail.trans h.2).weaken⟩)
        rintro next s₄ ⟨hstart, hnext⟩
        exact ⟨s₃, hopened, hstart, by simpa using hnext⟩
      · apply hopened.bind (lays_blockExpr hg)
        intro e s₄ hopened
        rw [← outlines_some] at hopened
        exact hopened
    · exact hopened
  · apply Reply.EndsWith.bind (ends_closeIfs hopened)
    intro inner s₃ hclosed
    rw [hstart]
    refine lays_exprNode hclosed (.whole ?_)
    cases inner <;> rfl

/-! ## Arms -/

theorem lays_matchArm (hg : g.Lay source) : (matchArm g).Lays source true outlines := by
  intro setting s hs
  apply Trail.start
  apply (Trail.refl hs).bind hg.pattern
  intro pattern s h
  apply h.bind (lays_optional (passes_acceptIf rfl) (lays_armHead hg))
  intro guard s h
  apply h.pass (passes_expect _)
  intro _ s h
  apply h.bind (lays_armBody hg)
  intro body s h
  apply h.spanFrom
  intro span h
  apply h.pass (passes_acceptIf rfl)
  intro _ s h
  exact h.done (by cases guard <;> simp [outlines, MatchArm.outline])

theorem lays_matchExpr (hg : g.Lay source) :
    (matchExpr g).LaysThat source true ExprKind.MadeOf := by
  intro setting s hs
  apply (Trail.refl hs).pass (passes_expectKeyword _)
  intro _ s h
  apply h.bind (lays_condition hg)
  intro scrutinee s h
  apply h.pass (passes_expect _)
  intro _ s h
  refine h.bind (laysThat_enclosed (lays_collect outlines fun setting s hs => ?_))
    fun arms s h => ?_
  · apply Trail.query
    split
    · exact (Trail.refl hs).done rfl
    · apply (Trail.refl hs).bind (lays_matchArm hg)
      intro arm s h
      exact h.weaken.done (by simp)
  · apply h.pass (passes_expect _)
    intro _ s h
    exact h.done (.whole (by simp [outlines]))

theorem lays_tryExpr (hg : g.Lay source) : (tryExpr g).LaysThat source true ExprKind.MadeOf := by
  intro setting s hs
  apply (Trail.refl hs).pass (passes_expectKeyword _)
  intro _ s h
  apply h.bind hg.block
  intro body s h
  apply Trail.query
  split
  · refine Reply.Lays.after (c := true) h (Trail.start ?_)
    apply (Trail.refl h.located).advance.pass (passes_optional (passes_query _) passes_name)
    intro binding s h
    apply h.bind hg.block
    intro handler s h
    exact h.part fun span => .whole rfl
  · exact h.done (.whole rfl)

/-! ## Concurrency -/

theorem lays_spawnExpr (hg : g.Lay source) :
    (spawnExpr g).LaysThat source true ExprKind.MadeOf := by
  intro setting s hs
  apply (Trail.refl hs).pass (passes_expectKeyword _)
  intro _ s h
  apply Trail.query
  split
  · apply h.bind (lays_lambda hg)
    intro lambda s h
    exact h.done (.whole rfl)
  · apply h.pass passes_name
    intro name s h
    apply h.bind (lays_typeArgs hg)
    intro typeArgs s h
    apply h.bind (lays_args hg)
    intro args s h
    exact h.done (.whole (by simp [outlines]))

theorem lays_selectArm (hg : g.Lay source) : (selectArm g).Lays source true outlines := by
  intro setting s hs
  apply Trail.start
  apply (Trail.refl hs).pass passes_name
  intro binding s h
  apply h.pass (passes_expectWord _)
  intro _ s h
  apply h.bind (lays_armHead hg)
  intro source s h
  apply h.pass (passes_expect _)
  intro _ s h
  apply h.bind (lays_armBody hg)
  intro body s h
  exact h.part fun span => by simp [outlines, SelectArm.outline]

theorem lays_timeoutArm (hg : g.Lay source) : (timeoutArm g).Lays source true outlines := by
  intro setting s hs
  apply Trail.start
  apply (Trail.refl hs).advance.bind (lays_armHead hg)
  intro duration s h
  apply h.pass (passes_expect _)
  intro _ s h
  apply h.bind (lays_armBody hg)
  intro body s h
  exact h.part fun span => by simp [outlines, TimeoutArm.outline]

theorem passes_armSeparator : armSeparator.Passes source false := by
  intro setting s hs
  refine (Trail.refl hs).ifAccept rfl (fun h => h.weaken.done rfl) ?_
  apply Trail.query
  split
  · exact (Trail.refl hs).done rfl
  · exact (Trail.refl hs).failed rfl

/-- The arms found, the last one first, and the timeout among them. -/
def ArmsFound (arms : List SelectArm × Option TimeoutArm) (os : List Outline) : Prop :=
  Merged (outlines arms.1.reverse) (outlines arms.2) os

theorem lays_anyArm (hg : g.Lay source) {arms : List SelectArm × Option TimeoutArm}
    (h : Trail source setting s₀ false s os) (hos : ArmsFound arms os) :
    (anyArm g arms setting s).Lays source setting s₀ false ArmsFound := by
  obtain ⟨arms, timeout⟩ := arms
  apply Trail.query
  split
  · apply Trail.span
    have hkeyword := h.located.placed_span
    apply h.bind (lays_timeoutArm hg)
    intro arm s h
    cases timeout with
    | none => exact h.weaken.done (Merged.append_aside hos)
    | some first =>
      -- The second timeout is dropped, and its outline with it.
      have hdropped := (h.sublist (List.sublist_append_left os _)).weaken
      exact (hdropped.record hkeyword).done hos
  · apply h.bind (lays_selectArm hg)
    intro arm s h
    apply h.weaken.done
    rw [ArmsFound, List.reverse_cons, outlines_append]
    exact Merged.append_parts hos

theorem lays_selectExpr (hg : g.Lay source) (kind : SelectKind) :
    (selectExpr g kind).LaysThat source true ExprKind.MadeOf := by
  intro setting s hs
  apply (Trail.refl hs).advance.pass (passes_expect _)
  intro _ s h
  have harms : (enclosed <| loop (fun arms => do
      if ← atBodyEnd then
        pure (false, arms)
      else
        let arms ← anyArm g arms
        armSeparator
        pure (true, arms)) ([], none)).LaysThat source false ArmsFound := by
    apply laysThat_enclosed
    intro setting s hs
    apply (Trail.refl hs).loop (.whole rfl)
    intro arms s os hos h
    apply Trail.query
    split
    · exact h.done hos
    · apply (lays_anyArm hg h hos).bind
      intro arms s os hos h
      exact h.pass passes_armSeparator fun _ s h => h.done hos
  apply h.bindThat harms
  intro arms s os hos h
  obtain ⟨arms, timeout⟩ := arms
  apply h.pass (passes_expect _)
  intro _ s h
  apply h.done
  rw [ExprKind.MadeOf, ExprKind.parts, outlinesOfSelectArms_eq]
  -- the arms come in the order found, the timeout behind them
  cases timeout <;> exact hos

theorem lays_joinExpr (hg : g.Lay source) :
    (joinExpr g).LaysThat source true ExprKind.MadeOf := by
  intro setting s hs
  apply (Trail.refl hs).pass (passes_expectKeyword _)
  intro _ s h
  apply h.pass (passes_expect _)
  intro _ s h
  have helems : (enclosed do
      let first ← expr g
      let more ← commaTail .rightBrace (expr g)
      pure (first :: more)).Lays source true outlines := by
    apply laysThat_enclosed
    intro setting s hs
    apply (Trail.refl hs).bind (hg.expr 0)
    intro first s h
    apply h.bind (lays_commaTail (hg.expr 0) _)
    intro more s h
    exact h.done rfl
  apply h.bind helems
  intro elems s h
  exact h.done (.whole (by simp [outlines]))

theorem lays_scopeExpr (hg : g.Lay source) :
    (scopeExpr g).LaysThat source true ExprKind.MadeOf := by
  intro setting s hs
  apply (Trail.refl hs).pass (passes_expectKeyword _)
  intro _ s h
  apply Trail.query
  split
  · apply h.bind hg.block
    intro block s h
    exact h.done (.whole rfl)
  · apply h.ifAccept rfl _ (h.failed rfl)
    intro h
    apply h.ifAccept rfl
    · intro h
      -- `scope { .. }`
      apply h.bind hg.block
      intro block s h
      exact h.done (.whole rfl)
    · apply h.ifAccept rfl
      · intro h
        apply h.pass (passes_expect _)
        intro _ s h
        apply h.pass (passes_expect _)
        intro _ s h
        exact h.done (.whole rfl)
      · apply h.ifAccept rfl _ (h.failed rfl)
        intro h
        apply h.pass (passes_expect _)
        intro _ s h
        apply h.pass (passes_expect _)
        intro _ s h
        exact h.done (.whole rfl)

/-! ## Operands and operators -/

theorem lays_single (hs : s.Located source setting) {kind : ExprKind} (hkind : kind.MadeOf [])
    (hne : s.kind ≠ .endOfFile) :
    (single kind setting s).Lays source setting s true ExprKind.MadeOf :=
  (Trail.refl hs).past hne fun h => h.done hkind

theorem lays_applied {operand : Parser Expr} {make : Expr → ExprKind}
    (hoperand : operand.Lays source true outlines)
    (hmake : ∀ e, (make e).MadeOf (outlines e)) :
    (applied operand make).LaysThat source true ExprKind.MadeOf := by
  intro setting s hs
  apply (Trail.refl hs).advance.bind hoperand
  intro e s h
  exact h.done (hmake e)

theorem lays_operand (hg : g.Lay source) : (operand g).Lays source true outlines := by
  intro setting s hs
  apply Trail.kind
  intro kind hkind
  split
  -- literals and names
  case h_1 => exact lays_asExpr (lays_integerOrDuration hs hkind)
  case h_4 => exact lays_asExpr (lays_interpolatedString hg hs hkind)
  case h_9 => exact lays_asExpr (lays_pathExpr hg setting s hs)
  -- brackets, and operators before their operand
  case h_10 => exact lays_asExpr (lays_parenOrLambda hg hs)
  case h_11 => exact lays_asExpr (lays_arrayExpr hg setting s hs)
  case h_12 => exact lays_blockExpr hg setting s hs
  case h_13 => exact lays_asExpr (lays_applied (hg.expr _) (fun e => .whole rfl) setting s hs)
  case h_14 => exact lays_asExpr (lays_applied (hg.expr _) (fun e => .whole rfl) setting s hs)
  case h_15 => exact lays_asExpr (lays_applied (hg.expr _) (fun e => .whole rfl) setting s hs)
  case h_16 => exact lays_asExpr (lays_applied (hg.expr _) (fun e => .whole rfl) setting s hs)
  -- keywords
  case h_17 => exact lays_ifExpr hg setting s hs
  case h_18 => exact lays_asExpr (lays_matchExpr hg setting s hs)
  case h_19 =>
    refine lays_asExpr ((Trail.refl hs).bind (lays_lambda hg) fun lambda s h => ?_)
    exact h.done (.whole rfl)
  case h_20 => exact lays_asExpr (lays_spawnExpr hg setting s hs)
  case h_21 => exact lays_asExpr (lays_selectExpr hg _ setting s hs)
  case h_22 => exact lays_asExpr (lays_selectExpr hg _ setting s hs)
  case h_23 => exact lays_asExpr (lays_joinExpr hg setting s hs)
  case h_24 => exact lays_asExpr (lays_scopeExpr hg setting s hs)
  case h_25 => exact lays_asExpr (lays_tryExpr hg setting s hs)
  case h_26 =>
    refine lays_asExpr ((Trail.refl hs).advance.bind hg.block fun block s h => ?_)
    exact h.done (.whole rfl)
  case h_27 => exact (Trail.refl hs).failed rfl
  -- what is a token by itself
  all_goals exact lays_asExpr (lays_single hs (.whole rfl) (by simp [hkind]))

/-- The first of the two indices ends within the token, behind what stands before the point. -/
theorem lays_indexPair {object : Expr} (h : Trail source setting s₀ b s (outlines object))
    (hne : s.kind ≠ .endOfFile) :
    (indexPair object setting s).Lays source setting s₀ true fun e os => outlines e = os := by
  obtain ⟨id, span, objectKind⟩ := object
  let first := s.text.toList.takeWhile (· ≠ '.')
  have htext : s.text.toList = first ++ s.text.toList.dropWhile (· ≠ '.') :=
    (List.takeWhile_append_dropWhile ..).symm
  obtain ⟨hstands, hlength⟩ := h.located.standsAt
  have hboundary : Boundary source ((s.span setting).start + byteLength first) := by
    rw [htext] at hstands
    exact hstands.boundary
  -- the point and the second index are still to come within the number
  have hend : (s.span setting).start + byteLength first ≤ s.advance.previousEnd := by
    rw [State.span_stop_advance hne, hlength, htext, byteLength_append]
    omega
  have hobject := h.laid.nested _ (List.mem_singleton_self _)
  have hwithin := h.laid.within _ (List.mem_singleton_self _)
  have hbehind := h.located.previousEnd_le_start
  have hle := hobject.start_le_stop
  let inner : Expr :=
    ⟨s.advance.nextId, ⟨span.start, (s.span setting).start + byteLength first⟩,
      .field ⟨id, span, objectKind⟩ (String.ofList first)⟩
  -- the inner field is finished, and numbered, before the outer one
  have hinner : Trail source setting s₀ true { s.advance with nextId := s.advance.nextId + 1 }
      (outlines inner) := by
    refine (h.advanceOver hne).wrap (.whole rfl) hobject.boundary_start hboundary ?_ hwithin.1 hend
      (List.forall_mem_singleton.2 ⟨Nat.le_refl _, ?_⟩) ⟨rfl, rfl, rfl⟩ rfl (Nat.le_succ _) (by simp)
    · exact Nat.le_trans hle (Nat.le_trans hwithin.2 (Nat.le_trans hbehind (Nat.le_add_right _ _)))
    · exact Nat.le_trans hwithin.2 (Nat.le_trans hbehind (Nat.le_add_right _ _))
  exact lays_exprNode_from inner [] (by simpa using hinner) rfl rfl

theorem lays_member (hg : g.Lay source) {object : Expr}
    (h : Trail source setting s₀ true s (outlines object)) :
    (member g object setting s).Lays source setting s₀ true fun e os => outlines e = os := by
  apply Trail.kind
  intro kind hkind
  split
  · apply h.past (by simp [hkind])
    intro h
    apply Trail.query
    split
    · apply h.bind (lays_args hg)
      intro args s h
      exact lays_exprNode_from _ _ h (by simp [outlines]) rfl
    · exact lays_exprNode_from _ [] (by simpa using h) (by simp [outlines]) rfl
  · apply Trail.query
    apply h.past (by simp [hkind])
    intro h
    exact lays_exprNode_from _ [] (by simpa using h) (by simp [outlines]) rfl
  · exact lays_indexPair h (by simp [hkind])
  · exact h.failed rfl

theorem lays_continuation (hg : g.Lay source) {left : Expr}
    (h : Trail source setting s₀ true s (outlines left)) :
    (continuation g left setting s).Lays source setting s₀ true fun e os => outlines e = os := by
  apply Trail.kind
  intro kind hkind
  split
  · apply h.bind (lays_args hg)
    intro args s h
    exact lays_exprNode_from _ _ h (by simp [outlines]) rfl
  · apply h.advance.bind (laysThat_enclosed (hg.expr 0))
    intro index s h
    apply h.pass (passes_expect _)
    intro _ s h
    exact lays_exprNode_from _ _ h (by simp [outlines]) rfl
  · apply h.past (by simp [hkind])
    intro h
    exact lays_exprNode_from _ [] (by simpa using h) (by simp [outlines]) rfl
  · exact h.past (by simp [hkind]) fun h => lays_member hg h
  · exact h.failed rfl

theorem Expr.span_outline (e : Expr) : e.outline.span = e.span := by
  cases e
  rfl

/-- The span of an operation covers both operands, which are all that was laid. -/
theorem lays_operation (hg : g.Lay source) (op : OperatorToken) {left : Expr}
    (h : Trail source setting s₀ true s (outlines left)) :
    (operation g op left setting s).Lays source setting s₀ true fun e os => outlines e = os := by
  apply h.advance.bind (hg.expr _)
  intro right s h
  have hleft := h.laid.nested left.outline (by simp [outlines])
  have hright := h.laid.nested right.outline (by simp [outlines])
  have hwithin : ∀ o ∈ [left.outline, right.outline], _ := h.laid.within
  have hbefore : left.span.stop ≤ right.span.start := by
    have hordered := List.rel_of_pairwise_cons h.laid.ordered (List.mem_singleton_self _)
    rwa [Outline.Before, Expr.span_outline, Expr.span_outline] at hordered
  have hlo := (hwithin left.outline (by simp)).1
  have hhi := (hwithin right.outline (by simp)).2
  have hboundary := And.intro hleft.boundary_start hright.boundary_stop
  have hle := hleft.start_le_stop
  have hle' := hright.start_le_stop
  simp only [Expr.span_outline] at hlo hhi hboundary hle hle'
  have hstart : left.span.start ≤ right.span.start := Nat.le_trans hle hbefore
  have hstop : left.span.stop ≤ right.span.stop := Nat.le_trans hbefore hle'
  -- the operands stand in order, so the cover runs from the left one to the right one
  have hcover : left.span.cover right.span = ⟨left.span.start, right.span.stop⟩ := by
    rw [Span.cover, Nat.min_eq_left hstart, Nat.max_eq_right hstop]
  refine ⟨[.node (some s.nextId) (left.span.cover right.span) [left.outline, right.outline] []],
    ?_, ?_⟩
  · cases op <;> rfl
  · rw [hcover]
    refine h.wrap (.whole rfl) hboundary.1 hboundary.2 (Nat.le_trans hle hstop) hlo hhi
      (List.forall_mem_cons.2 ⟨?_, List.forall_mem_singleton.2 ?_⟩) ⟨rfl, rfl, rfl⟩ rfl
      (Nat.le_succ _) (by simp)
    · rw [Expr.span_outline]
      exact ⟨Nat.le_refl _, hstop⟩
    · rw [Expr.span_outline]
      exact ⟨hstart, Nat.le_refl _⟩

theorem lays_extend (hg : g.Lay source) (minPower : Nat) {left : Expr}
    (h : Trail source setting s₀ true s (outlines left)) :
    (extend g minPower left setting s).Lays source setting s₀ true
      fun r os => outlines r.2 = os := by
  apply Trail.kind
  intro kind hkind
  cases continuationPower? kind with
  | some power =>
    simp only
    split
    · exact h.done rfl
    · apply (lays_continuation hg h).bind
      intro e s os hos h
      exact h.done hos
  | none =>
    simp only
    cases OperatorToken.ofToken? kind with
    | some op =>
      simp only
      split
      · exact h.done rfl
      · apply (lays_operation hg _ h).bind
        intro e s os hos h
        exact h.done hos
    | none => exact h.done rfl

theorem lays_exprRule (hg : g.Lay source) (minPower : Nat) :
    (exprRule g minPower).Lays source true outlines := by
  intro setting s hs
  apply (Trail.refl hs).bind (lays_operand hg)
  intro first s h
  -- the left operand grows, and is all that has been laid
  refine h.loop rfl fun e s os hos h => ?_
  subst hos
  exact lays_extend hg minPower h

end ActorFrontend.Parser
