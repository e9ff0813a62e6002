import ActorFrontend.Proofs.Frames.Types

/-!
# The frames of expressions
-/

namespace ActorFrontend.Parser

open Framed

variable {deepest : Nat} {g g' : Rules}

/-! ## Parts of expressions -/

theorem framed_exprNode (start : Nat) (kind : ExprKind) :
    Framed deepest (exprNode start kind) (exprNode start kind) := .node _ _

theorem framed_asExpr {kind kind' : Parser ExprKind} (h : Framed deepest kind kind') :
    Framed deepest (asExpr kind) (asExpr kind') :=
  .bind .start fun start => .bind h fun kind => framed_exprNode start kind

theorem framed_condition (hg : g.Framed deepest g') : Framed deepest (condition g) (condition g') :=
  .bind (.query _) fun _ => .withContext _ (hg.expr 0)

theorem framed_armHead (hg : g.Framed deepest g') : Framed deepest (armHead g) (armHead g') :=
  .bind (.query _) fun _ => .withContext _ (hg.expr 0)

theorem framed_blockExpr (hg : g.Framed deepest g') : Framed deepest (blockExpr g) (blockExpr g') :=
  framed_asExpr (.map hg.block)

theorem framed_armBody (hg : g.Framed deepest g') : Framed deepest (armBody g) (armBody g') :=
  .bind (.query _) fun _ => .ite (framed_blockExpr hg) (hg.expr 0)

theorem framed_args (hg : g.Framed deepest g') : Framed deepest (args g) (args g') :=
  .bind (.expect _) fun _ => .enclosed (.commaList _ (hg.expr 0))

/-! ## Literals -/

theorem framed_integerOrDuration (value : UInt64) :
    Framed deepest (integerOrDuration value) (integerOrDuration value) := by
  refine .bind .advance fun _ => .bind .durationUnit? fun unit => ?_
  split
  · exact .bind .advance fun _ => .value _
  · exact .value _

theorem framed_duration : Framed deepest duration duration := by
  refine .bind (.valueOf _ _) fun value => .bind .durationUnit? fun unit => ?_
  split
  · exact .bind .advance fun _ => .value _
  · exact .expected _

theorem framed_wholeExpr (hg : g.Framed deepest g') (wanted : Expected) :
    Framed deepest (wholeExpr g wanted) (wholeExpr g' wanted) :=
  .bind (hg.expr 0) fun _ => .bind (.query _) fun _ => .ite (.value _) (.expected _)

/-- A splice is read at the depth of its string, in a frame of its own that is left with it. -/
theorem framed_splice (hg : g.Framed deepest g') (tokens : List Token) (span : Span) :
    Framed deepest (splice g tokens span) (splice g' tokens span) := by
  intro setting s hlimit hs
  refine ⟨?_, (Keeps.splice g tokens span setting s).sameFrame⟩
  have hwhole := framed_wholeExpr hg (.symbol .rightBrace) (setting.inSplice span)
    (s.inSplice (setting.inSplice span) tokens) hlimit hs
  rw [splice_eq_mapState, splice_eq_mapState, hwhole.1]

theorem framed_stringParts (hg : g.Framed deepest g') (fragments : List Fragment) :
    Framed deepest (stringParts g fragments) (stringParts g' fragments) := by
  induction fragments with
  | nil => exact .value _
  | cons fragment fragments ih =>
    cases fragment with
    | text value span => exact .map ih
    | splice tokens span => exact .bind (framed_splice hg tokens span) fun _ => .map ih

theorem framed_interpolatedString (hg : g.Framed deepest g') (fragments : List Fragment) :
    Framed deepest (interpolatedString g fragments) (interpolatedString g' fragments) :=
  .bind .advance fun _ => .map (framed_stringParts hg fragments)

/-! ## Names -/

theorem framed_fieldInit (hg : g.Framed deepest g') : Framed deepest (fieldInit g) (fieldInit g') := by
  refine .bind .start fun start => .bind .span fun nameSpan => .bind .name fun name =>
    .bind (.accept _) fun explicit => .ite ?_ ?_
  · exact .bind (hg.expr 0) fun _ => .map (.spanFrom start)
  · exact .bind .freshId fun _ => .map (.spanFrom start)

theorem framed_pathExpr (hg : g.Framed deepest g') : Framed deepest (pathExpr g) (pathExpr g') := by
  refine .bind .path fun path => .bind (.query _) fun fields => .ite ?_ ?_
  · exact .bind (.expect _) fun _ => .map (.enclosed (.commaList _ (framed_fieldInit hg)))
  · split <;> exact .value _

/-! ## Brackets and lambdas -/

theorem framed_lambdaParam (hg : g.Framed deepest g') :
    Framed deepest (lambdaParam g) (lambdaParam g') :=
  .bind .start fun start => .bind .name fun _ => .bind (framed_typeAfterColon hg) fun _ =>
    .map (.spanFrom start)

theorem framed_lambdaHead (hg : g.Framed deepest g') :
    Framed deepest (lambdaHead g) (lambdaHead g') :=
  .bind (.expect _) fun _ => .bind (.commaList _ (framed_lambdaParam hg)) fun _ =>
    .bind (framed_resultType hg) fun _ => .map (.expect _)

theorem framed_lambda (hg : g.Framed deepest g') : Framed deepest (lambda g) (lambda g') :=
  .bind (.acceptKeyword _) fun _ => .bind (framed_lambdaHead hg) fun _ => .map (hg.expr 0)

theorem framed_parenOrTuple (hg : g.Framed deepest g') :
    Framed deepest (parenOrTuple g) (parenOrTuple g') := by
  refine .bind .advance fun _ => .enclosed (.bind (.accept _) fun empty => .ite (.value _) ?_)
  refine .bind (hg.expr 0) fun first => .bind (.accept _) fun several => .ite ?_ ?_
  · exact .map (.commaList _ (hg.expr 0))
  · exact .map (.expect _)

theorem framed_parenOrLambda (hg : g.Framed deepest g') :
    Framed deepest (parenOrLambda g) (parenOrLambda g') := by
  refine .bind (.query _) fun lambdas => .ite ?_ (framed_parenOrTuple hg)
  refine .bind (.attempt (framed_lambdaHead hg)) fun head => ?_
  split
  · exact .map (hg.expr 0)
  · exact framed_parenOrTuple hg

theorem framed_arrayExpr (hg : g.Framed deepest g') : Framed deepest (arrayExpr g) (arrayExpr g') := by
  refine .bind (.expect _) fun _ => .enclosed (.bind (.accept _) fun empty => .ite (.value _) ?_)
  refine .bind (hg.expr 0) fun first => .bind (.accept _) fun repeated => .ite ?_ ?_
  · exact .bind (hg.expr 0) fun _ => .map (.expect _)
  · exact .map (.commaTail _ (hg.expr 0))

/-! ## Control flow -/

theorem framed_ifHead (hg : g.Framed deepest g') : Framed deepest (ifHead g) (ifHead g') :=
  .bind .start fun _ => .bind (.expectKeyword _) fun _ => .bind (framed_condition hg) fun _ =>
    .map hg.block

theorem framed_closeIfs (elseBranch : Option Expr) (heads : List OpenIf) :
    Framed deepest (closeIfs elseBranch heads) (closeIfs elseBranch heads) := by
  induction heads generalizing elseBranch with
  | nil => exact .value _
  | cons head heads ih => exact .bind (framed_exprNode _ _) fun e => ih (some e)

theorem framed_ifExpr (hg : g.Framed deepest g') : Framed deepest (ifExpr g) (ifExpr g') := by
  refine .bind (framed_ifHead hg) fun first => .bind (.loop (fun chain => ?_) _) fun chain =>
    .bind (framed_closeIfs _ _) fun _ => framed_exprNode _ _
  refine .bind (.acceptKeyword _) fun goesOn => .ite ?_ (.value _)
  exact .bind (.query _) fun _ => .ite (.map (framed_ifHead hg)) (.map (framed_blockExpr hg))

theorem framed_matchArm (hg : g.Framed deepest g') : Framed deepest (matchArm g) (matchArm g') :=
  .bind .start fun start => .bind hg.pattern fun _ =>
    .bind (.optional (.acceptKeyword _) (framed_armHead hg)) fun _ => .bind (.expect _) fun _ =>
    .bind (framed_armBody hg) fun _ => .bind (.spanFrom start) fun _ => .map (.accept _)

theorem framed_matchExpr (hg : g.Framed deepest g') : Framed deepest (matchExpr g) (matchExpr g') := by
  refine .bind (.expectKeyword _) fun _ => .bind (framed_condition hg) fun scrutinee =>
    .bind (.expect _) fun _ => .bind (.enclosed (.collect ?_)) fun arms => .map (.expect _)
  exact .bind (.query _) fun _ => .ite (.value _) (.map (framed_matchArm hg))

theorem framed_tryExpr (hg : g.Framed deepest g') : Framed deepest (tryExpr g) (tryExpr g') := by
  refine .bind (.expectKeyword _) fun _ => .bind hg.block fun body => .bind (.query _) fun caught =>
    .ite ?_ (.value _)
  exact .bind .start fun start => .bind .advance fun _ => .bind (.optional (.query _) .name) fun _ =>
    .bind hg.block fun _ => .map (.spanFrom start)

/-! ## Concurrency -/

theorem framed_spawnExpr (hg : g.Framed deepest g') : Framed deepest (spawnExpr g) (spawnExpr g') := by
  refine .bind (.expectKeyword _) fun _ => .bind (.query _) fun isLambda =>
    .ite (.map (framed_lambda hg)) ?_
  exact .bind .name fun _ => .bind (framed_typeArgs hg) fun _ => .map (framed_args hg)

theorem framed_selectArm (hg : g.Framed deepest g') : Framed deepest (selectArm g) (selectArm g') :=
  .bind .start fun start => .bind .name fun _ => .bind (.expectWord _) fun _ =>
    .bind (framed_armHead hg) fun _ => .bind (.expect _) fun _ => .bind (framed_armBody hg) fun _ =>
    .map (.spanFrom start)

theorem framed_timeoutArm (hg : g.Framed deepest g') :
    Framed deepest (timeoutArm g) (timeoutArm g') :=
  .bind .start fun start => .bind .advance fun _ => .bind (framed_armHead hg) fun _ =>
    .bind (.expect _) fun _ => .bind (framed_armBody hg) fun _ => .map (.spanFrom start)

theorem framed_armSeparator : Framed deepest armSeparator armSeparator :=
  .bind (.accept _) fun _ => .ite (.value _) <|
    .bind (.query _) fun _ => .ite (.value _) (.expected _)

theorem framed_anyArm (hg : g.Framed deepest g') (arms : List SelectArm × Option TimeoutArm) :
    Framed deepest (anyArm g arms) (anyArm g' arms) := by
  refine .bind (.query _) fun isTimeout => .ite ?_ (.map (framed_selectArm hg))
  refine .bind .span fun keyword => .bind (framed_timeoutArm hg) fun arm => ?_
  split
  · exact .value _
  · exact .bind (.record _) fun _ => .value _

theorem framed_selectExpr (hg : g.Framed deepest g') (kind : SelectKind) :
    Framed deepest (selectExpr g kind) (selectExpr g' kind) := by
  refine .bind .advance fun _ => .bind (.expect _) fun _ =>
    .bind (.enclosed (.loop (fun arms => ?_) _)) fun arms => .map (.expect _)
  refine .bind (.query _) fun closed => .ite (.value _) ?_
  exact .bind (framed_anyArm hg arms) fun _ => .map framed_armSeparator

theorem framed_joinExpr (hg : g.Framed deepest g') : Framed deepest (joinExpr g) (joinExpr g') :=
  .bind (.expectKeyword _) fun _ => .bind (.expect _) fun _ =>
    .map (.enclosed (.bind (hg.expr 0) fun _ => .map (.commaTail _ (hg.expr 0))))

theorem framed_scopeExpr (hg : g.Framed deepest g') : Framed deepest (scopeExpr g) (scopeExpr g') := by
  have hcall (kind : ExprKind) :
      Framed deepest (do expect .leftParen; expect .rightParen; pure kind)
        (do expect .leftParen; expect .rightParen; pure kind) :=
    .bind (.expect _) fun _ => .map (.expect _)
  refine .bind (.expectKeyword _) fun _ => .bind (.query _) fun isBlock => .ite (.map hg.block) ?_
  refine .bind (.accept _) fun isOperation => .ite ?_ (.expected _)
  refine .bind (.acceptWord _) fun isLaunch => .ite (.map hg.block) ?_
  refine .bind (.acceptWord _) fun isCancel => .ite (hcall _) ?_
  exact .bind (.acceptWord _) fun _ => .ite (hcall _) (.expected _)

/-! ## Operands and operators -/

theorem framed_single (kind : ExprKind) : Framed deepest (single kind) (single kind) :=
  .map .advance

theorem framed_applied {operand operand' : Parser Expr} (h : Framed deepest operand operand')
    (make : Expr → ExprKind) : Framed deepest (applied operand make) (applied operand' make) :=
  .bind .advance fun _ => .map h

theorem framed_operand (hg : g.Framed deepest g') : Framed deepest (operand g) (operand g') := by
  refine .bind .kind fun kind => ?_
  split
  · exact framed_asExpr (framed_integerOrDuration _)
  · exact framed_asExpr (framed_single _)
  · exact framed_asExpr (framed_single _)
  · exact framed_asExpr (framed_interpolatedString hg _)
  · exact framed_asExpr (framed_single _)
  · exact framed_asExpr (framed_single _)
  · exact framed_asExpr (framed_single _)
  · exact framed_asExpr (framed_single _)
  · exact framed_asExpr (framed_pathExpr hg)
  · exact framed_asExpr (framed_parenOrLambda hg)
  · exact framed_asExpr (framed_arrayExpr hg)
  · exact framed_blockExpr hg
  · exact framed_asExpr (framed_applied (hg.expr _) _)
  · exact framed_asExpr (framed_applied (hg.expr _) _)
  · exact framed_asExpr (framed_applied (hg.expr _) _)
  · exact framed_asExpr (framed_applied (hg.expr _) _)
  · exact framed_ifExpr hg
  · exact framed_asExpr (framed_matchExpr hg)
  · exact framed_asExpr (.map (framed_lambda hg))
  · exact framed_asExpr (framed_spawnExpr hg)
  · exact framed_asExpr (framed_selectExpr hg _)
  · exact framed_asExpr (framed_selectExpr hg _)
  · exact framed_asExpr (framed_joinExpr hg)
  · exact framed_asExpr (framed_scopeExpr hg)
  · exact framed_asExpr (framed_tryExpr hg)
  · exact framed_asExpr (.bind .advance fun _ => .map hg.block)
  · exact .expected _

theorem framed_indexPair (object : Expr) : Framed deepest (indexPair object) (indexPair object) :=
  .bind .span fun _ => .bind (.query _) fun _ => .bind .advance fun _ => .bind .freshId fun _ =>
    framed_exprNode _ _

theorem framed_member (hg : g.Framed deepest g') (object : Expr) :
    Framed deepest (member g object) (member g' object) := by
  refine .bind .kind fun kind => ?_
  split
  · refine .bind .advance fun _ => .bind (.query _) fun isCall => .ite ?_ (framed_exprNode _ _)
    exact .bind (framed_args hg) fun _ => framed_exprNode _ _
  · exact .bind (.query _) fun _ => .bind .advance fun _ => framed_exprNode _ _
  · exact framed_indexPair object
  · exact .expected _

theorem framed_continuation (hg : g.Framed deepest g') (left : Expr) :
    Framed deepest (continuation g left) (continuation g' left) := by
  refine .bind .kind fun kind => ?_
  split
  · exact .bind (framed_args hg) fun _ => framed_exprNode _ _
  · exact .bind .advance fun _ => .bind (.enclosed (hg.expr 0)) fun _ => .bind (.expect _) fun _ =>
      framed_exprNode _ _
  · exact .bind .advance fun _ => framed_exprNode _ _
  · exact .bind .advance fun _ => framed_member hg left
  · exact .expected _

theorem framed_operation (hg : g.Framed deepest g') (op : OperatorToken) (left : Expr) :
    Framed deepest (operation g op left) (operation g' op left) :=
  .bind .advance fun _ => .bind (hg.expr _) fun _ => .map .freshId

theorem framed_extend (hg : g.Framed deepest g') (minPower : Nat) (left : Expr) :
    Framed deepest (extend g minPower left) (extend g' minPower left) := by
  refine .bind .kind fun token => ?_
  split
  · exact .ite (.value _) (.map (framed_continuation hg left))
  · split
    · exact .ite (.value _) (.map (framed_operation hg _ left))
    · exact .value _

theorem framed_exprRule (hg : g.Framed deepest g') (minPower : Nat) :
    Framed deepest (exprRule g minPower) (exprRule g' minPower) :=
  .bind (framed_operand hg) fun first => .loop (framed_extend hg minPower) first

end ActorFrontend.Parser
