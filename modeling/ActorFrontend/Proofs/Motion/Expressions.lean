import ActorFrontend.Proofs.Alike.Expressions
import ActorFrontend.Proofs.Motion.Types

/-!
# Expressions that move
-/

namespace ActorFrontend

variable {m : Motion} {g : Rules}

theorem State.inSplice_move (s : State) (setting : Setting) (tokens : List Token) :
    (s.move m).inSplice (setting.move m) (tokens.map (Token.shift m.bytes)) =
      (s.inSplice setting tokens).move m := by
  unfold State.inSplice
  rw [Lexeme.significant_shift]
  exact State.initial_move _ _ _

namespace Parser

open Moves

theorem moves_expr (hg : g.Move m) : Moves m (relabel m.renaming) (expr g) (expr g) := hg.expr 0

theorem moves_exprNode {start : Nat} {kind kind' : ExprKind}
    (h : relabel m.renaming kind = kind') :
    Moves m (relabel m.renaming) (exprNode start kind) (exprNode (start + m.bytes) kind') :=
  .node fun id span => by simp [← h]

theorem moves_asExpr {kind kind' : Parser ExprKind} (h : Moves m (relabel m.renaming) kind kind') :
    Moves m (relabel m.renaming) (asExpr kind) (asExpr kind') :=
  .start fun _ => .bind h fun _ => moves_exprNode rfl

/-! ## Expressions in special contexts -/

theorem moves_condition (hg : g.Move m) :
    Moves m (relabel m.renaming) (condition g) (condition g) :=
  .query (fun _ => rfl) fun _ => .withContext (moves_expr hg)

theorem moves_armHead (hg : g.Move m) : Moves m (relabel m.renaming) (armHead g) (armHead g) :=
  .query (fun _ => rfl) fun _ => .withContext (moves_expr hg)

theorem moves_blockExpr (hg : g.Move m) :
    Moves m (relabel m.renaming) (blockExpr g) (blockExpr g) :=
  moves_asExpr (.bind hg.block fun _ => .value rfl)

theorem moves_armBody (hg : g.Move m) : Moves m (relabel m.renaming) (armBody g) (armBody g) := by
  refine .sees fun block => ?_
  split
  · exact moves_blockExpr hg
  · exact moves_expr hg

theorem moves_args (hg : g.Move m) : Moves m (relabel m.renaming) (args g) (args g) :=
  .expect (.enclosed (.commaList (moves_expr hg)))

/-! ## Literals -/

theorem moves_durationUnit? : Moves m id durationUnit? durationUnit? := by
  intro setting s
  rw [durationUnit?_eq, durationUnit?_eq]
  have hunit : (s.move m).attachedUnit? = s.attachedUnit? := by
    unfold State.attachedUnit?
    rw [State.rest_move]
    cases s.rest with
    | nil => rfl
    | cons lexeme rest =>
      simp only [List.map_cons, Lexeme.shift, Token.kind_shift, Token.span_shift]
      cases lexeme.token.kind with
      | ident suffix => simp [TokenKind.shift, Span.shift, State.move]
      | interpolated fragments => rfl
      | _ => rfl
  rw [hunit]
  rfl

theorem moves_integerOrDuration (value : UInt64) :
    Moves m (relabel m.renaming) (integerOrDuration value) (integerOrDuration value) := by
  refine .advance (.pass moves_durationUnit? fun unit => ?_)
  cases unit with
  | some unit => exact .advance (.value rfl)
  | none => exact .value rfl

theorem leaveSplice_move (setting : Setting) (outer inner : State) :
    leaveSplice (setting.move m) (outer.move m) (inner.move m) =
      (leaveSplice setting outer inner).move m := by
  have hrecords (errors : List ParseError) (s : State) :
      (errors.map (ParseError.shift m.bytes)).foldl
        (fun s error => s.record (setting.move m) error) (s.move m) =
      (errors.foldl (fun s error => s.record setting error) s).move m := by
    induction errors generalizing s with
    | nil => rfl
    | cons error errors ih =>
      rw [List.map_cons, List.foldl_cons, List.foldl_cons, State.record_move, ih]
  exact hrecords inner.errors { outer with nextId := inner.nextId }

theorem moves_wholeExpr (hg : g.Move m) (wanted : Expected) :
    Moves m (relabel m.renaming) (wholeExpr g wanted) (wholeExpr g wanted) := by
  refine .bind (moves_expr hg) fun e => .query (fun s => by simp) fun ended => ?_
  split
  · exact .value rfl
  · exact .expected wanted

theorem moves_splice (hg : g.Move m) (tokens : List Token) (span : Span) :
    Moves m (relabel m.renaming) (splice g tokens span)
      (splice g (tokens.map (Token.shift m.bytes)) (span.shift m.bytes)) := by
  intro setting s
  have hsetting : (setting.move m).inSplice (span.shift m.bytes) = (setting.inSplice span).move m := rfl
  have hwhole := moves_wholeExpr hg (.symbol .rightBrace) (setting.inSplice span)
    (s.inSplice (setting.inSplice span) tokens)
  rw [splice_eq, splice_eq, hsetting, State.inSplice_move, hwhole]
  cases wholeExpr g (.symbol .rightBrace) (setting.inSplice span)
      (s.inSplice (setting.inSplice span) tokens) with
  | ok e inner => exact congrArg (Reply.ok _) (leaveSplice_move setting s inner)
  | fail e inner => exact congrArg (Reply.fail _) (leaveSplice_move setting s inner)

theorem moves_stringParts (hg : g.Move m) (fragments : List Fragment) :
    Moves m (relabel m.renaming) (stringParts g fragments)
      (stringParts g (fragments.map (Fragment.shift m.bytes))) := by
  induction fragments with
  | nil => exact .value rfl
  | cons fragment fragments ih =>
    cases fragment with
    | text value span =>
      rw [List.map_cons, Fragment.shift]
      exact .bind ih fun more => .value rfl
    | splice tokens span =>
      rw [List.map_cons, Fragment.shift, shiftTokens_eq]
      exact .bind (moves_splice hg tokens span) fun e => .bind ih fun more => .value rfl

theorem moves_interpolatedString (hg : g.Move m) (fragments : List Fragment) :
    Moves m (relabel m.renaming) (interpolatedString g fragments)
      (interpolatedString g (fragments.map (Fragment.shift m.bytes))) :=
  .advance (.bind (moves_stringParts hg fragments) fun parts => .value (by simp))

/-! ## Names -/

theorem opensFields_move (s : State) : opensFields (s.move m) = opensFields s := by
  unfold opensFields
  rw [State.peek_move, State.peek_move]
  generalize s.peek 1 = first
  generalize s.peek 2 = second
  cases second <;> cases first <;> rfl

theorem moves_fieldInit (hg : g.Move m) :
    Moves m (relabel m.renaming) (fieldInit g) (fieldInit g) := by
  refine .start fun start => .span fun nameSpan => .name fun name => .accept fun given => ?_
  split
  · exact .bind (moves_expr hg) fun value => .spanFrom fun span => .value rfl
  · exact .freshId fun id => .spanFrom fun span => .value rfl

theorem moves_pathExpr (hg : g.Move m) : Moves m (relabel m.renaming) (pathExpr g) (pathExpr g) := by
  refine .pass moves_path fun path => .query (fun s => ?_) fun fields => ?_
  · simp [opensFields_move]
  · split
    · refine .expect (.bind (.enclosed (.commaList (moves_fieldInit hg))) fun fields => .value ?_)
      simp [relabel]
    · split
      · exact .value rfl
      · exact .value rfl

/-! ## Brackets and lambdas -/

theorem moves_lambdaParam (hg : g.Move m) :
    Moves m (relabel m.renaming) (lambdaParam g) (lambdaParam g) :=
  .start fun _ => .name fun _ => .bind (moves_typeAfterColon hg) fun _ => .spanFrom fun _ => .value rfl

theorem moves_lambdaHead (hg : g.Move m) :
    Moves m (relabel m.renaming) (lambdaHead g) (lambdaHead g) :=
  .expect (.bind (.commaList (moves_lambdaParam hg)) fun _ => .bind (moves_resultType hg) fun _ =>
    .expect (.value rfl))

theorem moves_lambda (hg : g.Move m) : Moves m (relabel m.renaming) (lambda g) (lambda g) := by
  refine .acceptKeyword fun isMove => .bind (moves_lambdaHead hg) fun head => ?_
  exact .bind (moves_expr hg) fun body => .value rfl

theorem moves_parenOrTuple (hg : g.Move m) :
    Moves m (relabel m.renaming) (parenOrTuple g) (parenOrTuple g) := by
  refine .advance (.enclosed (.accept fun empty => ?_))
  split
  · exact .value rfl
  · refine .bind (moves_expr hg) fun first => .accept fun several => ?_
    split
    · exact .bind (.commaList (moves_expr hg)) fun more => .value (by simp [relabel])
    · exact .expect (.value rfl)

theorem moves_parenOrLambda (hg : g.Move m) :
    Moves m (relabel m.renaming) (parenOrLambda g) (parenOrLambda g) := by
  refine .query (fun _ => rfl) fun lambdas => ?_
  split
  · refine .bind (.attempt (moves_lambdaHead hg)) fun head => ?_
    cases head with
    | some head => exact .bind (moves_expr hg) fun body => .value rfl
    | none => exact moves_parenOrTuple hg
  · exact moves_parenOrTuple hg

theorem moves_arrayExpr (hg : g.Move m) : Moves m (relabel m.renaming) (arrayExpr g) (arrayExpr g) := by
  refine .expect (.enclosed (.accept fun empty => ?_))
  split
  · exact .value rfl
  · refine .bind (moves_expr hg) fun first => .accept fun repeated => ?_
    split
    · exact .bind (moves_expr hg) fun count => .expect (.value rfl)
    · exact .bind (.commaTail (moves_expr hg)) fun more => .value (by simp [relabel])

/-! ## Control flow -/

theorem moves_ifHead (hg : g.Move m) : Moves m (relabel m.renaming) (ifHead g) (ifHead g) :=
  .start fun _ => .expectKeyword (.bind (moves_condition hg) fun _ => .bind hg.block fun _ => .value rfl)

theorem moves_closeIfs (elseBranch : Option Expr) (heads : List OpenIf) :
    Moves m (relabel m.renaming) (closeIfs elseBranch heads)
      (closeIfs (relabel m.renaming elseBranch) (relabel m.renaming heads)) := by
  induction heads generalizing elseBranch with
  | nil => exact .value rfl
  | cons head heads ih =>
    refine .bind (moves_exprNode ?_) fun e => ih (some e)
    simp [relabel]

theorem moves_elseTurn (hg : g.Move m) (chain : List OpenIf × Option Expr) :
    Moves m (Prod.map id (relabel m.renaming)) (elseTurn g chain)
      (elseTurn g (relabel m.renaming chain)) := by
  refine .acceptKeyword fun found => ?_
  split
  · refine .seesKeyword fun another => ?_
    split
    · exact .bind (moves_ifHead hg) fun next => .value rfl
    · exact .bind (moves_blockExpr hg) fun e => .value rfl
  · exact .value rfl

theorem moves_ifExpr (hg : g.Move m) : Moves m (relabel m.renaming) (ifExpr g) (ifExpr g) := by
  have hloop : Moves m (relabel m.renaming) (loop (elseTurn g) ([], none)) (loop (elseTurn g) ([], none)) :=
    .loop (moves_elseTurn hg) ([], none)
  refine .bind (moves_ifHead hg) fun first => .bind hloop fun chain => ?_
  refine .bind (moves_closeIfs chain.2 chain.1) fun inner => moves_exprNode ?_
  simp [relabel]

theorem moves_matchArm (hg : g.Move m) : Moves m (relabel m.renaming) (matchArm g) (matchArm g) := by
  refine .start fun start => .bind hg.pattern fun pattern => ?_
  refine .bind (.optional (found fun _ _ => rfl) (moves_armHead hg)) fun guard => .expect ?_
  refine .bind (moves_armBody hg) fun body => .spanFrom fun span => .accept fun comma => .value ?_
  simp [relabel]

theorem moves_atBodyEnd {β : Type} {f : β → β} {q q' : Bool → Parser β}
    (hq : ∀ found, Moves m f (q found) (q' found)) :
    Moves m f (atBodyEnd >>= q) (atBodyEnd >>= q') :=
  .query (fun s => by simp) hq

theorem moves_matchExpr (hg : g.Move m) : Moves m (relabel m.renaming) (matchExpr g) (matchExpr g) := by
  refine .expectKeyword (.bind (moves_condition hg) fun scrutinee => .expect ?_)
  refine .bind (.enclosed (.collect (f := relabel m.renaming) (moves_atBodyEnd fun ended => ?_)))
    fun arms => .expect (.value ?_)
  · split
    · exact .value rfl
    · exact .bind (moves_matchArm hg) fun arm => .value rfl
  · simp [relabel]

theorem moves_tryExpr (hg : g.Move m) : Moves m (relabel m.renaming) (tryExpr g) (tryExpr g) := by
  refine .expectKeyword (.bind hg.block fun body => .seesKeyword fun caught => ?_)
  have hname : Moves m (Option.map id) (optional (Parser.query fun s => s.kind.isName) Parser.name)
      (optional (Parser.query fun s => s.kind.isName) Parser.name) :=
    .optional (looked fun s => by simp) (read fun _ => rfl)
  rw [Option.map_id] at hname
  split
  · refine .start fun start => .advance (.pass hname fun binding => .bind hg.block fun handler => ?_)
    exact .spanFrom fun span => .value rfl
  · exact .value rfl

/-! ## Concurrency -/

theorem moves_spawnExpr (hg : g.Move m) : Moves m (relabel m.renaming) (spawnExpr g) (spawnExpr g) := by
  refine .expectKeyword (.query (fun s => by simp) fun isLambda => ?_)
  split
  · exact .bind (moves_lambda hg) fun lambda => .value rfl
  · refine .name fun name => .bind (moves_typeArgs hg) fun typeArgs => .bind (moves_args hg) fun args => ?_
    exact .value (by simp)

theorem moves_selectArm (hg : g.Move m) :
    Moves m (relabel m.renaming) (selectArm g) (selectArm g) := by
  refine .start fun start => .name fun binding => .expectWord (.bind (moves_armHead hg) fun source => ?_)
  exact .expect (.bind (moves_armBody hg) fun body => .spanFrom fun span => .value rfl)

theorem moves_timeoutArm (hg : g.Move m) :
    Moves m (relabel m.renaming) (timeoutArm g) (timeoutArm g) := by
  refine .start fun start => .advance (.bind (moves_armHead hg) fun duration => .expect ?_)
  exact .bind (moves_armBody hg) fun body => .spanFrom fun span => .value rfl

theorem moves_armSeparator : Moves m id armSeparator armSeparator := by
  refine .accept fun comma => ?_
  split
  · exact .value rfl
  · refine .sees fun closed => ?_
    split
    · exact .value rfl
    · exact .expected _

theorem moves_anyArm (hg : g.Move m) (arms : List SelectArm × Option TimeoutArm) :
    Moves m (relabel m.renaming) (anyArm g arms) (anyArm g (relabel m.renaming arms)) := by
  obtain ⟨arms, first⟩ := arms
  refine .query (fun s => by simp) fun timeout => ?_
  split
  · refine .span fun keyword => .bind (moves_timeoutArm hg) fun arm => ?_
    cases first with
    | none => exact .value rfl
    | some first => exact .bind (.record .afterArm keyword) fun _ => .value rfl
  · exact .bind (moves_selectArm hg) fun arm => .value rfl

theorem moves_selectExpr (hg : g.Move m) (kind : SelectKind) :
    Moves m (relabel m.renaming) (selectExpr g kind) (selectExpr g kind) := by
  have harms : Moves m (relabel m.renaming) (loop (selectTurn g) ([], none))
      (loop (selectTurn g) ([], none)) := by
    refine .loop (fun arms => moves_atBodyEnd fun ended => ?_) ([], none)
    split
    · exact .value rfl
    · exact .bind (moves_anyArm hg arms) fun found => .pass moves_armSeparator fun _ => .value rfl
  refine .advance (.expect (.bind (.enclosed harms) fun found => .expect (.value ?_)))
  simp [relabel]

theorem moves_joinExpr (hg : g.Move m) : Moves m (relabel m.renaming) (joinExpr g) (joinExpr g) := by
  have helems : Moves m (relabel m.renaming)
      (do
        let first ← expr g
        let more ← commaTail .rightBrace (expr g)
        pure (first :: more))
      (do
        let first ← expr g
        let more ← commaTail .rightBrace (expr g)
        pure (first :: more)) :=
    .bind (moves_expr hg) fun first => .bind (.commaTail (moves_expr hg)) fun more => .value rfl
  exact .expectKeyword (.expect (.bind (.enclosed helems) fun elems => .value (by simp)))

theorem moves_scopeExpr (hg : g.Move m) : Moves m (relabel m.renaming) (scopeExpr g) (scopeExpr g) := by
  refine .expectKeyword (.sees fun block => ?_)
  split
  · exact .bind hg.block fun block => .value rfl
  refine .accept fun dot => ?_
  split
  · refine .acceptWord fun launch => ?_
    split
    · exact .bind hg.block fun block => .value rfl
    refine .acceptWord fun cancel => ?_
    split
    · exact .expect (.expect (.value rfl))
    refine .acceptWord fun isCancelled => ?_
    split
    · exact .expect (.expect (.value rfl))
    · exact .expected _
  · exact .expected _

/-! ## Operands and operators -/

theorem moves_single {kind : ExprKind} (h : relabel m.renaming kind = kind) :
    Moves m (relabel m.renaming) (single kind) (single kind) := .advance (.value h)

theorem moves_applied {operand : Parser Expr} {make : Expr → ExprKind}
    (hmake : ∀ e, relabel m.renaming (make e) = make (relabel m.renaming e))
    (hoperand : Moves m (relabel m.renaming) operand operand) :
    Moves m (relabel m.renaming) (applied operand make) (applied operand make) :=
  .advance (.bind hoperand fun e => .value (hmake e))

theorem moves_operand (hg : g.Move m) : Moves m (relabel m.renaming) (operand g) (operand g) := by
  refine .kind (fun fragments => moves_asExpr (moves_interpolatedString hg fragments)) fun k hk => ?_
  split
  · exact moves_asExpr (moves_integerOrDuration _)
  · exact moves_asExpr (moves_single rfl)
  · exact moves_asExpr (moves_single rfl)
  · exact absurd rfl (hk _)
  · exact moves_asExpr (moves_single rfl)
  · exact moves_asExpr (moves_single rfl)
  · exact moves_asExpr (moves_single rfl)
  · exact moves_asExpr (moves_single rfl)
  · exact moves_asExpr (moves_pathExpr hg)
  · exact moves_asExpr (moves_parenOrLambda hg)
  · exact moves_asExpr (moves_arrayExpr hg)
  · exact moves_blockExpr hg
  · exact moves_asExpr (moves_applied (fun _ => rfl) (hg.expr _))
  · exact moves_asExpr (moves_applied (fun _ => rfl) (hg.expr _))
  · exact moves_asExpr (moves_applied (fun _ => rfl) (hg.expr _))
  · exact moves_asExpr (moves_applied (fun _ => rfl) (hg.expr _))
  · exact moves_ifExpr hg
  · exact moves_asExpr (moves_matchExpr hg)
  · exact moves_asExpr (.bind (moves_lambda hg) fun lambda => .value rfl)
  · exact moves_asExpr (moves_spawnExpr hg)
  · exact moves_asExpr (moves_selectExpr hg _)
  · exact moves_asExpr (moves_selectExpr hg _)
  · exact moves_asExpr (moves_joinExpr hg)
  · exact moves_asExpr (moves_scopeExpr hg)
  · exact moves_asExpr (moves_tryExpr hg)
  · exact moves_asExpr (.advance (.bind hg.block fun block => .value rfl))
  · exact .expected _

/-- A node that starts where its first part does. -/
theorem moves_nodeFrom {left : Expr} {kind kind' : ExprKind} (h : relabel m.renaming kind = kind') :
    Moves m (relabel m.renaming) (exprNode left.span.start kind)
      (exprNode (relabel m.renaming left).span.start kind') := by
  cases left
  exact moves_exprNode h

theorem moves_indexPair (object : Expr) :
    Moves m (relabel m.renaming) (indexPair object) (indexPair (relabel m.renaming object)) := by
  refine .span fun token => .query (fun s => by simp) fun text => .advance (.freshId fun id => ?_)
  refine moves_nodeFrom ?_
  cases object
  simp [Span.shift, Nat.add_right_comm]

theorem moves_member (hg : g.Move m) (object : Expr) :
    Moves m (relabel m.renaming) (member g object) (member g (relabel m.renaming object)) := by
  refine .kind (fun _ => .expected _) fun k _ => ?_
  split
  · refine .advance (.sees fun called => ?_)
    split
    · refine .bind (moves_args hg) fun args => moves_nodeFrom ?_
      simp
    · exact moves_nodeFrom rfl
  · exact .query (fun s => by simp) fun field => .advance (moves_nodeFrom rfl)
  · exact moves_indexPair object
  · exact .expected _

theorem moves_continuation (hg : g.Move m) (left : Expr) :
    Moves m (relabel m.renaming) (continuation g left) (continuation g (relabel m.renaming left)) := by
  refine .kind (fun _ => .expected _) fun k _ => ?_
  split
  · refine .bind (moves_args hg) fun args => moves_nodeFrom ?_
    simp
  · exact .advance (.bind (.enclosed (moves_expr hg)) fun index => .expect (moves_nodeFrom rfl))
  · exact .advance (moves_nodeFrom rfl)
  · exact .advance (moves_member hg left)
  · exact .expected _

theorem moves_operation (hg : g.Move m) (op : OperatorToken) (left : Expr) :
    Moves m (relabel m.renaming) (operation g op left) (operation g op (relabel m.renaming left)) := by
  refine .advance (.bind (hg.expr _) fun right => .freshId fun id => .value ?_)
  cases left
  cases right
  cases op <;> simp [OperatorToken.apply, Span.cover_shift]

theorem moves_extend (hg : g.Move m) (minPower : Nat) (left : Expr) :
    Moves m (Prod.map id (relabel m.renaming)) (extend g minPower left)
      (extend g minPower (relabel m.renaming left)) := by
  refine .kind (fun _ => .value rfl) fun k _ => ?_
  split
  · split
    · exact .value rfl
    · exact .bind (moves_continuation hg left) fun e => .value rfl
  · split
    · split
      · exact .value rfl
      · exact .bind (moves_operation hg _ left) fun e => .value rfl
    · exact .value rfl

theorem moves_exprRule (hg : g.Move m) (minPower : Nat) :
    Moves m (relabel m.renaming) (exprRule g minPower) (exprRule g minPower) :=
  .bind (moves_operand hg) fun first => .loop (moves_extend hg minPower) first

end Parser

end ActorFrontend
