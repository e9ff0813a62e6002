import ActorFrontend.Proofs.Motion.Expressions

/-!
# Statements and blocks that move
-/

namespace ActorFrontend

variable {m : Motion} {g : Rules}

theorem isBlockLike_relabel (r : Renaming) (e : Expr) :
    (relabel r e).isBlockLike = e.isBlockLike := by
  obtain ⟨id, span, kind⟩ := e
  cases kind <;> rfl

namespace Parser

open Moves

theorem moves_label? : Moves m id label? label? := by
  refine .kind (fun _ => .value rfl) fun k _ => ?_
  split
  · exact .advance (.value rfl)
  · exact .value rfl

theorem moves_loopLabel : Moves m id loopLabel loopLabel := by
  refine .pass moves_label? fun label => ?_
  cases label with
  | none => exact .value rfl
  | some name =>
    refine .expect (.query (fun s => by simp) fun atLoop => ?_)
    split
    · exact .value rfl
    · exact .expected _

theorem moves_valueBeforeEnd (hg : g.Move m) :
    Moves m (relabel m.renaming) (valueBeforeEnd g) (valueBeforeEnd g) :=
  .optional (looked fun s => by simp [atStatementEnd]) (moves_expr hg)

theorem moves_letStmt (hg : g.Move m) : Moves m (relabel m.renaming) (letStmt g) (letStmt g) := by
  refine .expectKeyword (.bind hg.pattern fun pattern => .bind (moves_typeAfterColon hg) fun type => ?_)
  refine .expect (.bind (moves_expr hg) fun init => .semicolon (.value ?_))
  simp

theorem moves_varStmt (hg : g.Move m) : Moves m (relabel m.renaming) (varStmt g) (varStmt g) := by
  refine .expectKeyword (.name fun name => .bind (moves_typeAfterColon hg) fun type => .expect ?_)
  exact .bind (moves_expr hg) fun init => .semicolon (.value (by simp))

theorem moves_forStmt (hg : g.Move m) (label : Option String) :
    Moves m (relabel m.renaming) (forStmt g label) (forStmt g label) := by
  refine .expectKeyword (.acceptKeyword fun isAwait => .bind hg.pattern fun pattern => ?_)
  refine .expectKeyword (.bind (moves_condition hg) fun iter => .bind hg.block fun body => .value rfl)

theorem moves_whileStmt (hg : g.Move m) (label : Option String) :
    Moves m (relabel m.renaming) (whileStmt g label) (whileStmt g label) :=
  .advance (.bind (moves_condition hg) fun _ => .bind hg.block fun _ => .value rfl)

theorem moves_loopStmt (hg : g.Move m) (label : Option String) :
    Moves m (relabel m.renaming) (loopStmt g label) (loopStmt g label) :=
  .advance (.bind hg.block fun _ => .value rfl)

theorem moves_breakStmt (hg : g.Move m) :
    Moves m (relabel m.renaming) (breakStmt g) (breakStmt g) := by
  refine .advance (.pass moves_label? fun label => .bind (moves_valueBeforeEnd hg) fun value => ?_)
  exact .semicolon (.value (by simp))

theorem moves_continueStmt : Moves m (relabel m.renaming) continueStmt continueStmt :=
  .advance (.pass moves_label? fun _ => .semicolon (.value rfl))

theorem moves_returnStmt (hg : g.Move m) :
    Moves m (relabel m.renaming) (returnStmt g) (returnStmt g) :=
  .advance (.bind (moves_valueBeforeEnd hg) fun _ => .semicolon (.value (by simp)))

theorem moves_blockLikeStmt (hg : g.Move m) :
    Moves m (relabel m.renaming) (blockLikeStmt g) (blockLikeStmt g) :=
  .bind hg.blockLike fun _ => .accept fun _ => .value rfl

theorem moves_exprStmt (hg : g.Move m) : Moves m (relabel m.renaming) (exprStmt g) (exprStmt g) := by
  have hend (e : Expr) : Moves m (relabel m.renaming)
      (do
        if ← accept .semicolon then
          pure (.expr e true)
        else if ← Parser.query fun s => s.kind.isSymbol .rightBrace || e.isBlockLike then
          pure (.expr e false)
        else
          semicolon
          pure (.expr e true) : Parser StmtKind)
      (do
        if ← accept .semicolon then
          pure (.expr (relabel m.renaming e) true)
        else if ← Parser.query fun s =>
            s.kind.isSymbol .rightBrace || (relabel m.renaming e).isBlockLike then
          pure (.expr (relabel m.renaming e) false)
        else
          semicolon
          pure (.expr (relabel m.renaming e) true) : Parser StmtKind) := by
    refine .accept fun ended => ?_
    split
    · exact .value rfl
    · rw [isBlockLike_relabel]
      refine .query (fun s => by simp) fun value => ?_
      split
      · exact .value rfl
      · exact .semicolon (.value rfl)
  refine .bind (moves_expr hg) fun e => .kind (fun fragments => hend e) fun k _ => ?_
  split
  · exact .advance (.bind (moves_expr hg) fun value => .semicolon (.value rfl))
  · exact hend e

theorem startsBlockLike_move (s : State) : startsBlockLike (s.move m) = startsBlockLike s := by
  unfold startsBlockLike
  rw [State.kind_move, State.peek_move, State.peek_move, TokenKind.isWord_shift]
  generalize s.kind = k
  generalize s.peek 1 = next
  cases next <;> cases k <;> rfl

theorem moves_stmtKind (hg : g.Move m) (label : Option String) :
    Moves m (relabel m.renaming) (stmtKind g label) (stmtKind g label) := by
  have hexpr : Moves m (relabel m.renaming)
      (do if ← Parser.query startsBlockLike then blockLikeStmt g else exprStmt g)
      (do if ← Parser.query startsBlockLike then blockLikeStmt g else exprStmt g) := by
    refine .query startsBlockLike_move fun blockLike => ?_
    split
    · exact moves_blockLikeStmt hg
    · exact moves_exprStmt hg
  refine .kind (fun _ => hexpr) fun k _ => ?_
  split
  · exact moves_letStmt hg
  · exact moves_varStmt hg
  · exact moves_forStmt hg label
  · exact moves_whileStmt hg label
  · exact moves_loopStmt hg label
  · exact moves_breakStmt hg
  · exact moves_continueStmt
  · exact moves_returnStmt hg
  · exact .bind hg.block fun block => .value rfl
  · exact hexpr

theorem moves_stmt (hg : g.Move m) : Moves m (relabel m.renaming) (stmt g) (stmt g) :=
  .start fun _ => .pass moves_loopLabel fun label => .bind (moves_stmtKind hg label) fun _ =>
    .node fun _ _ => rfl

theorem moves_blockRule (hg : g.Move m) :
    Moves m (relabel m.renaming) (blockRule g) (blockRule g) := by
  have hstmts : Moves m (relabel m.renaming)
      (enclosed (bodyParts .statements (fun stmts => do
        let next ← stmt g
        pure (next :: stmts)) []))
      (enclosed (bodyParts .statements (fun stmts => do
        let next ← stmt g
        pure (next :: stmts)) [])) := by
    refine .enclosed (.statements (fun stmts => ?_) [])
    refine .bind (moves_stmt hg) fun next => ?_
    exact .value rfl
  refine .start fun start => .expect (.bind hstmts fun stmts => .expect (.spanFrom fun span => ?_))
  exact .value (by simp)

end Parser

/-- Whatever is read does not depend on where it stands, nor on how many numbers were given out
before. -/
theorem Rules.move_within (m : Motion) (levels : Nat) : (Rules.within levels).Move m := by
  induction levels with
  | zero => exact ⟨.tooDeep, .tooDeep, fun _ => .tooDeep, .tooDeep, .tooDeep⟩
  | succ levels ih =>
    exact
      { type := .nested (Parser.moves_typeRule ih)
        pattern := .nested (Parser.moves_patternRule ih)
        expr minPower := .nested (Parser.moves_exprRule ih minPower)
        block := .nested (Parser.moves_blockRule ih)
        blockLike := .nested (Parser.moves_operand ih) }

end ActorFrontend
