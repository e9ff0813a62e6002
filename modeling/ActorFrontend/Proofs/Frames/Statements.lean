import ActorFrontend.Proofs.Frames.Expressions

/-!
# The frames of statements and blocks

Blocks tie the rules together, so at every number of levels what nests answers the same whether it
is watched or not.
-/

namespace ActorFrontend

namespace Parser

open Framed

variable {deepest : Nat} {g g' : Rules}

theorem framed_label? : Framed deepest label? label? := by
  refine .bind .kind fun kind => ?_
  split
  · exact .bind .advance fun _ => .value _
  · exact .value _

theorem framed_loopLabel : Framed deepest loopLabel loopLabel := by
  refine .bind framed_label? fun label => ?_
  split
  · exact .value _
  · exact .bind (.expect _) fun _ => .bind (.query _) fun _ => .ite (.value _) (.expected _)

theorem framed_valueBeforeEnd (hg : g.Framed deepest g') :
    Framed deepest (valueBeforeEnd g) (valueBeforeEnd g') :=
  .optional (.query _) (hg.expr 0)

theorem framed_letStmt (hg : g.Framed deepest g') : Framed deepest (letStmt g) (letStmt g') :=
  .bind (.expectKeyword _) fun _ => .bind hg.pattern fun _ => .bind (framed_typeAfterColon hg) fun _ =>
    .bind (.expect _) fun _ => .bind (hg.expr 0) fun _ => .map .semicolon

theorem framed_varStmt (hg : g.Framed deepest g') : Framed deepest (varStmt g) (varStmt g') :=
  .bind (.expectKeyword _) fun _ => .bind .name fun _ => .bind (framed_typeAfterColon hg) fun _ =>
    .bind (.expect _) fun _ => .bind (hg.expr 0) fun _ => .map .semicolon

theorem framed_forStmt (hg : g.Framed deepest g') (label : Option String) :
    Framed deepest (forStmt g label) (forStmt g' label) :=
  .bind (.expectKeyword _) fun _ => .bind (.acceptKeyword _) fun _ => .bind hg.pattern fun _ =>
    .bind (.expectKeyword _) fun _ => .bind (framed_condition hg) fun _ => .map hg.block

theorem framed_whileStmt (hg : g.Framed deepest g') (label : Option String) :
    Framed deepest (whileStmt g label) (whileStmt g' label) :=
  .bind .advance fun _ => .bind (framed_condition hg) fun _ => .map hg.block

theorem framed_loopStmt (hg : g.Framed deepest g') (label : Option String) :
    Framed deepest (loopStmt g label) (loopStmt g' label) :=
  .bind .advance fun _ => .map hg.block

theorem framed_breakStmt (hg : g.Framed deepest g') : Framed deepest (breakStmt g) (breakStmt g') :=
  .bind .advance fun _ => .bind framed_label? fun _ => .bind (framed_valueBeforeEnd hg) fun _ =>
    .map .semicolon

theorem framed_continueStmt : Framed deepest continueStmt continueStmt :=
  .bind .advance fun _ => .bind framed_label? fun _ => .map .semicolon

theorem framed_returnStmt (hg : g.Framed deepest g') :
    Framed deepest (returnStmt g) (returnStmt g') :=
  .bind .advance fun _ => .bind (framed_valueBeforeEnd hg) fun _ => .map .semicolon

theorem framed_blockLikeStmt (hg : g.Framed deepest g') :
    Framed deepest (blockLikeStmt g) (blockLikeStmt g') :=
  .bind hg.blockLike fun _ => .map (.accept _)

theorem framed_exprStmt (hg : g.Framed deepest g') : Framed deepest (exprStmt g) (exprStmt g') := by
  refine .bind (hg.expr 0) fun e => .bind .kind fun kind => ?_
  split
  · exact .bind .advance fun _ => .bind (hg.expr 0) fun _ => .map .semicolon
  · refine .bind (.accept _) fun ended => .ite (.value _) ?_
    exact .bind (.query _) fun _ => .ite (.value _) (.map .semicolon)

theorem framed_stmtKind (hg : g.Framed deepest g') (label : Option String) :
    Framed deepest (stmtKind g label) (stmtKind g' label) := by
  refine .bind .kind fun kind => ?_
  split
  · exact framed_letStmt hg
  · exact framed_varStmt hg
  · exact framed_forStmt hg label
  · exact framed_whileStmt hg label
  · exact framed_loopStmt hg label
  · exact framed_breakStmt hg
  · exact framed_continueStmt
  · exact framed_returnStmt hg
  · exact .map hg.block
  · exact .bind (.query _) fun _ => .ite (framed_blockLikeStmt hg) (framed_exprStmt hg)

theorem framed_stmt (hg : g.Framed deepest g') : Framed deepest (stmt g) (stmt g') :=
  .bind .start fun _ => .bind framed_loopLabel fun label => .bind (framed_stmtKind hg label) fun _ =>
    .node _ _

theorem framed_blockRule (hg : g.Framed deepest g') :
    Framed deepest (blockRule g) (blockRule g') := by
  refine .bind .start fun start => .bind (.expect _) fun _ =>
    .bind (.enclosed (.bodyParts _ (fun stmts => ?_) _)) fun _ => .bind (.expect _) fun _ =>
    .map (.spanFrom start)
  exact .map (framed_stmt hg)

end Parser

open Parser in
/-- The watch on what is deeper notices nothing. -/
theorem Rules.framed_downTo (deepest : Nat) (other : Rules) (levels : Nat) :
    (downTo deepest other levels).Framed deepest (within levels) := by
  induction levels with
  | zero => exact ⟨.tooDeep, .tooDeep, fun _ => .tooDeep, .tooDeep, .tooDeep⟩
  | succ levels ih =>
    exact
      { type := .nested (framed_typeRule ih) other.type
        pattern := .nested (framed_patternRule ih) other.pattern
        expr := fun minPower => .nested (framed_exprRule ih minPower) (other.expr minPower)
        block := .nested (framed_blockRule ih) other.block
        blockLike := .nested (framed_operand ih) other.blockLike }

open Parser in
theorem Rules.framed_within (deepest levels : Nat) :
    (within levels).Framed deepest (within levels) :=
  have h := framed_downTo deepest .refusing levels
  ⟨h.type.right, h.pattern.right, fun minPower => (h.expr minPower).right, h.block.right,
    h.blockLike.right⟩

end ActorFrontend
