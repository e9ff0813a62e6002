import ActorFrontend.Proofs.Alike.Statements
import ActorFrontend.Proofs.Nesting.Expressions

/-!
# What nests in statements and blocks
-/

namespace ActorFrontend

variable {R : Regime} {n : Nat} {g : Rules} {loud : Bool}

namespace Parser

open Makes

theorem keeps_label? : label?.Keeps loud := by
  have h : Alike (⟨true, true, true⟩ : Likeness) loud false none .unread Footing.unread.look (· = ·)
      label? label? :=
    alike_label? rfl
  exact h.keepAlike.left

theorem keeps_loopLabel : loopLabel.Keeps loud := by
  have h : Alike (⟨true, true, true⟩ : Likeness) loud false none .unread .unread (· = ·)
      loopLabel loopLabel :=
    alike_loopLabel
  exact h.keepAlike.left

theorem makes_valueBeforeEnd (hg : g.Make R n) : Makes R true (R.Good n) (valueBeforeEnd g) :=
  .optional (.query _) (makes_expr hg)

theorem makes_letStmt (hg : g.Make R n) :
    Makes R true (fun kind : StmtKind => R.All n kind.shells) (letStmt g) := by
  refine .require (.bind hg.pattern.louder fun pattern => ?_)
  refine .bind (makes_typeAfterColon hg).louder fun type => .require ?_
  refine .bind (makes_expr hg) fun init => .semicolon (.value fun hinit htype hpattern => ?_)
  simp_all

theorem makes_varStmt (hg : g.Make R n) :
    Makes R true (fun kind : StmtKind => R.All n kind.shells) (varStmt g) := by
  refine .require (.valueOf fun name => .bind (makes_typeAfterColon hg).louder fun type => .require ?_)
  exact .bind (makes_expr hg) fun init => .semicolon (.value fun hinit htype => by simp_all)

theorem makes_forStmt (hg : g.Make R n) (label : Option String) :
    Makes R true (fun kind : StmtKind => R.All n kind.shells) (forStmt g label) := by
  refine .require (.acceptIf fun isAwait => .bind hg.pattern.louder fun pattern => .require ?_)
  refine .bind (makes_condition hg) fun iter => .bind hg.block fun body => ?_
  exact .value fun hbody hiter hpattern => by simp_all

theorem makes_whileStmt (hg : g.Make R n) (label : Option String) :
    Makes R true (fun kind : StmtKind => R.All n kind.shells) (whileStmt g label) := by
  refine .advance (.bind (makes_condition hg) fun cond => .bind hg.block fun body => ?_)
  exact .value fun hbody hcond => by simp_all

theorem makes_loopStmt (hg : g.Make R n) (label : Option String) :
    Makes R true (fun kind : StmtKind => R.All n kind.shells) (loopStmt g label) :=
  .advance (.bind hg.block fun _ => .value id)

theorem makes_breakStmt (hg : g.Make R n) :
    Makes R true (fun kind : StmtKind => R.All n kind.shells) (breakStmt g) := by
  refine .advance (.pass keeps_label? fun label => .bind (makes_valueBeforeEnd hg) fun value => ?_)
  refine .semicolon (.value fun hvalue => ?_)
  cases value with
  | none => exact Regime.all_nil
  | some value => simpa using hvalue

theorem makes_continueStmt : Makes R true (fun kind : StmtKind => R.All n kind.shells) continueStmt :=
  .advance (.pass keeps_label? fun _ => .semicolon (.value Regime.all_nil))

theorem makes_returnStmt (hg : g.Make R n) :
    Makes R true (fun kind : StmtKind => R.All n kind.shells) (returnStmt g) := by
  refine .advance (.bind (makes_valueBeforeEnd hg) fun value => .semicolon (.value fun hvalue => ?_))
  cases value with
  | none => exact Regime.all_nil
  | some value => simpa using hvalue

theorem makes_blockLikeStmt (hg : g.Make R n) :
    Makes R true (fun kind : StmtKind => R.All n kind.shells) (blockLikeStmt g) :=
  .bind hg.blockLike fun _ => .acceptIf fun _ => .value id

theorem makes_exprStmt (hg : g.Make R n) :
    Makes R true (fun kind : StmtKind => R.All n kind.shells) (exprStmt g) := by
  refine .bind (makes_expr hg) fun e => .kind fun k => ?_
  split
  · refine .advance (.bind (makes_expr hg) fun value => .semicolon (.value fun hvalue he => ?_))
    simp_all
  · refine .acceptIf fun ended => ?_
    split
    · exact .value id
    · refine .query fun value => ?_
      split
      · exact .value id
      · exact .semicolon (.value id)

theorem makes_stmtKind (hg : g.Make R n) (label : Option String) :
    Makes R true (fun kind : StmtKind => R.All n kind.shells) (stmtKind g label) := by
  refine .kind fun k => ?_
  split
  · exact makes_letStmt hg
  · exact makes_varStmt hg
  · exact makes_forStmt hg label
  · exact makes_whileStmt hg label
  · exact makes_loopStmt hg label
  · exact makes_breakStmt hg
  · exact makes_continueStmt
  · exact makes_returnStmt hg
  · exact .bind hg.block fun block => .value id
  · refine .query fun blockLike => ?_
    split
    · exact makes_blockLikeStmt hg
    · exact makes_exprStmt hg

theorem makes_stmt (hg : g.Make R n) : Makes R true (R.Good n) (stmt g) :=
  .start fun _ => .pass keeps_loopLabel fun label => .bind (makes_stmtKind hg label) fun _ =>
    .node fun _ _ => id

/-- A block is one level deeper than its statements. -/
theorem makes_blockRule (hg : g.Make R n) : Makes R true (R.Good (n + 1)) (blockRule g) := by
  have hstmts : Makes R true (R.Good n) (enclosed (bodyParts .statements (fun stmts => do
      let next ← stmt g
      pure (next :: stmts)) [])) :=
    .enclosed (.bodyParts (fun stmts => .found (makes_stmt hg) stmts) Regime.all_nil)
  refine .start fun start => .require (.bind hstmts fun stmts => .require (.spanFrom fun span => ?_))
  refine .value fun hstmts => ?_
  have hnest : R.All (n + 1) [.nest (shells stmts.reverse)] := Regime.all_nest (Regime.good_reverse hstmts)
  simpa using hnest

end Parser

namespace Parser

/-- What a splice makes, given what the expression in it makes. -/
theorem makes_splice {levels : Nat} (hlevels : levels ≤ R.limits.maxDepth)
    (hexpr : Makes R true (R.Good levels) ((Rules.within levels).expr 0)) {t : Token}
    {tokens : List Token} {span : Span} (ht : R.known t) (hin : t.HasSplice tokens span) :
    Makes R true (fun e => R.Good levels (StringPart.expr e))
      (splice (.within levels) tokens span) := by
  have hwhole : Makes R true (R.Good levels) (wholeExpr (.within levels) (.symbol .rightBrace)) := by
    refine .bind hexpr fun e => .query fun ended => ?_
    split
    · exact .value id
    · exact .expected _
  refine ⟨.splice _ _ _, fun setting s e after hs hreply hquiet => ?_⟩
  have hkept := hwhole.keeps (setting.inSplice span) (s.inSplice (setting.inSplice span) tokens)
  rw [splice_eq] at hreply
  split at hreply
  case h_2 => cases hreply
  case h_1 e' inner hinner =>
    cases hreply
    rw [hinner] at hkept
    have hwithin : (s.inSplice (setting.inSplice span) tokens).Holds R (setting.inSplice span) := by
      refine ⟨hs.limits, fun lexeme hlexeme => ?_⟩
      exact R.known_splice ht hin _ (Lexeme.token_mem_of_mem_significant hlexeme)
    have hsilent (h : R.silent = true) : inner.errors = [] := (hquiet h).of_leaveSplice.2
    have hgood : R.Good levels e := by
      refine hwhole.makes _ _ e inner hwithin hinner fun h => ⟨hsilent h, ?_⟩
      exact hkept.unspent (hsilent h)
    exact Regime.all_cons.2
      ⟨R.good_splice hlevels ht hin hs.limits hinner hsilent hgood, Regime.all_nil⟩

theorem makes_tooDeep {α : Type} {good : α → Prop} : Makes R loud good (tooDeep : Parser α) := .fails

end Parser

/-- Where no more levels are left than the limits allow, everything that is read has the property. -/
theorem Rules.make_within (R : Regime) {levels : Nat} (hlevels : levels ≤ R.limits.maxDepth) :
    (Rules.within levels).Make R levels := by
  induction levels with
  | zero =>
    exact
      { type := Parser.makes_tooDeep
        pattern := Parser.makes_tooDeep
        expr _ := Parser.makes_tooDeep
        block := Parser.makes_tooDeep
        blockLike := Parser.makes_tooDeep
        splice _ _ _ ht hin := Parser.makes_splice hlevels Parser.makes_tooDeep ht hin }
  | succ levels ih =>
    have hg : (Rules.within levels).Make R levels := ih (by omega)
    have hexpr (minPower : Nat) :
        Parser.Makes R true (R.Good (levels + 1)) ((Rules.within (levels + 1)).expr minPower) :=
      .nested (Parser.makes_exprRule hg minPower)
    exact
      { type := .nested (Parser.makes_typeRule hg)
        pattern := .nested (Parser.makes_patternRule hg)
        expr := hexpr
        block := .nested (Parser.makes_blockRule hg)
        blockLike := .nested (Parser.makes_operand hg)
        splice _ _ _ ht hin := Parser.makes_splice hlevels (hexpr 0) ht hin }

end ActorFrontend
