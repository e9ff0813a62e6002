import ActorFrontend.Proofs.Indices.Operators

/-!
# Statements and blocks before the ways part

Statements are made of expressions, and of nothing else that goes on behind the dot.
-/

namespace ActorFrontend

open ActorFrontend.Parser

variable {k : TokenKind} {g : Rules}

theorem Detour.Before.startsBlockLike_eq {d : Detour} {s s' : State} (h : d.Before s s') :
    startsBlockLike s = startsBlockLike s' := by
  unfold startsBlockLike
  rw [← h.kind_eq]
  split
  case h_8 hscope =>
    have hkind : s.kind ≠ .symbol .dot := by simp [hscope]
    have hsecond (s : State) : s.peek 2 = s.advance.advance.kind := by rw [kind_advance, peek_advance]
    rw [← h.peek_eq hkind, hsecond, hsecond,
      (h.advance hkind).next_eq (f := (·.isWord "launch")) fun _ => TokenKind.isWord_of_isNumber _]
  all_goals rfl

namespace Parser

/-! ## Statements -/

theorem rejoins_label? : label?.Rejoins k := by
  refine .kind fun k => ?_
  split
  · exact .bind (.advance nofun) fun _ _ => .value _
  · exact .value _

theorem rejoins_loopLabel : loopLabel.Rejoins k := by
  refine .bind rejoins_label? fun label k => ?_
  split
  · exact .value _
  · refine .bind (.expect nofun) fun _ k => .test (fun k =>
      k.isKeyword .loopKw || k.isKeyword .forKw || k.isKeyword .whileKw) fun atLoop => ?_
    split
    · exact .value _
    · exact .expected _

theorem rejoins_continueStmt : continueStmt.Rejoins (.keyword .continueKw) :=
  .bind (.advance nofun) fun _ _ => .bind rejoins_label? fun _ _ => .bind .semicolon fun _ _ => .value _

section

variable (hg : g.Rejoin)
include hg

theorem rejoins_valueBeforeEnd : (valueBeforeEnd g).Rejoins k := by
  refine .optional (.seen fun d s s' hs => ?_) fun _ => rejoins_expr hg
  rw [atStatementEnd, atStatementEnd, ← hs.kind_eq, hs.atEnd_eq]

theorem rejoins_letStmt : (letStmt g).Rejoins k := by
  refine .bind (.expectKeyword _) fun _ k => .bind (hg.pattern k) fun pattern k => ?_
  refine .bind (rejoins_typeAfterColon hg) fun type k => .bind (.expect nofun) fun _ k => ?_
  exact .bind (rejoins_expr hg) fun init _ => .bind .semicolon fun _ _ => .value _

theorem rejoins_varStmt : (varStmt g).Rejoins k := by
  refine .bind (.expectKeyword _) fun _ k => .bind .name fun name k => ?_
  refine .bind (rejoins_typeAfterColon hg) fun type k => .bind (.expect nofun) fun _ k => ?_
  exact .bind (rejoins_expr hg) fun init _ => .bind .semicolon fun _ _ => .value _

theorem rejoins_forStmt (label : Option String) : (forStmt g label).Rejoins k := by
  refine .bind (.expectKeyword _) fun _ k => .bind (.acceptIf rfl) fun isAwait k => ?_
  refine .bind (hg.pattern k) fun pattern k => .bind (.expectKeyword _) fun _ k => ?_
  exact .bind (rejoins_condition hg) fun iter k => .bind (hg.block k) fun body _ => .value _

theorem rejoins_whileStmt (label : Option String) : (whileStmt g label).Rejoins (.keyword .whileKw) := by
  refine .bind (.advance nofun) fun _ k => .bind (rejoins_condition hg) fun cond k => ?_
  exact .bind (hg.block k) fun body _ => .value _

theorem rejoins_loopStmt (label : Option String) : (loopStmt g label).Rejoins (.keyword .loopKw) :=
  .bind (.advance nofun) fun _ k => .bind (hg.block k) fun _ _ => .value _

theorem rejoins_breakStmt : (breakStmt g).Rejoins (.keyword .breakKw) := by
  refine .bind (.advance nofun) fun _ k => .bind rejoins_label? fun label k => ?_
  exact .bind (rejoins_valueBeforeEnd hg) fun value _ => .bind .semicolon fun _ _ => .value _

theorem rejoins_returnStmt : (returnStmt g).Rejoins (.keyword .returnKw) := by
  refine .bind (.advance nofun) fun _ k => .bind (rejoins_valueBeforeEnd hg) fun value k => ?_
  exact .bind .semicolon fun _ _ => .value _

theorem rejoins_blockLikeStmt : (blockLikeStmt g).Rejoins k :=
  .bind (hg.blockLike k) fun _ _ => .bind (.acceptIf rfl) fun _ _ => .value _

theorem rejoins_exprStmt : (exprStmt g).Rejoins k := by
  refine .bind (rejoins_expr hg) fun e k => .kind fun k => ?_
  split
  case h_1 op hop =>
    have hk : k ≠ .symbol .dot := by
      rintro rfl
      cases hop
    refine .bind (.advance hk) fun _ k => .bind (rejoins_expr hg) fun value k => ?_
    exact .bind .semicolon fun _ _ => .value _
  case h_2 =>
    refine .bind (.acceptIf rfl) fun closed k => ?_
    split
    · exact .value _
    · refine .test (fun k => k.isSymbol .rightBrace || e.isBlockLike) fun last => ?_
      split
      · exact .value _
      · exact .bind .semicolon fun _ _ => .value _

theorem rejoins_stmtKind (label : Option String) : (stmtKind g label).Rejoins k := by
  refine .kind fun k => ?_
  split
  · exact rejoins_letStmt hg
  · exact rejoins_varStmt hg
  · exact rejoins_forStmt hg label
  · exact rejoins_whileStmt hg label
  · exact rejoins_loopStmt hg label
  · exact rejoins_breakStmt hg
  · exact rejoins_continueStmt
  · exact rejoins_returnStmt hg
  · exact .bind (hg.block _) fun block _ => .value _
  · refine .query (fun d s s' _ hs => hs.startsBlockLike_eq) fun blockLike => ?_
    split
    · exact rejoins_blockLikeStmt hg
    · exact rejoins_exprStmt hg

theorem rejoins_stmt : (stmt g).Rejoins k := by
  refine .start fun start => .bind rejoins_loopLabel fun label k => ?_
  exact .bind (rejoins_stmtKind hg label) fun kind _ => .node start _

/-! ## Blocks -/

theorem rejoins_blockParts : (blockParts g).Rejoins k := by
  have hpart (stmts : List Stmt) (k : TokenKind) : (do
      let next ← stmt g
      pure (next :: stmts)).Rejoins k :=
    .bind (rejoins_stmt hg) fun next _ => .value _
  refine .enclosed (.loop (progresses fun stmts => follows_bodyTurn stmts (.inl rfl)
    (consumes_found (consumes_stmt hg.follow))) (fun stmts k => .atBodyEnd fun ended => ?_) [])
  split
  · exact .value _
  · exact .resilient (hpart stmts k)

theorem rejoins_blockRule : (blockRule g).Rejoins k := by
  refine .start fun start => .bind (.expect nofun) fun _ k => ?_
  refine .bind (rejoins_blockParts hg) fun stmts k => .bind (.expect nofun) fun _ _ => ?_
  exact .part start (Block.mk stmts.reverse)

end

end Parser

/-- Whatever the rules of the grammar read, they read it on both ways. -/
theorem Rules.rejoin_within (levels : Nat) : (Rules.within levels).Rejoin := by
  induction levels with
  | zero =>
    exact {
      carry := Rules.carry_within 0
      type := fun _ => .tooDeep
      pattern := fun _ => .tooDeep
      expr := fun _ _ => .tooDeep
      block := fun _ => .tooDeep
      blockLike := fun _ => .tooDeep }
  | succ levels ih =>
    exact {
      carry := Rules.carry_within (levels + 1)
      type := fun _ => .nested fun _ => rejoins_typeRule ih
      pattern := fun _ => .nested fun _ => rejoins_patternRule ih
      expr := fun minPower _ => .nested fun _ => rejoins_exprRule ih minPower
      block := fun _ => .nested fun _ => rejoins_blockRule ih
      blockLike := fun _ => .nested fun _ => rejoins_operand ih }

end ActorFrontend
