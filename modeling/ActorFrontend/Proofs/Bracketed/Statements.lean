import ActorFrontend.Proofs.Bracketed.Expressions

/-!
# Statements and blocks before a closing parenthesis

No argument ends in a statement.  A block may be what it ends in, but the brace that closes it is on this
side of the place where the inputs part.
-/

namespace ActorFrontend

open ActorFrontend.Parser
open Makes (keeps_require)

variable {k : TokenKind} {final : Bool} {g : Rules}

theorem Parting.Before.atEnd_eq {parting : Parting} {s s' : State} (h : parting.Before s s')
    (hstays : parting.Stays false s) : s.atEnd = s'.atEnd := by
  obtain ⟨lexeme, ts, hrest, hrest'⟩ := h.inside hstays
  rw [State.atEnd, State.atEnd, hrest, hrest']
  rfl

theorem Parting.Before.startsBlockLike_eq {parting : Parting} {s s' : State} (h : parting.Before s s')
    (hstays : parting.Stays false s) : startsBlockLike s = startsBlockLike s' := by
  have hsecond (s : State) : s.peek 2 = s.advance.advance.kind := by rw [kind_advance, peek_advance]
  have hnext := h.advance hstays
  unfold startsBlockLike
  rw [← h.kind_eq hstays]
  simp only [hsecond, ← kind_advance]
  split
  case h_8 =>
    obtain heq | ⟨-, hend, hend'⟩ := hnext.kind_eq_or hnext.stays
    · rw [← heq]
      split
      · rfl
      · rename_i hdot
        have hinside := hnext.stays_of_kind (by simp [hdot]) (by simp [hdot])
        exact hnext.next_eq (f := (·.isWord "launch")) hinside rfl
      · rfl
    · obtain hs | hs := hend <;> obtain hs' | hs' := hend' <;> simp only [hs, hs']
  all_goals rfl

namespace Parser

/-! ## Statements -/

theorem carries_label? : label?.Carries k false := by
  refine .kind nofun fun k => ?_
  split
  · exact .bind (.advance nofun) fun _ _ => .value _
  · exact .value _

theorem carries_loopLabel : loopLabel.Carries k false := by
  refine .bind carries_label? fun label k => ?_
  split
  · exact .value _
  · refine .bind (.expect _) fun _ k => .test (f := fun k =>
      k.isKeyword .loopKw || k.isKeyword .forKw || k.isKeyword .whileKw) nofun fun atLoop => ?_
    split
    · exact .value _
    · exact .expected _

theorem carries_continueStmt : continueStmt.Carries k false :=
  .bind (.advance nofun) fun _ _ => .bind carries_label? fun _ _ => .bind .semicolon fun _ _ => .value _

section

variable (hg : g.Carry)
include hg

theorem carries_valueBeforeEnd : (valueBeforeEnd g).Carries k false := by
  refine .optional (.seen fun parting s s' hs hstays => ?_) fun _ => carries_expr hg
  rw [atStatementEnd, atStatementEnd, ← hs.kind_eq hstays, hs.atEnd_eq hstays]

theorem carries_letStmt : (letStmt g).Carries k false := by
  refine .bind (.expectKeyword _) fun _ k => .bind (hg.pattern k) fun pattern k => ?_
  refine .bind (carries_typeAfterColon hg) fun type k => .bind (.expect _) fun _ k => ?_
  exact .bind (carries_expr hg) fun init _ => .bind .semicolon fun _ _ => .value _

theorem carries_varStmt : (varStmt g).Carries k false := by
  refine .bind (.expectKeyword _) fun _ k => .bind .name fun name k => ?_
  refine .bind (carries_typeAfterColon hg) fun type k => .bind (.expect _) fun _ k => ?_
  exact .bind (carries_expr hg) fun init _ => .bind .semicolon fun _ _ => .value _

theorem carries_forStmt (label : Option String) : (forStmt g label).Carries k false := by
  refine .bind (.expectKeyword _) fun _ k => .bind (.acceptIf nofun) fun isAwait k => ?_
  refine .bind (hg.pattern k) fun pattern k => .bind (.expectKeyword _) fun _ k => ?_
  exact .bind (carries_condition hg) fun iter _ => .bind (carries_block hg) fun body _ => .value _

theorem carries_whileStmt (label : Option String) : (whileStmt g label).Carries k false := by
  refine .bind (.advance nofun) fun _ k => .bind (carries_condition hg) fun cond k => ?_
  exact .bind (carries_block hg) fun body _ => .value _

theorem carries_loopStmt (label : Option String) : (loopStmt g label).Carries k false :=
  .bind (.advance nofun) fun _ _ => .bind (carries_block hg) fun _ _ => .value _

theorem carries_breakStmt : (breakStmt g).Carries k false := by
  refine .bind (.advance nofun) fun _ k => .bind carries_label? fun label k => ?_
  exact .bind (carries_valueBeforeEnd hg) fun value _ => .bind .semicolon fun _ _ => .value _

theorem carries_returnStmt : (returnStmt g).Carries k false := by
  refine .bind (.advance nofun) fun _ k => .bind (carries_valueBeforeEnd hg) fun value k => ?_
  exact .bind .semicolon fun _ _ => .value _

theorem carries_blockLikeStmt : (blockLikeStmt g).Carries k false :=
  .bind (hg.blockLike k).weaken fun _ _ => .bind (.acceptIf nofun) fun _ _ => .value _

theorem carries_exprStmt : (exprStmt g).Carries k false := by
  refine .bind (carries_expr hg) fun e k => .kind nofun fun k => ?_
  split
  · refine .bind (.advance nofun) fun _ k => .bind (carries_expr hg) fun value k => ?_
    exact .bind .semicolon fun _ _ => .value _
  · refine .bind (.acceptIf nofun) fun closed k => ?_
    split
    · exact .value _
    · refine .test (f := fun k => k.isSymbol .rightBrace || e.isBlockLike) nofun fun last => ?_
      split
      · exact .value _
      · exact .bind .semicolon fun _ _ => .value _

theorem carries_stmtKind (label : Option String) : (stmtKind g label).Carries k false := by
  refine .kind nofun fun k => ?_
  split
  · exact carries_letStmt hg
  · exact carries_varStmt hg
  · exact carries_forStmt hg label
  · exact carries_whileStmt hg label
  · exact carries_loopStmt hg label
  · exact carries_breakStmt hg
  · exact carries_continueStmt
  · exact carries_returnStmt hg
  · exact .bind (carries_block hg) fun block _ => .value _
  · refine .query (fun parting s s' _ hs hstays => hs.startsBlockLike_eq hstays) fun blockLike => ?_
    split
    · exact carries_blockLikeStmt hg
    · exact carries_exprStmt hg

theorem carries_stmt : (stmt g).Carries k false := by
  refine .start fun start => .bind carries_loopLabel fun label k => ?_
  exact .bind (carries_stmtKind hg label) fun kind _ => .node start _

/-! ## Blocks -/

theorem carries_blockParts : (blockParts g).Carries k false := by
  have hpart (stmts : List Stmt) (k : TokenKind) : (do
      let next ← stmt g
      pure (next :: stmts)).Carries k false :=
    .bind (carries_stmt hg) fun next _ => .value _
  refine .enclosed (.loop (progresses fun stmts => follows_bodyTurn stmts (.inl rfl)
    (consumes_found (consumes_stmt hg.follow))) (fun stmts k => .atBodyEnd fun ended => ?_) [])
  split
  · exact .value _
  · exact .resilient (hpart stmts k)

theorem carries_blockRule : (blockRule g).Carries k final := by
  refine .start fun start => .bind (.expect _) fun _ k => ?_
  refine .close (carries_blockParts hg) (fun stmts k => ?_) fun stmts => ?_
  · exact .bind (.expect _) fun _ _ => .part start (Block.mk stmts.reverse)
  · exact .bind (.require rfl _) fun _ => .bind (.query _) fun _ _ => .pure _

theorem starved_blockRule : (blockRule g).Starved := by
  refine .last (fun _ s => .refl s) fun start => .bind (.require rfl _) fun _ => ?_
  refine .bind (carries_blockParts hg (k := .endOfFile)).keeps fun stmts _ => ?_
  exact .bind (keeps_require _ _) fun _ _ => .bind (.query _) fun _ _ => .pure _

end

end Parser

/-- The rules of the grammar read before a closing parenthesis what they read before the end of the
input. -/
theorem Rules.carry_within (levels : Nat) : (Rules.within levels).Carry := by
  induction levels with
  | zero =>
    have hconfined {α : Type} (k : TokenKind) : (tooDeep : Parser α).Confined k :=
      fun _ _ _ _ _ _ _ _ _ => nofun
    exact {
      alike := Rules.alike_within 0
      confined := hconfined
      type := fun _ => .tooDeep
      pattern := fun _ => .tooDeep
      expr := fun _ _ => .tooDeep
      block := fun _ => .tooDeep
      blockLike := fun _ => .tooDeep
      expr_starved := fun _ => .tooDeep
      block_starved := .tooDeep }
  | succ levels ih =>
    exact {
      alike := Rules.alike_within (levels + 1)
      confined := fun _ => .nested fun _ => confined_typeRule ih.confined
      type := fun _ => .nested fun _ => carries_typeRule ih
      pattern := fun _ => .nested fun _ => carries_patternRule ih
      expr := fun minPower _ => .nested fun _ => carries_exprRule ih minPower
      block := fun _ => .nested fun _ => carries_blockRule ih
      blockLike := fun _ => .nested fun _ => carries_operand ih
      expr_starved := fun minPower => .nested (starved_exprRule ih minPower)
      block_starved := .nested (starved_blockRule ih) }

end ActorFrontend
