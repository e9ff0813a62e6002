import ActorFrontend.Grammar.Statements
import ActorFrontend.Proofs.Placement.Expressions

/-!
# What the readings of statements and blocks lay

With the blocks the rules are closed: on every nesting level, each lays the outline of what it
reads.
-/

namespace ActorFrontend.Parser

variable {source : List Char} {setting : Setting} {s : State} {g : Rules}

theorem passes_label? : label?.Passes source false := by
  intro setting s hs
  apply Trail.kind
  intro kind hkind
  split
  · exact (Trail.refl hs).advance.done rfl
  · exact (Trail.refl hs).done rfl

theorem passes_loopLabel : loopLabel.Passes source false := by
  intro setting s hs
  apply (Trail.refl hs).pass passes_label?
  intro label s h
  split
  · exact h.done rfl
  · apply h.pass (passes_expect _)
    intro _ s h
    apply Trail.query
    split
    · exact h.weaken.done rfl
    · exact h.failed rfl

theorem lays_valueBeforeEnd (hg : g.Lay source) :
    (valueBeforeEnd g).Lays source false outlines :=
  lays_optional (passes_query _) (hg.expr 0)

theorem lays_letStmt (hg : g.Lay source) : (letStmt g).Lays source true StmtKind.parts := by
  intro setting s hs
  apply (Trail.refl hs).pass (passes_expectKeyword _)
  intro _ s h
  apply h.bind hg.pattern
  intro pattern s h
  apply h.bind (lays_typeAfterColon hg)
  intro type s h
  apply h.pass (passes_expect _)
  intro _ s h
  apply h.bind (hg.expr 0)
  intro init s h
  apply h.pass passes_semicolon
  intro _ s h
  exact h.done rfl

theorem lays_varStmt (hg : g.Lay source) : (varStmt g).Lays source true StmtKind.parts := by
  intro setting s hs
  apply (Trail.refl hs).pass (passes_expectKeyword _)
  intro _ s h
  apply h.pass passes_name
  intro name s h
  apply h.bind (lays_typeAfterColon hg)
  intro type s h
  apply h.pass (passes_expect _)
  intro _ s h
  apply h.bind (hg.expr 0)
  intro init s h
  apply h.pass passes_semicolon
  intro _ s h
  exact h.done rfl

theorem lays_forStmt (hg : g.Lay source) (label : Option String) :
    (forStmt g label).Lays source true StmtKind.parts := by
  intro setting s hs
  apply (Trail.refl hs).pass (passes_expectKeyword _)
  intro _ s h
  apply h.pass (passes_acceptIf rfl)
  intro isAwait s h
  apply h.bind hg.pattern
  intro pattern s h
  apply h.pass (passes_expectKeyword _)
  intro _ s h
  apply h.bind (lays_condition hg)
  intro iter s h
  apply h.bind hg.block
  intro body s h
  exact h.done rfl

theorem lays_whileStmt (hg : g.Lay source) (label : Option String) :
    (whileStmt g label).Lays source true StmtKind.parts := by
  intro setting s hs
  apply (Trail.refl hs).advance.bind (lays_condition hg)
  intro cond s h
  apply h.bind hg.block
  intro body s h
  exact h.done rfl

theorem lays_loopStmt (hg : g.Lay source) (label : Option String) :
    (loopStmt g label).Lays source true StmtKind.parts := by
  intro setting s hs
  apply (Trail.refl hs).advance.bind hg.block
  intro body s h
  exact h.done rfl

theorem lays_breakStmt (hg : g.Lay source) (hs : s.Located source setting)
    (hne : s.kind ≠ .endOfFile) :
    (breakStmt g setting s).Lays source setting s true fun k os => k.parts = os := by
  apply (Trail.refl hs).past hne
  intro h
  apply h.pass passes_label?
  intro label s h
  apply h.bind (lays_valueBeforeEnd hg)
  intro value s h
  apply h.pass passes_semicolon
  intro _ s h
  exact h.done (by cases value <;> rfl)

theorem lays_continueStmt (hs : s.Located source setting) (hne : s.kind ≠ .endOfFile) :
    (continueStmt setting s).Lays source setting s true fun k os => k.parts = os := by
  apply (Trail.refl hs).past hne
  intro h
  apply h.pass passes_label?
  intro label s h
  apply h.pass passes_semicolon
  intro _ s h
  exact h.done rfl

theorem lays_returnStmt (hg : g.Lay source) (hs : s.Located source setting)
    (hne : s.kind ≠ .endOfFile) :
    (returnStmt g setting s).Lays source setting s true fun k os => k.parts = os := by
  apply (Trail.refl hs).past hne
  intro h
  apply h.bind (lays_valueBeforeEnd hg)
  intro value s h
  apply h.pass passes_semicolon
  intro _ s h
  exact h.done (by cases value <;> rfl)

theorem lays_blockLikeStmt (hg : g.Lay source) :
    (blockLikeStmt g).Lays source true StmtKind.parts := by
  intro setting s hs
  apply (Trail.refl hs).bind hg.blockLike
  intro e s h
  apply h.pass (passes_acceptIf rfl)
  intro hasSemicolon s h
  exact h.done rfl

theorem lays_exprStmt (hg : g.Lay source) : (exprStmt g).Lays source true StmtKind.parts := by
  intro setting s hs
  apply (Trail.refl hs).bind (hg.expr 0)
  intro e s h
  apply Trail.kind
  intro kind hkind
  cases assignOp? kind with
  | some op =>
    apply h.advance.bind (hg.expr 0)
    intro value s h
    apply h.pass passes_semicolon
    intro _ s h
    exact h.done rfl
  | none =>
    refine h.ifAccept rfl (fun h => h.done rfl) ?_
    apply Trail.query
    split
    · exact h.done rfl
    · apply h.pass passes_semicolon
      intro _ s h
      exact h.done rfl

theorem lays_stmtKind (hg : g.Lay source) (label : Option String) :
    (stmtKind g label).Lays source true StmtKind.parts := by
  intro setting s hs
  apply Trail.kind
  intro kind hkind
  split
  · exact lays_letStmt hg setting s hs
  · exact lays_varStmt hg setting s hs
  · exact lays_forStmt hg label setting s hs
  · exact lays_whileStmt hg label setting s hs
  · exact lays_loopStmt hg label setting s hs
  · exact lays_breakStmt hg hs (by simp [hkind])
  · exact lays_continueStmt hs (by simp [hkind])
  · exact lays_returnStmt hg hs (by simp [hkind])
  · exact (Trail.refl hs).bind hg.block fun block s h => h.done rfl
  · apply Trail.query
    split
    · exact lays_blockLikeStmt hg setting s hs
    · exact lays_exprStmt hg setting s hs

theorem lays_stmt (hg : g.Lay source) : (stmt g).Lays source true outlines := by
  intro setting s hs
  apply Trail.start
  apply (Trail.refl hs).pass passes_loopLabel
  intro label s h
  apply h.bind (lays_stmtKind hg label)
  intro kind s h
  exact h.node fun id span => rfl

theorem lays_blockRule (hg : g.Lay source) : (blockRule g).Lays source true outlines := by
  intro setting s hs
  apply Trail.start
  apply (Trail.refl hs).pass (passes_expect _)
  intro _ s h
  refine h.bindThat (laysThat_enclosed (laysThat_bodyParts rfl (laysThat_found (lays_stmt hg))))
    fun stmts s os hos h => ?_
  apply h.pass (passes_expect _)
  intro _ s h
  exact h.part fun span => by simp [outlines, Block.outline, ← hos]

end ActorFrontend.Parser

namespace ActorFrontend

/-- However many levels are left, what nests lays its own outline. -/
theorem Rules.lay_within (source : List Char) (levels : Nat) : (Rules.within levels).Lay source := by
  induction levels with
  | zero =>
    have hdeep : ∀ {α : Type} (view : α → List Outline), (Parser.tooDeep : Parser α).Lays source true view :=
      fun view setting s hs => (Trail.refl hs).failed rfl
    exact ⟨hdeep _, hdeep _, fun _ => hdeep _, hdeep _, hdeep _⟩
  | succ levels ih =>
    constructor
    case type => exact Parser.laysThat_nested (Parser.lays_typeRule ih)
    case pattern => exact Parser.laysThat_nested (Parser.lays_patternRule ih)
    case expr => exact fun minPower => Parser.laysThat_nested (Parser.lays_exprRule ih minPower)
    case block => exact Parser.laysThat_nested (Parser.lays_blockRule ih)
    case blockLike => exact Parser.laysThat_nested (Parser.lays_operand ih)

end ActorFrontend
