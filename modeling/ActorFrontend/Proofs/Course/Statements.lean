import ActorFrontend.Proofs.Course.Expressions

/-!
# The courses of statements and blocks

With the blocks the rules are closed: on every nesting level, what nests follows its course.
-/

namespace ActorFrontend.Parser

variable {loud : Bool} {setting : Setting} {s : State} {n : Nat} {g : Rules}

theorem mayConsume_label? : label?.MayConsume loud := by
  intro setting s n
  apply Stretch.kind
  intro kind hkind
  split
  · exact Stretch.refl.past hkind rfl nofun fun h => h.done nofun
  · exact Stretch.refl.done nofun

theorem mayConsume_loopLabel : loopLabel.MayConsume loud := by
  intro setting s n
  apply Stretch.refl.bind mayConsume_label?
  intro label s h
  cases label with
  | none => exact h.done nofun
  | some name =>
    apply h.bind (consumes_expect ⟨rfl, rfl, rfl⟩)
    intro _ s h
    apply Stretch.query
    split
    · exact h.done nofun
    · exact h.failed rfl

theorem mayConsume_valueBeforeEnd (hg : g.Follow) : (valueBeforeEnd g).MayConsume true :=
  mayConsume_optional (mayConsume_query _) (hg.expr 0)

theorem consumes_letStmt (hg : g.Follow) : (letStmt g).Consumes true := by
  intro setting s n
  apply Stretch.refl.bind (consumes_expectKeyword _)
  intro _ s h
  apply h.bind hg.pattern.louder
  intro pattern s h
  apply h.bind (mayConsume_typeAfterColon hg.type.louder)
  intro type s h
  apply h.bind (consumes_expect ⟨rfl, rfl, rfl⟩)
  intro _ s h
  apply h.bind (hg.expr 0)
  intro init s h
  apply h.bind mayConsume_semicolon
  intro _ s h
  exact h.done fun _ => rfl

theorem consumes_varStmt (hg : g.Follow) : (varStmt g).Consumes true := by
  intro setting s n
  apply Stretch.refl.bind (consumes_expectKeyword _)
  intro _ s h
  apply h.bind consumes_name
  intro name s h
  apply h.bind (mayConsume_typeAfterColon hg.type.louder)
  intro type s h
  apply h.bind (consumes_expect ⟨rfl, rfl, rfl⟩)
  intro _ s h
  apply h.bind (hg.expr 0)
  intro init s h
  apply h.bind mayConsume_semicolon
  intro _ s h
  exact h.done fun _ => rfl

theorem consumes_forStmt (hg : g.Follow) (label : Option String) :
    (forStmt g label).Consumes true := by
  intro setting s n
  apply Stretch.refl.bind (consumes_expectKeyword _)
  intro _ s h
  apply h.bind (follows_acceptIf ⟨rfl, rfl, rfl⟩)
  intro isAwait s h
  apply h.bind hg.pattern.louder
  intro pattern s h
  apply h.bind (consumes_expectKeyword _)
  intro _ s h
  apply h.bind (consumes_condition hg)
  intro iter s h
  apply h.bind hg.block
  intro body s h
  exact h.done fun _ => rfl

theorem follows_whileStmt (hg : g.Follow) (label : Option String)
    (hs : s.kind = .keyword .whileKw) :
    (whileStmt g label setting s).Follows true setting s n (fun _ => true) n := by
  apply Stretch.refl.past hs rfl nofun
  intro h
  apply h.bind (consumes_condition hg)
  intro cond s h
  apply h.bind hg.block
  intro body s h
  exact h.done fun _ => rfl

theorem follows_loopStmt (hg : g.Follow) (label : Option String)
    (hs : s.kind = .keyword .loopKw) :
    (loopStmt g label setting s).Follows true setting s n (fun _ => true) n := by
  apply Stretch.refl.past hs rfl nofun
  intro h
  apply h.bind hg.block
  intro body s h
  exact h.done fun _ => rfl

theorem follows_breakStmt (hg : g.Follow) (hs : s.kind = .keyword .breakKw) :
    (breakStmt g setting s).Follows true setting s n (fun _ => true) n := by
  apply Stretch.refl.past hs rfl nofun
  intro h
  apply h.bind mayConsume_label?
  intro label s h
  apply h.bind (mayConsume_valueBeforeEnd hg)
  intro value s h
  apply h.bind mayConsume_semicolon
  intro _ s h
  exact h.done fun _ => rfl

theorem follows_continueStmt (hs : s.kind = .keyword .continueKw) :
    (continueStmt setting s).Follows true setting s n (fun _ => true) n := by
  apply Stretch.refl.past hs rfl nofun
  intro h
  apply h.bind mayConsume_label?
  intro label s h
  apply h.bind mayConsume_semicolon
  intro _ s h
  exact h.done fun _ => rfl

theorem follows_returnStmt (hg : g.Follow) (hs : s.kind = .keyword .returnKw) :
    (returnStmt g setting s).Follows true setting s n (fun _ => true) n := by
  apply Stretch.refl.past hs rfl nofun
  intro h
  apply h.bind (mayConsume_valueBeforeEnd hg)
  intro value s h
  apply h.bind mayConsume_semicolon
  intro _ s h
  exact h.done fun _ => rfl

theorem consumes_blockLikeStmt (hg : g.Follow) : (blockLikeStmt g).Consumes true := by
  intro setting s n
  apply Stretch.refl.bind hg.blockLike
  intro e s h
  apply h.bind (follows_acceptIf ⟨rfl, rfl, rfl⟩)
  intro hasSemicolon s h
  exact h.done fun _ => rfl

theorem consumes_exprStmt (hg : g.Follow) : (exprStmt g).Consumes true := by
  intro setting s n
  apply Stretch.refl.bind (hg.expr 0)
  intro e s h
  apply Stretch.kind
  intro kind hkind
  cases hop : assignOp? kind with
  | some op =>
    have hplain : Plain fun kind => (assignOp? kind).isSome := ⟨rfl, rfl, rfl⟩
    have hassign : (assignOp? kind).isSome = true := by rw [hop]; rfl
    apply h.past hkind (hplain.isBrace_eq_false hassign) (hplain.ne_endOfFile hassign)
    intro h
    apply h.bind (hg.expr 0)
    intro value s h
    apply h.bind mayConsume_semicolon
    intro _ s h
    exact h.done fun _ => rfl
  | none =>
    refine h.ifAccept ⟨rfl, rfl, rfl⟩ (fun h => h.done fun _ => rfl) ?_
    apply Stretch.query
    split
    · exact h.done fun _ => rfl
    · apply h.bind mayConsume_semicolon
      intro _ s h
      exact h.done fun _ => rfl

theorem consumes_stmtKind (hg : g.Follow) (label : Option String) :
    (stmtKind g label).Consumes true := by
  intro setting s n
  apply Stretch.kind
  intro kind hkind
  split
  · exact consumes_letStmt hg setting s n
  · exact consumes_varStmt hg setting s n
  · exact consumes_forStmt hg label setting s n
  · exact follows_whileStmt hg label hkind
  · exact follows_loopStmt hg label hkind
  · exact follows_breakStmt hg hkind
  · exact follows_continueStmt hkind
  · exact follows_returnStmt hg hkind
  · exact Stretch.refl.bind hg.block fun block s h => h.done fun _ => rfl
  · apply Stretch.query
    split
    · exact consumes_blockLikeStmt hg setting s n
    · exact consumes_exprStmt hg setting s n

theorem consumes_stmt (hg : g.Follow) : (stmt g).Consumes true := by
  intro setting s n
  apply Stretch.start
  apply Stretch.refl.bind mayConsume_loopLabel
  intro label s h
  apply h.bind (consumes_stmtKind hg label)
  intro kind s h
  exact h.node fun _ _ => rfl

/-- The statements between the braces of a block, the last one first. -/
def blockParts (g : Rules) : Parser (List Stmt) :=
  enclosed <| bodyParts .statements (fun stmts => do
    let next ← stmt g
    pure (next :: stmts)) []

theorem mayConsume_blockParts (hg : g.Follow) : (blockParts g).MayConsume true :=
  follows_enclosed (mayConsume_bodyParts [] (.inl rfl) (consumes_found (consumes_stmt hg)))

theorem consumes_blockRule (hg : g.Follow) : (blockRule g).Consumes true := by
  intro setting s n
  apply Stretch.start
  apply Stretch.refl.step (follows_expect_leftBrace _ _ _)
  intro _ s h
  apply h.bind (mayConsume_blockParts hg)
  intro stmts s h
  apply h.step (follows_expect_rightBrace _ _ _)
  intro _ s h
  exact h.part fun _ _ => rfl

end ActorFrontend.Parser

namespace ActorFrontend

/-- However many levels are left, what nests follows its course. -/
theorem Rules.follow_within (levels : Nat) : (Rules.within levels).Follow := by
  induction levels with
  | zero =>
    constructor
    case type | pattern | block | blockLike => exact Parser.follows_tooDeep
    case expr => exact fun _ => Parser.follows_tooDeep
  | succ levels ih =>
    constructor
    case type => exact Parser.follows_nested (Parser.consumes_typeRule ih.type)
    case pattern => exact Parser.follows_nested (Parser.consumes_patternRule ih.pattern)
    case expr => exact fun minPower => Parser.follows_nested (Parser.consumes_exprRule ih minPower)
    case block => exact Parser.follows_nested (Parser.consumes_blockRule ih)
    case blockLike => exact Parser.follows_nested (Parser.consumes_operand ih)

end ActorFrontend
