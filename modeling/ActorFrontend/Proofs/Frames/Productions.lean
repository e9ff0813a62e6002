import ActorFrontend.Proofs.Frames.Items

/-!
# Frames are put back

Every reading of the grammar puts the frame back in which it started, whether it answers with a value
or with an error, and nothing that it reads on the way is deeper than the limit allows.  So after an
error is recovered from the reading goes on in the frame of the enclosing construct.
-/

namespace ActorFrontend

open Parser

/-- The readings that the grammar consists of, by what they read, over readings for what nests. -/
inductive Production : {α : Type} → (Rules → Parser α) → Prop where
  | type : Production Rules.type
  | pattern : Production Rules.pattern
  | expr (minPower : Nat) : Production (·.expr minPower)
  | block : Production Rules.block
  | blockLike : Production Rules.blockLike
  -- types
  | path : Production fun _ => path
  | typeArgs : Production typeArgs
  | bound : Production bound
  | bounds : Production bounds
  | boundsAfterColon : Production boundsAfterColon
  | typeAfterColon : Production typeAfterColon
  | resultType : Production resultType
  | typeParam : Production typeParam
  | typeParams : Production typeParams
  | wherePredicate : Production wherePredicate
  | whereClause : Production whereClause
  | parenType (start : Nat) : Production (parenType · start)
  | bracketType : Production bracketType
  | functionType : Production functionType
  | pointerType : Production pointerType
  | traitObjectType : Production traitObjectType
  | namedType : Production namedType
  | typeRule : Production typeRule
  -- patterns
  | literalNode : Production fun _ => literalNode
  | fieldPattern : Production fieldPattern
  | pathPattern : Production pathPattern
  | parenPattern (start : Nat) : Production (parenPattern · start)
  | negatedPattern (start : Nat) : Production fun _ => negatedPattern start
  | singlePattern : Production singlePattern
  | patternRule : Production patternRule
  -- expressions
  | asExpr {kind : Rules → Parser ExprKind} (h : Production kind) :
      Production fun g => asExpr (kind g)
  | condition : Production condition
  | armHead : Production armHead
  | blockExpr : Production blockExpr
  | armBody : Production armBody
  | args : Production args
  | integerOrDuration (value : UInt64) : Production fun _ => integerOrDuration value
  | duration : Production fun _ => duration
  | splice (tokens : List Token) (span : Span) : Production (splice · tokens span)
  | stringParts (fragments : List Fragment) : Production (stringParts · fragments)
  | interpolatedString (fragments : List Fragment) : Production (interpolatedString · fragments)
  | fieldInit : Production fieldInit
  | pathExpr : Production pathExpr
  | lambdaParam : Production lambdaParam
  | lambdaHead : Production lambdaHead
  | lambda : Production lambda
  | parenOrTuple : Production parenOrTuple
  | parenOrLambda : Production parenOrLambda
  | arrayExpr : Production arrayExpr
  | ifHead : Production ifHead
  | closeIfs (elseBranch : Option Expr) (heads : List OpenIf) :
      Production fun _ => closeIfs elseBranch heads
  | ifExpr : Production ifExpr
  | matchArm : Production matchArm
  | matchExpr : Production matchExpr
  | tryExpr : Production tryExpr
  | spawnExpr : Production spawnExpr
  | selectArm : Production selectArm
  | timeoutArm : Production timeoutArm
  | armSeparator : Production fun _ => armSeparator
  | anyArm (arms : List SelectArm × Option TimeoutArm) : Production (anyArm · arms)
  | selectExpr (kind : SelectKind) : Production (selectExpr · kind)
  | joinExpr : Production joinExpr
  | scopeExpr : Production scopeExpr
  | single (kind : ExprKind) : Production fun _ => single kind
  | applied {operand : Rules → Parser Expr} (make : Expr → ExprKind) (h : Production operand) :
      Production fun g => applied (operand g) make
  | operand : Production operand
  | indexPair (object : Expr) : Production fun _ => indexPair object
  | member (object : Expr) : Production (member · object)
  | continuation (left : Expr) : Production (continuation · left)
  | operation (op : OperatorToken) (left : Expr) : Production (operation · op left)
  | extend (minPower : Nat) (left : Expr) : Production (extend · minPower left)
  | exprRule (minPower : Nat) : Production (exprRule · minPower)
  -- statements
  | label : Production fun _ => label?
  | loopLabel : Production fun _ => loopLabel
  | valueBeforeEnd : Production valueBeforeEnd
  | letStmt : Production letStmt
  | varStmt : Production varStmt
  | forStmt (label : Option String) : Production (forStmt · label)
  | whileStmt (label : Option String) : Production (whileStmt · label)
  | loopStmt (label : Option String) : Production (loopStmt · label)
  | breakStmt : Production breakStmt
  | continueStmt : Production fun _ => continueStmt
  | returnStmt : Production returnStmt
  | blockLikeStmt : Production blockLikeStmt
  | exprStmt : Production exprStmt
  | stmtKind (label : Option String) : Production (stmtKind · label)
  | stmt : Production stmt
  | blockRule : Production blockRule
  -- declarations
  | memberSeparator : Production fun _ => memberSeparator
  | visibility : Production fun _ => visibility
  | importStep : Production fun _ => importStep
  | importDecl : Production fun _ => importDecl
  | constDecl : Production constDecl
  | fieldDecl : Production fieldDecl
  | fieldDecls : Production fieldDecls
  | structRest : Production structRest
  | typeDecl : Production typeDecl
  | structDecl : Production structDecl
  | variantKind : Production variantKind
  | variant : Production variant
  | enumDecl : Production enumDecl
  | closeLists (depth : Nat) (type : WireType) : Production fun _ => closeLists depth type
  | wireType : Production fun _ => wireType
  | tagList : Production fun _ => tagList
  | wireAttr : Production wireAttr
  | wireField : Production wireField
  | reservedTags : Production fun _ => reservedTags
  | wireMember : Production wireMember
  | wireKind : Production fun _ => wireKind
  | wireDecl : Production wireDecl
  | param : Production param
  | params : Production params
  | variadicParams : Production variadicParams
  | fnBody (rule : BodyRule) : Production (fnBody · rule)
  | fnResult (flavor : FnFlavor) : Production (fnResult · flavor)
  | fnRest (start : Nat) (flavor : FnFlavor) (rule : BodyRule) :
      Production (fnRest · start flavor rule)
  | fnDecl (rule : BodyRule) : Production (fnDecl · rule)
  | externFn : Production externFn
  | externBlock : Production externBlock
  | traitType : Production traitType
  | traitItem : Production traitItem
  | traitDecl : Production traitDecl
  | implType : Production implType
  | implItem : Production implItem
  | traitOf (type : TypeExpr) : Production fun _ => traitOf type
  | implHead : Production implHead
  | implDecl : Production implDecl
  | overflowFallback : Production fun _ => overflowFallback
  | overflowPolicy : Production fun _ => overflowPolicy
  | mailboxDecl : Production fun _ => mailboxDecl
  | actorField : Production actorField
  | receiveFn : Production receiveFn
  | actorMember : Production actorMember
  | actorInit : Production actorInit
  | actorPart (found : Option ActorInit × List ActorMember) : Production (actorPart · found)
  | actorDecl : Production actorDecl
  | namedArg {α : Type} (ofName? : String → Option α) (wanted : Expected) :
      Production fun _ => namedArg ofName? wanted
  | restartBudget : Production fun _ => restartBudget
  | restartSpec : Production fun _ => restartSpec
  | childSpec : Production fun _ => childSpec
  | supervisorField : Production supervisorField
  | supervisorMember : Production supervisorMember
  | supervisorDecl : Production supervisorDecl
  | itemKind : Production itemKind
  | item : Production item
  | program : Production program
  -- sequences and trials of others
  | commaList {α : Type} {p : Rules → Parser α} (close : Symbol) (h : Production p) :
      Production fun g => commaList close (p g)
  | members {α : Type} {p : Rules → Parser α} (h : Production p) :
      Production fun g => members (p g)
  | separatedMembers {α : Type} {p : Rules → Parser α} (h : Production p) :
      Production fun g => separatedMembers (p g)
  | enclosed {α : Type} {p : Rules → Parser α} (h : Production p) :
      Production fun g => enclosed (p g)
  | attempt {α : Type} {p : Rules → Parser α} (h : Production p) :
      Production fun g => attempt (p g)

theorem Production.framed {α : Type} {p : Rules → Parser α} {deepest : Nat} {g g' : Rules}
    (h : Production p) (hg : g.Framed deepest g') : Framed deepest (p g) (p g') := by
  induction h with
  | type => exact hg.type
  | pattern => exact hg.pattern
  | expr minPower => exact hg.expr minPower
  | block => exact hg.block
  | blockLike => exact hg.blockLike
  | path => exact .path
  | typeArgs => exact framed_typeArgs hg
  | bound => exact framed_bound hg
  | bounds => exact framed_bounds hg
  | boundsAfterColon => exact framed_boundsAfterColon hg
  | typeAfterColon => exact framed_typeAfterColon hg
  | resultType => exact framed_resultType hg
  | typeParam => exact framed_typeParam hg
  | typeParams => exact framed_typeParams hg
  | wherePredicate => exact framed_wherePredicate hg
  | whereClause => exact framed_whereClause hg
  | parenType start => exact framed_parenType hg start
  | bracketType => exact framed_bracketType hg
  | functionType => exact framed_functionType hg
  | pointerType => exact framed_pointerType hg
  | traitObjectType => exact framed_traitObjectType hg
  | namedType => exact framed_namedType hg
  | typeRule => exact framed_typeRule hg
  | literalNode => exact framed_literalNode
  | fieldPattern => exact framed_fieldPattern hg
  | pathPattern => exact framed_pathPattern hg
  | parenPattern start => exact framed_parenPattern hg start
  | negatedPattern start => exact framed_negatedPattern start
  | singlePattern => exact framed_singlePattern hg
  | patternRule => exact framed_patternRule hg
  | asExpr _ ih => exact framed_asExpr ih
  | condition => exact framed_condition hg
  | armHead => exact framed_armHead hg
  | blockExpr => exact framed_blockExpr hg
  | armBody => exact framed_armBody hg
  | args => exact framed_args hg
  | integerOrDuration value => exact framed_integerOrDuration value
  | duration => exact framed_duration
  | splice tokens span => exact framed_splice hg tokens span
  | stringParts fragments => exact framed_stringParts hg fragments
  | interpolatedString fragments => exact framed_interpolatedString hg fragments
  | fieldInit => exact framed_fieldInit hg
  | pathExpr => exact framed_pathExpr hg
  | lambdaParam => exact framed_lambdaParam hg
  | lambdaHead => exact framed_lambdaHead hg
  | lambda => exact framed_lambda hg
  | parenOrTuple => exact framed_parenOrTuple hg
  | parenOrLambda => exact framed_parenOrLambda hg
  | arrayExpr => exact framed_arrayExpr hg
  | ifHead => exact framed_ifHead hg
  | closeIfs elseBranch heads => exact framed_closeIfs elseBranch heads
  | ifExpr => exact framed_ifExpr hg
  | matchArm => exact framed_matchArm hg
  | matchExpr => exact framed_matchExpr hg
  | tryExpr => exact framed_tryExpr hg
  | spawnExpr => exact framed_spawnExpr hg
  | selectArm => exact framed_selectArm hg
  | timeoutArm => exact framed_timeoutArm hg
  | armSeparator => exact framed_armSeparator
  | anyArm arms => exact framed_anyArm hg arms
  | selectExpr kind => exact framed_selectExpr hg kind
  | joinExpr => exact framed_joinExpr hg
  | scopeExpr => exact framed_scopeExpr hg
  | single kind => exact framed_single kind
  | applied make _ ih => exact framed_applied ih make
  | operand => exact framed_operand hg
  | indexPair object => exact framed_indexPair object
  | member object => exact framed_member hg object
  | continuation left => exact framed_continuation hg left
  | operation op left => exact framed_operation hg op left
  | extend minPower left => exact framed_extend hg minPower left
  | exprRule minPower => exact framed_exprRule hg minPower
  | label => exact framed_label?
  | loopLabel => exact framed_loopLabel
  | valueBeforeEnd => exact framed_valueBeforeEnd hg
  | letStmt => exact framed_letStmt hg
  | varStmt => exact framed_varStmt hg
  | forStmt label => exact framed_forStmt hg label
  | whileStmt label => exact framed_whileStmt hg label
  | loopStmt label => exact framed_loopStmt hg label
  | breakStmt => exact framed_breakStmt hg
  | continueStmt => exact framed_continueStmt
  | returnStmt => exact framed_returnStmt hg
  | blockLikeStmt => exact framed_blockLikeStmt hg
  | exprStmt => exact framed_exprStmt hg
  | stmtKind label => exact framed_stmtKind hg label
  | stmt => exact framed_stmt hg
  | blockRule => exact framed_blockRule hg
  | memberSeparator => exact framed_memberSeparator
  | visibility => exact framed_visibility
  | importStep => exact framed_importStep
  | importDecl => exact framed_importDecl
  | constDecl => exact framed_constDecl hg
  | fieldDecl => exact framed_fieldDecl hg
  | fieldDecls => exact framed_fieldDecls hg
  | structRest => exact framed_structRest hg
  | typeDecl => exact framed_typeDecl hg
  | structDecl => exact framed_structDecl hg
  | variantKind => exact framed_variantKind hg
  | variant => exact framed_variant hg
  | enumDecl => exact framed_enumDecl hg
  | closeLists depth type => exact framed_closeLists depth type
  | wireType => exact framed_wireType
  | tagList => exact framed_tagList
  | wireAttr => exact framed_wireAttr hg
  | wireField => exact framed_wireField hg
  | reservedTags => exact framed_reservedTags
  | wireMember => exact framed_wireMember hg
  | wireKind => exact framed_wireKind
  | wireDecl => exact framed_wireDecl hg
  | param => exact framed_param hg
  | params => exact framed_params hg
  | variadicParams => exact framed_variadicParams hg
  | fnBody rule => exact framed_fnBody hg rule
  | fnResult flavor => exact framed_fnResult hg flavor
  | fnRest start flavor rule => exact framed_fnRest hg start flavor rule
  | fnDecl rule => exact framed_fnDecl hg rule
  | externFn => exact framed_externFn hg
  | externBlock => exact framed_externBlock hg
  | traitType => exact framed_traitType hg
  | traitItem => exact framed_traitItem hg
  | traitDecl => exact framed_traitDecl hg
  | implType => exact framed_implType hg
  | implItem => exact framed_implItem hg
  | traitOf type => exact framed_traitOf type
  | implHead => exact framed_implHead hg
  | implDecl => exact framed_implDecl hg
  | overflowFallback => exact framed_overflowFallback
  | overflowPolicy => exact framed_overflowPolicy
  | mailboxDecl => exact framed_mailboxDecl
  | actorField => exact framed_actorField hg
  | receiveFn => exact framed_receiveFn hg
  | actorMember => exact framed_actorMember hg
  | actorInit => exact framed_actorInit hg
  | actorPart found => exact framed_actorPart hg found
  | actorDecl => exact framed_actorDecl hg
  | namedArg ofName? wanted => exact framed_namedArg ofName? wanted
  | restartBudget => exact framed_restartBudget
  | restartSpec => exact framed_restartSpec
  | childSpec => exact framed_childSpec
  | supervisorField => exact framed_supervisorField hg
  | supervisorMember => exact framed_supervisorMember hg
  | supervisorDecl => exact framed_supervisorDecl hg
  | itemKind => exact framed_itemKind hg
  | item => exact framed_item hg
  | program => exact framed_program hg
  | commaList close _ ih => exact .commaList close ih
  | members _ ih => exact framed_members ih
  | separatedMembers _ ih => exact framed_separatedMembers ih
  | enclosed _ ih => exact .enclosed ih
  | attempt _ ih => exact .attempt ih

/-- Frames are put back on every path.  From whatever state a reading starts, with the value or the
error that it answers with come the context and the depth that were there at first, and so they are
when it was read as a part of a construct that goes on after errors.  Nothing is read deeper than the
limit, or than the first state where that is deeper yet: what any other rules would answer there
makes no difference. -/
theorem Production.keeps_frame {α : Type} {p : Rules → Parser α} (hp : Production p) (levels : Nat)
    (setting : Setting) (s : State) :
    s.SameFrame (p (.within levels) setting s).state ∧
    (∀ (recovery : Recovery) (found : List α),
      s.SameFrame (resilient recovery (fun found => do
        let next ← p (.within levels)
        pure (next :: found)) found setting s).state) ∧
    ∀ other : Rules,
      p (.downTo (max setting.limits.maxDepth s.depth) other levels) setting s =
        p (.within levels) setting s := by
  have hlimit : setting.limits.maxDepth ≤ max setting.limits.maxDepth s.depth := Nat.le_max_left _ _
  have hs : s.depth ≤ max setting.limits.maxDepth s.depth := Nat.le_max_right _ _
  have hframed := hp.framed (Rules.framed_within (max setting.limits.maxDepth s.depth) levels)
  refine ⟨(hframed setting s hlimit hs).2, fun recovery found => ?_, fun other => ?_⟩
  · have hturn : Framed (max setting.limits.maxDepth s.depth)
        (resilient recovery (fun found => do
          let next ← p (.within levels)
          pure (next :: found)) found)
        (resilient recovery (fun found => do
          let next ← p (.within levels)
          pure (next :: found)) found) := .resilient recovery (.map hframed)
    exact (hturn setting s hlimit hs).2
  · exact (hp.framed (Rules.framed_downTo _ other levels) setting s hlimit hs).1

/-- In `if (b` the parenthesis is not closed.  The error unwinds through two contexts and two levels,
the inner one of which is as deep as the limit allows. -/
theorem unclosed_condition_keeps_frame :
    let setting : Setting := ⟨⟨20, 3⟩, .empty 5⟩
    let rest : List Lexeme := [.keyword .ifKw, .symbol .leftParen, .ident "b"].map fun kind =>
      ⟨⟨kind, "", .empty 0⟩, false⟩
    let s : State := { State.initial setting rest with context := ⟨true, false⟩, depth := 1 }
    Production operand ∧ (∃ e after, operand (.within 3) setting s = .fail e after ∧
      after.rest = [] ∧ after.context = ⟨true, false⟩ ∧ after.depth = 1) ∧
    ∀ other, operand (.downTo 3 other 3) setting s = operand (.within 3) setting s := by
  intro setting rest s
  obtain ⟨hframe, -, hwatch⟩ := Production.operand.keeps_frame 3 setting s
  obtain ⟨e, after, hfail, hrest⟩ : ∃ e after, operand (.within 3) setting s = .fail e after ∧
    after.rest = [] := ⟨_, _, rfl, rfl⟩
  rw [hfail] at hframe
  exact ⟨.operand, ⟨e, after, hfail, hrest, hframe.context, hframe.depth⟩, hwatch⟩

end ActorFrontend
