import ActorFrontend.Proofs.Indices.Types

/-!
# Expressions before the ways part

An expression may go on behind the dot, and only where an expression goes on do the ways meet again.
Everything that is made of expressions meets again where they do.
-/

namespace ActorFrontend

open ActorFrontend.Parser

variable {α : Type} {k : TokenKind} {g : Rules}

/-- The fields of a struct literal are told from a block by what stands before the ways part. -/
theorem Detour.Before.opensFields_eq {d : Detour} {s s' : State} (h : d.Before s s')
    (hkind : s.kind ≠ .symbol .dot) : opensFields s = opensFields s' := by
  have hsecond (s : State) : s.peek 2 = s.advance.peek 1 := (peek_advance s 1).symm
  have hnext := h.advance hkind
  unfold opensFields
  rw [← h.peek_eq hkind, hsecond, hsecond]
  split
  case h_1 => rfl
  case h_2 name hname => rw [hnext.peek_eq (by simp [kind_advance, hname])]
  case h_3 => rfl

namespace Parser

/-- A dot behind which something other than a number has to follow. -/
theorem Rejoins.ifDot {yes no : Parser α} (hyes : ∀ k, yes.Rejoins k) (hno : no.Rejoins k)
    (hnumber : ∀ setting s a t, isNumber s.kind = true → yes setting s ≠ .ok a t) :
    (do if ← accept .dot then yes else no).Rejoins k where
  keeps := by
    have haccept : (Parser.accept .dot).Keeps true := Makes.keeps_acceptIf _
    refine .bind haccept fun found _ => ?_
    split
    · exact (hyes k).keeps
    · exact hno.keeps
  rejoins := by
    intro d s s' a t hk hs hreply herrors
    rw [accept, acceptIf_bind, kind_bind] at hreply ⊢
    rw [← hs.kind_eq]
    split at hreply
    case isFalse hkind =>
      rw [if_neg hkind]
      exact hno.rejoins d s s' a t hk hs hreply herrors
    case isTrue hkind =>
      rw [if_pos hkind]
      rw [advance_bind] at hreply ⊢
      obtain ⟨hrest, -⟩ | hinside := hs.parts_or_inside
      · -- behind the dot stands a number
        obtain ⟨lexeme, more, hleft, hlexeme⟩ := d.left_number
        refine absurd hreply (hnumber _ _ _ _ ?_)
        rw [kind_advance, State.peek, hrest, hleft]
        exact hlexeme
      · exact (hyes _).rejoins d _ _ a t rfl hinside hreply herrors

/-! ## Expressions in special contexts -/

theorem rejoins_exprNode (start : Nat) (kind : ExprKind) : (exprNode start kind).Rejoins k :=
  .node start _

theorem rejoins_asExpr {kind : Parser ExprKind} (h : kind.Rejoins k) : (asExpr kind).Rejoins k :=
  .start fun start => .bind h fun _ _ => .node start _

section

variable (hg : g.Rejoin)
include hg

theorem rejoins_expr : (expr g).Rejoins k := hg.expr 0 k

theorem rejoins_condition : (condition g).Rejoins k :=
  Rejoins.inContext (f := fun context => { context with structLiterals := false }) (rejoins_expr hg)

theorem rejoins_armHead : (armHead g).Rejoins k :=
  Rejoins.inContext (f := fun context => { context with lambdas := false }) (rejoins_expr hg)

theorem rejoins_blockExpr : (blockExpr g).Rejoins k :=
  rejoins_asExpr (.bind (hg.block k) fun _ _ => .value _)

theorem rejoins_armBody : (armBody g).Rejoins k := by
  refine .test (·.isSymbol .leftBrace) fun block => ?_
  split
  · exact rejoins_blockExpr hg
  · exact rejoins_expr hg

theorem rejoins_exprList {close : Symbol} (hclose : close ≠ .dot) : (commaList close (expr g)).Rejoins k :=
  .commaList (hg.follow.expr 0).mayConsume hclose fun _ => rejoins_expr hg

theorem rejoins_exprTail {close : Symbol} (hclose : close ≠ .dot) : (commaTail close (expr g)).Rejoins k :=
  .commaTail (hg.follow.expr 0).mayConsume hclose fun _ => rejoins_expr hg

theorem rejoins_args : (args g).Rejoins k :=
  .bind (.expect nofun) fun _ _ => .enclosed (rejoins_exprList hg nofun)

end

/-! ## Literals -/

theorem rejoins_integerOrDuration (value : UInt64) :
    (integerOrDuration value).Rejoins (.int value) := by
  refine .bind (.advance nofun) fun _ k => .durationUnit? fun s => ?_
  cases hunit : s.attachedUnit? with
  | some unit =>
    obtain ⟨suffix, hname⟩ := State.kind_of_attachedUnit? hunit
    exact .bind (.advance (by simp [hname])) fun _ _ => .value _
  | none => exact .value _

theorem rejoins_stringParts (g : Rules) (fragments : List Fragment) :
    (stringParts g fragments).Rejoins k := by
  induction fragments generalizing k with
  | nil => exact .value _
  | cons fragment fragments ih =>
    cases fragment with
    | text value span => exact .bind ih fun more _ => .value _
    | splice tokens span =>
      exact .bind (.splice g tokens span) fun e _ => .bind ih fun more _ => .value _

theorem rejoins_interpolatedString (fragments : List Fragment) :
    (interpolatedString g fragments).Rejoins (.interpolated fragments) :=
  .bind (.advance nofun) fun _ _ => .bind (rejoins_stringParts g fragments) fun _ _ => .value _

/-! ## Names -/

section

variable (hg : g.Rejoin)
include hg

theorem rejoins_fieldInit : (fieldInit g).Rejoins k := by
  refine .start fun start => .span fun nameSpan => .bind .name fun name k => ?_
  refine .bind (.acceptIf rfl) fun given k => ?_
  split
  · exact .bind (rejoins_expr hg) fun value _ => .part start _
  · exact .bind .freshId fun id _ => .part start _

theorem rejoins_pathExpr : (pathExpr g).Rejoins k := by
  refine .bind rejoins_path fun path k => .query (fun d s s' _ hs => ?_) fun fields => ?_
  · have hcontext : s'.context = s.context := by rw [hs.same]
    rw [← hs.kind_eq, hcontext]
    cases hbrace : s.kind.isSymbol .leftBrace with
    | false => rfl
    | true => rw [hs.opensFields_eq (by simp [TokenKind.eq_of_isSymbol hbrace])]
  · split
    · refine .bind (.expect nofun) fun _ k => ?_
      exact .bind (.enclosed (.commaList (consumes_fieldInit hg.follow).mayConsume nofun fun _ =>
        rejoins_fieldInit hg)) fun fields _ => .value _
    · split
      · exact .value _
      · exact .value _

/-! ## Brackets and lambdas -/

theorem rejoins_lambdaParam : (lambdaParam g).Rejoins k := by
  refine .start fun start => .bind .name fun name k => ?_
  exact .bind (rejoins_typeAfterColon hg) fun type _ => .part start _

theorem rejoins_lambdaHead : (lambdaHead g).Rejoins k := by
  refine .bind (.expect nofun) fun _ k => ?_
  refine .bind (.commaList (consumes_lambdaParam hg.follow.type).mayConsume nofun fun _ =>
    rejoins_lambdaParam hg) fun params k => ?_
  exact .bind (rejoins_resultType hg) fun ret k => .bind (.expect nofun) fun _ _ => .value _

theorem rejoins_lambda : (lambda g).Rejoins k := by
  refine .bind (.acceptIf rfl) fun isMove k => .bind (rejoins_lambdaHead hg) fun head k => ?_
  exact .bind (rejoins_expr hg) fun body _ => .value _

theorem rejoins_parenOrTuple : (parenOrTuple g).Rejoins (.symbol .leftParen) := by
  refine .bind (.advance nofun) fun _ k => .enclosed (.bind (.acceptIf rfl) fun empty k => ?_)
  split
  · exact .value _
  · refine .bind (rejoins_expr hg) fun first k => .bind (.acceptIf rfl) fun several k => ?_
    split
    · exact .bind (rejoins_exprList hg nofun) fun more _ => .value _
    · exact .bind (.expect nofun) fun _ _ => .value _

theorem rejoins_parenOrLambda : (parenOrLambda g).Rejoins (.symbol .leftParen) := by
  rw [parenOrLambda_eq]
  refine .guess (keeps_lambdaHead hg.carry) (rejoins_lambdaHead hg) (fun head k => ?_)
    (rejoins_parenOrTuple hg)
  exact .bind (rejoins_expr hg) fun body _ => .value _

theorem rejoins_arrayExpr : (arrayExpr g).Rejoins k := by
  refine .bind (.expect nofun) fun _ k => .enclosed (.bind (.acceptIf rfl) fun empty k => ?_)
  split
  · exact .value _
  · refine .bind (rejoins_expr hg) fun first k => .bind (.acceptIf rfl) fun repeated k => ?_
    split
    · refine .bind (rejoins_expr hg) fun count k => ?_
      exact .bind (.expect nofun) fun _ _ => .value _
    · exact .bind (rejoins_exprTail hg nofun) fun more _ => .value _

/-! ## Control flow -/

theorem rejoins_ifHead : (ifHead g).Rejoins k := by
  refine .start fun start => .bind (.expectKeyword _) fun _ k => ?_
  refine .bind (rejoins_condition hg) fun cond k => ?_
  exact .bind (hg.block k) fun thenBranch _ => .value _

omit hg in
theorem rejoins_closeIfs (elseBranch : Option Expr) (heads : List OpenIf) :
    (closeIfs elseBranch heads).Rejoins k := by
  induction heads generalizing elseBranch k with
  | nil => exact .value _
  | cons head heads ih => exact .bind (rejoins_exprNode head.start _) fun e _ => ih (some e)

theorem rejoins_elseTurn (chain : List OpenIf × Option Expr) : (elseTurn g chain).Rejoins k := by
  refine .bind (.acceptIf rfl) fun found k => ?_
  split
  · refine .test (·.isKeyword .ifKw) fun another => ?_
    split
    · exact .bind (rejoins_ifHead hg) fun next _ => .value _
    · exact .bind (rejoins_blockExpr hg) fun e _ => .value _
  · exact .value _

theorem rejoins_ifExpr : (ifExpr g).Rejoins k := by
  have hloop (k : TokenKind) : (loop (elseTurn g) ([], none)).Rejoins k :=
    .loop (progresses (follows_elseTurn hg.follow)) (fun chain k => rejoins_elseTurn hg chain) _
  refine .bind (rejoins_ifHead hg) fun first k => .bind (hloop k) fun chain k => ?_
  exact .bind (rejoins_closeIfs chain.2 chain.1) fun inner _ => rejoins_exprNode first.start _

theorem rejoins_matchArm : (matchArm g).Rejoins k := by
  refine .start fun start => .bind (hg.pattern k) fun pattern k => ?_
  refine .bind (.optional (.acceptIf rfl) fun _ => rejoins_armHead hg) fun guard k => ?_
  refine .bind (.expect nofun) fun _ k => .bind (rejoins_armBody hg) fun body k => ?_
  exact .bind (.spanFrom start) fun span _ => .bind (.acceptIf rfl) fun _ _ => .value _

theorem rejoins_matchTurn : (matchTurn g).Rejoins k := by
  refine .atBodyEnd fun ended => ?_
  split
  · exact .value _
  · exact .bind (rejoins_matchArm hg) fun arm _ => .value _

theorem rejoins_matchExpr : (matchExpr g).Rejoins k := by
  refine .bind (.expectKeyword _) fun _ k => .bind (rejoins_condition hg) fun scrutinee k => ?_
  refine .bind (.expect nofun) fun _ k => ?_
  refine .bind (.enclosed (.collect (follows_matchTurn hg.follow) fun _ => rejoins_matchTurn hg))
    fun arms k => ?_
  exact .bind (.expect nofun) fun _ _ => .value _

theorem rejoins_tryExpr : (tryExpr g).Rejoins k := by
  have hbinding (k : TokenKind) : (optional (query fun s => s.kind.isName) name).Rejoins k :=
    .optional (.seen fun _ _ _ hs => by rw [hs.kind_eq]) fun _ => .name
  refine .bind (.expectKeyword _) fun _ k => .bind (hg.block k) fun body k => ?_
  refine .look (fun _ _ _ hs => by rw [hs.kind_eq]) fun s => ?_
  split
  case isTrue hcaught =>
    have hkind := TokenKind.eq_of_isKeyword hcaught
    refine .start fun start => .bind (.advance (by simp [hkind])) fun _ k => ?_
    exact .bind (hbinding k) fun binding k => .bind (hg.block k) fun handler _ =>
      .part start fun span => ExprKind.tryCatch body (some ⟨binding, handler, span⟩)
  case isFalse => exact .value _

/-! ## Concurrency -/

theorem rejoins_spawnExpr : (spawnExpr g).Rejoins k := by
  refine .bind (.expectKeyword _) fun _ k => ?_
  refine .test (fun k => k.isKeyword .moveKw || k.isSymbol .leftParen) fun isLambda => ?_
  split
  · exact .bind (rejoins_lambda hg) fun lambda _ => .value _
  · refine .bind .name fun name k => .bind (rejoins_typeArgs hg) fun typeArgs k => ?_
    exact .bind (rejoins_args hg) fun args _ => .value _

theorem rejoins_selectArm : (selectArm g).Rejoins k := by
  refine .start fun start => .bind .name fun binding k => .bind (.require rfl _) fun _ k => ?_
  refine .bind (rejoins_armHead hg) fun source k => .bind (.expect nofun) fun _ k => ?_
  exact .bind (rejoins_armBody hg) fun body _ => .part start _

theorem rejoins_timeoutArm (hk : k ≠ .symbol .dot) : (timeoutArm g).Rejoins k := by
  refine .start fun start => .bind (.advance hk) fun _ k => ?_
  refine .bind (rejoins_armHead hg) fun duration k => .bind (.expect nofun) fun _ k => ?_
  exact .bind (rejoins_armBody hg) fun body _ => .part start _

omit hg in
theorem rejoins_armSeparator : armSeparator.Rejoins k := by
  refine .bind (.acceptIf rfl) fun separated k => ?_
  split
  · exact .value _
  · refine .test (·.isSymbol .rightBrace) fun closed => ?_
    split
    · exact .value _
    · exact .expected _

theorem rejoins_anyArm (arms : List SelectArm × Option TimeoutArm) : (anyArm g arms).Rejoins k := by
  refine .look (fun d s s' hs => ?_) fun s => ?_
  · rw [← hs.kind_eq, ← kind_advance, ← kind_advance,
      hs.next_eq (f := (·.isWord "from")) fun _ => TokenKind.isWord_of_isNumber _]
  · split
    case isTrue htimeout =>
      have hkind := TokenKind.eq_of_isWord (Bool.and_eq_true_iff.1 htimeout).1
      refine .span fun keyword => .bind (rejoins_timeoutArm hg (by simp [hkind])) fun arm k => ?_
      split
      · exact .value _
      · exact .record _ (.pure _)
    case isFalse => exact .bind (rejoins_selectArm hg) fun arm _ => .value _

theorem rejoins_selectTurn (arms : List SelectArm × Option TimeoutArm) : (selectTurn g arms).Rejoins k := by
  refine .atBodyEnd fun ended => ?_
  split
  · exact .value _
  · exact .bind (rejoins_anyArm hg arms) fun arms _ => .bind rejoins_armSeparator fun _ _ => .value _

theorem rejoins_selectExpr (kind : SelectKind) (hk : k ≠ .symbol .dot) :
    (selectExpr g kind).Rejoins k := by
  have harms (k : TokenKind) : (enclosed (loop (selectTurn g) ([], none))).Rejoins k :=
    .enclosed (.loop (progresses (follows_selectTurn hg.follow)) (fun arms k => rejoins_selectTurn hg arms) _)
  refine .bind (.advance hk) fun _ k => .bind (.expect nofun) fun _ k => ?_
  exact .bind (harms k) fun found k => .bind (.expect nofun) fun _ _ => .value _

theorem rejoins_joinExpr : (joinExpr g).Rejoins k := by
  refine .bind (.expectKeyword _) fun _ k => .bind (.expect nofun) fun _ k => ?_
  refine .bind (.enclosed (.bind (rejoins_expr hg) fun first k => ?_)) fun elems _ => .value _
  exact .bind (rejoins_exprTail hg nofun) fun more _ => .value _

theorem rejoins_scopeExpr : (scopeExpr g).Rejoins k := by
  refine .bind (.expectKeyword _) fun _ k => ?_
  refine .test (·.isSymbol .leftBrace) fun block => ?_
  have hcalled (kind : ExprKind) (k : TokenKind) : (do
      expect .leftParen
      expect .rightParen
      pure kind : Parser ExprKind).Rejoins k :=
    .bind (.expect nofun) fun _ _ => .bind (.expect nofun) fun _ _ => .value _
  split
  · exact .bind (hg.block k) fun _ _ => .value _
  · refine .ifDot (fun k => ?_) (.expected _) fun setting s a t hnumber hreply => ?_
    · refine .bind (.acceptIf rfl) fun launch k => ?_
      split
      · exact .bind (hg.block k) fun _ _ => .value _
      · refine .bind (.acceptIf rfl) fun cancel k => ?_
        split
        · exact hcalled _ k
        · refine .bind (.acceptIf rfl) fun cancelled k => ?_
          split
          · exact hcalled _ k
          · exact .expected _
    · -- an operation of a scope has a name
      have hword (word : String) : acceptWord word setting s = .ok false s := by
        rw [acceptWord, acceptIf_eq, TokenKind.isWord_of_isNumber word hnumber]
        rfl
      rw [bind_ok (hword "launch"), if_neg Bool.false_ne_true, bind_ok (hword "cancel"),
        if_neg Bool.false_ne_true, bind_ok (hword "is_cancelled")] at hreply
      cases hreply

/-! ## Operands -/

omit hg in
theorem rejoins_single (kind : ExprKind) (hk : k ≠ .symbol .dot) : (single kind).Rejoins k :=
  .bind (.advance hk) fun _ _ => .value _

omit hg in
theorem rejoins_applied {operand : Parser Expr} (make : Expr → ExprKind)
    (h : ∀ k, operand.Rejoins k) (hk : k ≠ .symbol .dot) : (applied operand make).Rejoins k :=
  .bind (.advance hk) fun _ k => .bind (h k) fun _ _ => .value _

theorem rejoins_operand : (operand g).Rejoins k := by
  refine .kind fun k => ?_
  split
  · exact rejoins_asExpr (rejoins_integerOrDuration _)
  · exact rejoins_asExpr (rejoins_single _ nofun)
  · exact rejoins_asExpr (rejoins_single _ nofun)
  · exact rejoins_asExpr (rejoins_interpolatedString _)
  · exact rejoins_asExpr (rejoins_single _ nofun)
  · exact rejoins_asExpr (rejoins_single _ nofun)
  · exact rejoins_asExpr (rejoins_single _ nofun)
  · exact rejoins_asExpr (rejoins_single _ nofun)
  · exact rejoins_asExpr (rejoins_pathExpr hg)
  · exact rejoins_asExpr (rejoins_parenOrLambda hg)
  · exact rejoins_asExpr (rejoins_arrayExpr hg)
  · exact rejoins_blockExpr hg
  · exact rejoins_asExpr (rejoins_applied _ (hg.expr _) nofun)
  · exact rejoins_asExpr (rejoins_applied _ (hg.expr _) nofun)
  · exact rejoins_asExpr (rejoins_applied _ (hg.expr _) nofun)
  · exact rejoins_asExpr (rejoins_applied _ (hg.expr _) nofun)
  · exact rejoins_ifExpr hg
  · exact rejoins_asExpr (rejoins_matchExpr hg)
  · exact rejoins_asExpr (.bind (rejoins_lambda hg) fun lambda _ => .value _)
  · exact rejoins_asExpr (rejoins_spawnExpr hg)
  · exact rejoins_asExpr (rejoins_selectExpr hg _ nofun)
  · exact rejoins_asExpr (rejoins_selectExpr hg _ nofun)
  · exact rejoins_asExpr (rejoins_joinExpr hg)
  · exact rejoins_asExpr (rejoins_scopeExpr hg)
  · exact rejoins_asExpr (rejoins_tryExpr hg)
  · refine rejoins_asExpr (.bind (.advance nofun) fun _ k => ?_)
    exact .bind (hg.block k) fun _ _ => .value _
  · exact .expected _

end

end Parser

end ActorFrontend
