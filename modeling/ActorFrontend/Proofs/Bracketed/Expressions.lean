import ActorFrontend.Proofs.Alike.Expressions
import ActorFrontend.Proofs.Bracketed.Types
import ActorFrontend.Proofs.Nesting.Expressions

/-!
# Expressions before a closing parenthesis

An argument ends in an expression, so expressions are also compared where they stop exactly at the place
where the inputs part.
-/

namespace ActorFrontend

open ActorFrontend.Parser
open Makes (keeps_acceptIf keeps_require)

variable {k : TokenKind} {final : Bool} {g : Rules}

/-- A number or a name is written in the same way in both inputs. -/
theorem Parting.Before.text_eq {parting : Parting} {s s' : State} (h : parting.Before s s')
    (hstays : parting.Stays false s) : s.text = s'.text := by
  obtain ⟨lexeme, ts, hrest, hrest'⟩ := h.inside hstays
  rw [State.text, State.text, hrest, hrest']
  rfl

/-- What behind a name shows that the name is the one of a field. -/
def Parser.goesOnField : TokenKind → Bool
  | .symbol .colon | .symbol .comma | .symbol .rightBrace => true
  | _ => false

/-- The fields of a struct literal are told from a block by what is on this side of the place where the
inputs part. -/
theorem Parting.Before.opensFields_eq {parting : Parting} {s s' : State} (h : parting.Before s s')
    (hstays : parting.Stays false s) : opensFields s = opensFields s' := by
  have hnext := h.advance hstays
  have hsecond (s : State) : s.peek 2 = s.advance.advance.kind := by rw [kind_advance, peek_advance]
  unfold opensFields
  rw [hsecond, hsecond, ← kind_advance, ← kind_advance]
  obtain heq | ⟨-, hend, hend'⟩ := hnext.kind_eq_or hnext.stays
  · rw [← heq]
    split
    · rfl
    · rename_i name hname
      have hinside := hnext.stays_of_kind (by simp [hname]) (by simp [hname])
      exact hnext.next_eq (f := goesOnField) hinside rfl
    · rfl
  · obtain hs | hs := hend <;> obtain hs' | hs' := hend' <;> simp only [hs, hs']

namespace Parser

/-! ## Lambda heads -/

section

variable {g : Rules} (hg : g.Carry)
include hg

theorem carries_lambdaParam : (lambdaParam g).Carries k false := by
  refine .start fun start => .bind .name fun name k => ?_
  exact .bind (carries_typeAfterColon hg) fun type _ => .part start _

theorem carries_lambdaHead {final : Bool} : (lambdaHead g).Carries k final := by
  refine .bind (.expect _) fun _ k => ?_
  refine .bind (.commaList (consumes_lambdaParam hg.follow.type).mayConsume fun _ =>
    carries_lambdaParam hg) fun params k => ?_
  refine .close (carries_resultType hg) (fun ret k => ?_) fun ret => ?_
  · exact .bind (.expect _) fun _ _ => .value _
  · exact .bind (.require rfl _) fun _ => .pure _

theorem keeps_lambdaHead : (lambdaHead g).Keeps false := by
  have halike : Alike (⟨true, true, true⟩ : Likeness) false false none .unread .behind
      (Like ⟨true, true, true⟩)
      (lambdaHead g) (lambdaHead g) := alike_lambdaHead hg.alike rfl
  exact halike.keepAlike.left

/-- A head of a lambda that is read in one of two inputs before they part is read in the other one. -/
theorem lambdaHead_back {parting : Parting} {s s' t' : State}
    {head : List LambdaParam × Option TypeExpr} (hs : parting.Before s s')
    (hreply : lambdaHead g parting.setting' s' = .ok head t') :
    ∃ head t, lambdaHead g parting.setting s = .ok head t := by
  have hright : parting.right <:+ s'.rest := by
    obtain ⟨ts, -, hrest'⟩ := hs.rest
    exact ⟨ts, hrest'.symm⟩
  have hstays : parting.swap.Stays true t' :=
    (lags_lambdaHead hg.confined parting.setting' parting.place parting.right s' head t' rfl
      parting.right_closing hright hreply).length_le
  have herrors : t'.errors = [] :=
    (((keeps_lambdaHead hg).kept hreply).silent rfl).trans hs.swap.errors
  obtain ⟨t, hback, -⟩ := (carries_lambdaHead hg).carries parting.swap s' s head t' rfl hs.swap hreply
    herrors hstays
  exact ⟨head, t, hback⟩

end

/-! ## Expressions in special contexts -/

theorem carries_exprNode (start : Nat) (kind : ExprKind) : (exprNode start kind).Carries k final :=
  .node start _

theorem carries_asExpr {kind : Parser ExprKind} (h : kind.Carries k final) :
    (asExpr kind).Carries k final :=
  .start fun start => .bind h fun _ _ => .node start _

section

variable (hg : g.Carry)
include hg

theorem carries_expr : (expr g).Carries k final := (hg.expr 0 k).weaken

theorem starved_expr : (expr g).Starved := hg.expr_starved 0

theorem carries_block : g.block.Carries k final := (hg.block k).weaken

theorem carries_condition : (condition g).Carries k final :=
  Carries.inContext (f := fun context => { context with structLiterals := false }) (carries_expr hg)

theorem carries_armHead : (armHead g).Carries k final :=
  Carries.inContext (f := fun context => { context with lambdas := false }) (carries_expr hg)

theorem carries_blockExpr : (blockExpr g).Carries k final :=
  carries_asExpr (.bind (carries_block hg) fun _ _ => .value _)

theorem carries_armBody : (armBody g).Carries k final := by
  refine .test (f := (·.isSymbol .leftBrace)) (fun _ => rfl) fun block => ?_
  split
  · exact carries_blockExpr hg
  · exact carries_expr hg

theorem carries_exprList (close : Symbol) : (commaList close (expr g)).Carries k final :=
  .commaList (hg.follow.expr 0).mayConsume fun _ => carries_expr hg

theorem keeps_exprList (close : Symbol) : (commaList close (expr g)).Keeps true :=
  have hcarries : (commaList close (expr g)).Carries .endOfFile true := carries_exprList hg close
  hcarries.keeps

theorem carries_args : (args g).Carries k final :=
  .bind (.expect _) fun _ _ => .enclosed (carries_exprList hg _)

end

/-! ## Literals -/

theorem carries_integerOrDuration (value : UInt64) (hk : k ≠ .endOfFile) :
    (integerOrDuration value).Carries k final := by
  refine .bind (.advance fun _ => hk) fun _ k => .durationUnit? fun s => ?_
  cases hunit : s.attachedUnit? with
  | some unit =>
    obtain ⟨suffix, hname⟩ := State.kind_of_attachedUnit? hunit
    exact .bind (.advance fun _ => by simp [hname]) fun _ _ => .value _
  | none => exact .value _

theorem carries_stringParts (g : Rules) (fragments : List Fragment) :
    (stringParts g fragments).Carries k final := by
  induction fragments generalizing k with
  | nil => exact .value _
  | cons fragment fragments ih =>
    cases fragment with
    | text value span => exact .bind ih fun more _ => .value _
    | splice tokens span =>
      exact .bind (.splice g tokens span) fun e _ => .bind ih fun more _ => .value _

theorem carries_interpolatedString (fragments : List Fragment) (hk : k ≠ .endOfFile) :
    (interpolatedString g fragments).Carries k final :=
  .bind (.advance fun _ => hk) fun _ _ => .bind (carries_stringParts g fragments) fun _ _ => .value _

/-! ## Names -/

section

variable (hg : g.Carry)
include hg

theorem carries_fieldInit : (fieldInit g).Carries k final := by
  refine .start fun start => .span fun nameSpan => .bind .name fun name k => ?_
  refine .bind (.acceptIf fun _ => ⟨rfl, rfl⟩) fun given k => ?_
  split
  · exact .bind (carries_expr hg) fun value _ => .part start _
  · exact .bind .freshId fun id _ => .part start _

theorem carries_pathExpr : (pathExpr g).Carries k final := by
  refine .bind carries_path fun path k => ?_
  refine .query (fun parting s s' _ hs hstays => ?_) fun fields => ?_
  · have hsymbol : s.kind.isSymbol .leftBrace = s'.kind.isSymbol .leftBrace :=
      hs.test_eq (f := (·.isSymbol .leftBrace)) hstays fun _ => rfl
    have hcontext : s'.context = s.context := by rw [hs.same]
    rw [← hsymbol, hcontext]
    cases hbrace : s.kind.isSymbol .leftBrace with
    | false => rfl
    | true =>
      have hkind := TokenKind.eq_of_isSymbol hbrace
      rw [hs.opensFields_eq (hs.stays_of_kind (by simp [hkind]) (by simp [hkind]))]
  · split
    · refine .bind (.expect _) fun _ k => ?_
      refine .bind (.enclosed (.commaList (consumes_fieldInit hg.follow).mayConsume fun _ =>
        carries_fieldInit hg)) fun fields _ => .value _
    · split
      · exact .value _
      · exact .value _

/-! ## Brackets and lambdas -/

theorem carries_lambda : (lambda g).Carries k final := by
  refine .bind (.acceptIf fun _ => ⟨rfl, rfl⟩) fun isMove k => ?_
  refine .bind (carries_lambdaHead hg) fun head k => ?_
  exact .bind (carries_expr hg) fun body _ => .value _

theorem carries_parenOrTuple (hk : k ≠ .endOfFile) : (parenOrTuple g).Carries k final := by
  have hrest (k : TokenKind) : (do
      let first ← expr g
      if ← accept .comma then
        let more ← commaList .rightParen (expr g)
        pure (.tuple (first :: more))
      else
        expect .rightParen
        pure (.paren first) : Parser ExprKind).Carries k true := by
    refine .bind (carries_expr hg) fun first k => .bind (.acceptIf fun _ => ⟨rfl, rfl⟩) fun several k => ?_
    split
    · exact .bind (carries_exprList hg _) fun more _ => .value _
    · exact .bind (.expect _) fun _ _ => .value _
  refine .bind (.advance fun _ => hk) fun _ k => .enclosed ?_
  refine .ifClose (fun k => .value _) (hrest k) (.bind (starved_expr hg) fun first => ?_)
  refine .bind (keeps_acceptIf _) fun several _ => ?_
  split
  · exact .bind (keeps_exprList hg _) fun _ _ => .pure _
  · exact .bind (keeps_require _ _) fun _ _ => .pure _

theorem carries_parenOrLambda (hk : k ≠ .endOfFile) : (parenOrLambda g).Carries k final := by
  rw [parenOrLambda_eq]
  refine .guess (keeps_lambdaHead hg) (carries_lambdaHead hg) (fun parting s s' head t' hs hreply => ?_)
    (fun head k => ?_) (fun head => ?_) (carries_parenOrTuple hg hk)
  · exact lambdaHead_back hg hs hreply
  · exact .bind (carries_expr hg) fun body _ => .value _
  · exact .bind (starved_expr hg) fun body => .pure _

theorem carries_arrayExpr : (arrayExpr g).Carries k final := by
  refine .bind (.expect _) fun _ k => .enclosed (.bind (.acceptIf fun _ => ⟨rfl, rfl⟩) fun empty k => ?_)
  split
  · exact .value _
  · refine .bind (carries_expr hg) fun first k => ?_
    refine .bind (.acceptIf fun _ => ⟨rfl, rfl⟩) fun repeated k => ?_
    split
    · refine .bind (carries_expr hg) fun count k => ?_
      exact .bind (.expect _) fun _ _ => .value _
    · exact .bind (.commaTail (hg.follow.expr 0).mayConsume fun _ => carries_expr hg) fun more _ => .value _

/-! ## Control flow -/

theorem carries_ifHead : (ifHead g).Carries k final := by
  refine .start fun start => .bind (.expectKeyword _) fun _ k => ?_
  refine .bind (carries_condition hg) fun cond k => ?_
  exact .bind (carries_block hg) fun thenBranch _ => .value _

omit hg in
theorem carries_closeIfs (elseBranch : Option Expr) (heads : List OpenIf) :
    (closeIfs elseBranch heads).Carries k final := by
  induction heads generalizing elseBranch k with
  | nil => exact .value _
  | cons head heads ih => exact .bind (carries_exprNode head.start _) fun e _ => ih (some e)

theorem carries_elseTurn (chain : List OpenIf × Option Expr) : (elseTurn g chain).Carries k final := by
  refine .bind (.acceptIf fun _ => ⟨rfl, rfl⟩) fun found k => ?_
  split
  · refine .test (f := (·.isKeyword .ifKw)) (fun _ => rfl) fun another => ?_
    split
    · exact .bind (carries_ifHead hg) fun next _ => .value _
    · exact .bind (carries_blockExpr hg) fun e _ => .value _
  · exact .value _

theorem carries_ifExpr : (ifExpr g).Carries k final := by
  have hloop (k : TokenKind) : (loop (elseTurn g) ([], none)).Carries k final :=
    .loop (progresses (follows_elseTurn hg.follow)) (fun chain k => carries_elseTurn hg chain) _
  refine .bind (carries_ifHead hg) fun first k => .bind (hloop k) fun chain k => ?_
  exact .bind (carries_closeIfs chain.2 chain.1) fun inner _ => carries_exprNode first.start _

theorem carries_matchArm : (matchArm g).Carries k false := by
  refine .start fun start => .bind (hg.pattern k) fun pattern k => ?_
  refine .bind (.optional (.acceptIf nofun) fun _ => carries_armHead hg) fun guard k => ?_
  refine .bind (.expect _) fun _ k => .bind (carries_armBody hg) fun body k => ?_
  exact .bind (.spanFrom start) fun span _ => .bind (.acceptIf nofun) fun _ _ => .value _

theorem carries_matchTurn : (matchTurn g).Carries k false := by
  refine .atBodyEnd fun ended => ?_
  split
  · exact .value _
  · exact .bind (carries_matchArm hg) fun arm _ => .value _

theorem carries_matchExpr : (matchExpr g).Carries k final := by
  refine .bind (.expectKeyword _) fun _ k => .bind (carries_condition hg) fun scrutinee k => ?_
  refine .bind (.expect _) fun _ k => .close (.enclosed (.collect (follows_matchTurn hg.follow) fun _ =>
    carries_matchTurn hg)) (fun arms k => ?_) fun arms => ?_
  · exact .bind (.expect _) fun _ _ => .value _
  · exact .bind (.require rfl _) fun _ => .pure _

theorem carries_tryExpr : (tryExpr g).Carries k final := by
  have hbinding (k : TokenKind) : (optional (query fun s => s.kind.isName) name).Carries k true :=
    .optional (.seen fun _ _ _ hs hstays => hs.test_eq (f := TokenKind.isName) hstays fun _ => rfl)
      fun _ => .name
  refine .bind (.expectKeyword _) fun _ k => .bind (carries_block hg) fun body k => ?_
  refine .test (f := (·.isKeyword .catchKw)) (fun _ => rfl) fun caught => ?_
  split
  · refine .start fun start => .close (.advance nofun) (fun _ k => ?_) fun _ => ?_
    · exact .bind (hbinding k) fun binding k => .bind (carries_block hg) fun handler _ =>
        .part start fun span => ExprKind.tryCatch body (some ⟨binding, handler, span⟩)
    · refine .last (hbinding .endOfFile).keeps fun binding => .bind hg.block_starved fun handler => ?_
      exact .bind (.query _) fun _ _ => .pure _
  · exact .value _

/-! ## Concurrency -/

theorem carries_spawnExpr : (spawnExpr g).Carries k final := by
  refine .bind (.expectKeyword _) fun _ k => ?_
  refine .test (f := fun k => k.isKeyword .moveKw || k.isSymbol .leftParen) (fun _ => rfl) fun isLambda => ?_
  split
  · exact .bind (carries_lambda hg) fun lambda _ => .value _
  · refine .bind .name fun name k => .close (carries_typeArgs hg) (fun typeArgs k => ?_) fun typeArgs => ?_
    · exact .bind (carries_args hg) fun args _ => .value _
    · have henclosed : (enclosed (commaList .rightParen (expr g))).Carries .endOfFile true :=
        .enclosed (carries_exprList hg _)
      exact .bind (.bind (.require rfl _) fun _ => henclosed.keeps) fun args => .pure _

theorem carries_selectArm : (selectArm g).Carries k false := by
  refine .start fun start => .bind .name fun binding k => .bind (.require rfl _) fun _ k => ?_
  refine .bind (carries_armHead hg) fun source k => .bind (.expect _) fun _ k => ?_
  exact .bind (carries_armBody hg) fun body _ => .part start _

theorem carries_timeoutArm : (timeoutArm g).Carries k false := by
  refine .start fun start => .bind (.advance nofun) fun _ k => ?_
  refine .bind (carries_armHead hg) fun duration k => .bind (.expect _) fun _ k => ?_
  exact .bind (carries_armBody hg) fun body _ => .part start _

omit hg in
theorem carries_seesTimeout {α : Type} {q : Bool → Parser α} (hq : ∀ a, (q a).Carries k false) :
    (seesTimeout >>= q).Carries k false := by
  refine .query (fun parting s s' _ hs hstays => ?_) hq
  rw [← hs.kind_eq hstays, ← kind_advance, ← kind_advance,
    hs.next_eq (f := (·.isWord "from")) hstays rfl]

omit hg in
theorem carries_armSeparator : armSeparator.Carries k false := by
  refine .bind (.acceptIf nofun) fun separated k => ?_
  split
  · exact .value _
  · refine .test (f := (·.isSymbol .rightBrace)) nofun fun closed => ?_
    split
    · exact .value _
    · exact .expected _

theorem carries_anyArm (arms : List SelectArm × Option TimeoutArm) : (anyArm g arms).Carries k false := by
  refine carries_seesTimeout fun timeout => ?_
  split
  · refine .span fun keyword => .bind (carries_timeoutArm hg) fun arm k => ?_
    split
    · exact .value _
    · exact .record _ (.pure _)
  · exact .bind (carries_selectArm hg) fun arm _ => .value _

theorem carries_selectTurn (arms : List SelectArm × Option TimeoutArm) :
    (selectTurn g arms).Carries k false := by
  refine .atBodyEnd fun ended => ?_
  split
  · exact .value _
  · exact .bind (carries_anyArm hg arms) fun arms _ => .bind carries_armSeparator fun _ _ => .value _

theorem carries_selectExpr (kind : SelectKind) (hk : k ≠ .endOfFile) :
    (selectExpr g kind).Carries k final := by
  have harms (k : TokenKind) : (enclosed (loop (selectTurn g) ([], none))).Carries k false :=
    .enclosed (.loop (progresses (follows_selectTurn hg.follow)) (fun arms k => carries_selectTurn hg arms) _)
  refine .bind (.advance fun _ => hk) fun _ k => .bind (.expect _) fun _ k => ?_
  refine .close (harms k) (fun found k => ?_) fun found => ?_
  · exact .bind (.expect _) fun _ _ => .value _
  · exact .bind (.require rfl _) fun _ => .pure _

theorem carries_joinExpr : (joinExpr g).Carries k final := by
  refine .bind (.expectKeyword _) fun _ k => .bind (.expect _) fun _ k => ?_
  refine .bind (.enclosed (.bind (carries_expr hg) fun first k => ?_)) fun elems _ => .value _
  exact .bind (.commaTail (hg.follow.expr 0).mayConsume fun _ => carries_expr hg) fun more _ => .value _

theorem carries_scopeExpr : (scopeExpr g).Carries k final := by
  refine .bind (.expectKeyword _) fun _ k => ?_
  refine .test (f := (·.isSymbol .leftBrace)) (fun _ => rfl) fun block => ?_
  have hcalled (kind : ExprKind) (k : TokenKind) : (do
      expect .leftParen
      expect .rightParen
      pure kind : Parser ExprKind).Carries k final :=
    .bind (.expect _) fun _ _ => .bind (.expect _) fun _ _ => .value _
  split
  · exact .bind (carries_block hg) fun _ _ => .value _
  · refine .bind (.acceptIf fun _ => ⟨rfl, rfl⟩) fun dot k => ?_
    split
    · refine .bind (.acceptIf fun _ => ⟨rfl, rfl⟩) fun launch k => ?_
      split
      · exact .bind (carries_block hg) fun _ _ => .value _
      · refine .bind (.acceptIf fun _ => ⟨rfl, rfl⟩) fun cancel k => ?_
        split
        · exact hcalled _ k
        · refine .bind (.acceptIf fun _ => ⟨rfl, rfl⟩) fun cancelled k => ?_
          split
          · exact hcalled _ k
          · exact .expected _
    · exact .expected _

/-! ## Operands and operators -/

omit hg in
theorem carries_single (kind : ExprKind) (hk : k ≠ .endOfFile) : (single kind).Carries k final :=
  .bind (.advance fun _ => hk) fun _ _ => .value _

omit hg in
theorem carries_applied {operand : Parser Expr} (make : Expr → ExprKind)
    (h : ∀ k, operand.Carries k true) (hk : k ≠ .endOfFile) : (applied operand make).Carries k final :=
  .bind (.advance fun _ => hk) fun _ k => .bind (h k).weaken fun _ _ => .value _

theorem carries_operand : (operand g).Carries k final := by
  refine .kind (fun _ => rfl) fun k => ?_
  split
  · exact carries_asExpr (carries_integerOrDuration _ nofun)
  · exact carries_asExpr (carries_single _ nofun)
  · exact carries_asExpr (carries_single _ nofun)
  · exact carries_asExpr (carries_interpolatedString _ nofun)
  · exact carries_asExpr (carries_single _ nofun)
  · exact carries_asExpr (carries_single _ nofun)
  · exact carries_asExpr (carries_single _ nofun)
  · exact carries_asExpr (carries_single _ nofun)
  · exact carries_asExpr (carries_pathExpr hg)
  · exact carries_asExpr (carries_parenOrLambda hg nofun)
  · exact carries_asExpr (carries_arrayExpr hg)
  · exact carries_blockExpr hg
  · exact carries_asExpr (carries_applied _ (hg.expr _) nofun)
  · exact carries_asExpr (carries_applied _ (hg.expr _) nofun)
  · exact carries_asExpr (carries_applied _ (hg.expr _) nofun)
  · exact carries_asExpr (carries_applied _ (hg.expr _) nofun)
  · exact carries_ifExpr hg
  · exact carries_asExpr (carries_matchExpr hg)
  · exact carries_asExpr (.bind (carries_lambda hg) fun lambda _ => .value _)
  · exact carries_asExpr (carries_spawnExpr hg)
  · exact carries_asExpr (carries_selectExpr hg _ nofun)
  · exact carries_asExpr (carries_selectExpr hg _ nofun)
  · exact carries_asExpr (carries_joinExpr hg)
  · exact carries_asExpr (carries_scopeExpr hg)
  · exact carries_asExpr (carries_tryExpr hg)
  · refine carries_asExpr (.bind (.advance fun _ => nofun) fun _ k => ?_)
    exact .bind (carries_block hg) fun _ _ => .value _
  · exact .expected _

theorem starved_operand : (operand g).Starved := by
  have hcarries : (operand g).Carries .endOfFile true := carries_operand hg
  refine .kind hcarries.keeps fun k hk => ?_
  obtain rfl | rfl := hk
  · exact .expected _
  · exact .expected _

omit hg in
/-- Two indices are read from one number. -/
theorem carries_indexPair (object : Expr) (hend : k ≠ .endOfFile) (hclose : k ≠ .symbol .rightParen) :
    (indexPair object).Carries k final := by
  refine .span fun token => .query (fun parting s s' hs h _ => ?_) fun text => ?_
  · exact h.text_eq (h.stays_of_kind (hs ▸ hend) (hs ▸ hclose))
  · refine .bind (.advance fun _ => hend) fun _ k => .bind .freshId fun id k => ?_
    exact carries_exprNode _ _

theorem carries_member (object : Expr) : (member g object).Carries k final := by
  refine .kind (fun _ => rfl) fun k => ?_
  split
  · refine .bind (.advance fun _ => nofun) fun _ k => ?_
    refine .test (f := (·.isSymbol .leftParen)) (fun _ => rfl) fun call => ?_
    split
    · exact .bind (carries_args hg) fun args _ => carries_exprNode _ _
    · exact carries_exprNode _ _
  · refine .query (fun parting s s' hs h _ => h.text_eq (h.stays_of_kind ?_ ?_)) fun field => ?_
    · simp [hs]
    · simp [hs]
    · exact .bind (.advance fun _ => nofun) fun _ _ => carries_exprNode _ _
  · exact carries_indexPair object nofun nofun
  · exact .expected _

theorem carries_continuation (left : Expr) : (continuation g left).Carries k final := by
  refine .kind (fun _ => rfl) fun k => ?_
  split
  · exact .bind (carries_args hg) fun args _ => carries_exprNode _ _
  · refine .bind (.advance fun _ => nofun) fun _ k => .bind (.enclosed (carries_expr hg)) fun index k => ?_
    exact .bind (.expect _) fun _ _ => carries_exprNode _ _
  · exact .bind (.advance fun _ => nofun) fun _ _ => carries_exprNode _ _
  · exact .bind (.advance fun _ => nofun) fun _ _ => carries_member hg left
  · exact .expected _

theorem carries_operation (op : OperatorToken) (left : Expr) (hk : k ≠ .endOfFile) :
    (operation g op left).Carries k final := by
  refine .bind (.advance fun _ => hk) fun _ k => .bind (hg.expr _ k).weaken fun right k => ?_
  exact .bind .freshId fun id _ => .value _

theorem carries_extend (minPower : Nat) (left : Expr) : (extend g minPower left).Carries k final := by
  refine .kind (fun _ => rfl) fun k => ?_
  cases continuationPower? k with
  | some power =>
    simp only
    split
    · exact .value _
    · exact .bind (carries_continuation hg left) fun e _ => .value _
  | none =>
    cases hop : OperatorToken.ofToken? k with
    | some op =>
      simp only
      split
      · exact .value _
      · refine .bind (carries_operation hg op left ?_) fun e _ => .value _
        rintro rfl
        cases hop
    | none => exact .value _

theorem carries_exprRule (minPower : Nat) : (exprRule g minPower).Carries k final := by
  refine .bind (carries_operand hg) fun first k => ?_
  exact .loop (progresses (follows_extend hg.follow minPower)) (fun left k =>
    carries_extend hg minPower left) first

theorem starved_exprRule (minPower : Nat) : (exprRule g minPower).Starved := by
  have hcarries (left : Expr) : (extend g minPower left).Carries .endOfFile true :=
    carries_extend hg minPower left
  exact .bind (starved_operand hg) fun first => .loop (fun left => (hcarries left).keeps) first

end

end Parser

end ActorFrontend
