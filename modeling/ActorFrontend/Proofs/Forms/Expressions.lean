import ActorFrontend.Proofs.Forms.Types
import ActorFrontend.Proofs.Nesting.Expressions

/-!
# Expressions fit their contexts

A struct literal is read only where the context allows it, and so is a lambda without `move`.  The
context of a head holds for all that is read in it outside of brackets.
-/

namespace ActorFrontend

variable {g : Rules} {loud : Bool} {c : Context}

/-! ## What fits -/

/-- Forms without parts. -/
def ExprKind.isLeaf : ExprKind → Bool
  | .literal _ | .duration _ | .ident _ | .selfValue | .scopeCancel | .scopeIsCancelled | .cooperate => true
  | _ => false

namespace Context

/-- The expression fits, and a block may follow it. -/
structure FitsCondition (c : Context) (e : Expr) : Prop where
  fits : c.Fits e
  clear : beforeBlock.Permits e

/-- The expression fits, and the arrow of an arm may follow it. -/
structure FitsArmHead (c : Context) (e : Expr) : Prop where
  fits : c.Fits e
  clear : beforeArrow.Permits e

structure FitsOpenIf (c : Context) (head : Parser.OpenIf) : Prop where
  cond : c.FitsCondition head.cond
  thenBranch : Sound head.thenBranch

/-- An `else` branch that fits is a block or another `if`. -/
def FitsElse (c : Context) (elseBranch : Option Expr) : Prop :=
  ∀ e, elseBranch = some e → c.Fits e ∧ (e.kind.isIfElse || e.kind.isBlock) = true

/-- What has been read of a chain of `if` expressions. -/
structure FitsChain (c : Context) (chain : List Parser.OpenIf × Option Expr) : Prop where
  heads : ∀ head ∈ chain.1, c.FitsOpenIf head
  last : c.FitsElse chain.2

theorem fitsKind_ifElse {head : Parser.OpenIf} {elseBranch : Option Expr} (hhead : c.FitsOpenIf head)
    (helse : c.FitsElse elseBranch) :
    c.FitsKind (.ifElse head.cond head.thenBranch elseBranch) where
  shaped := by
    cases elseBranch with
    | none => trivial
    | some e => exact (helse e rfl).2
  conditions := List.forall_mem_singleton.2 hhead.cond.clear
  armHeads := nofun
  contents := by
    refine allSound_append.2 ⟨allSound_append.2 ⟨hhead.cond.fits.sound, hhead.thenBranch⟩, ?_⟩
    cases elseBranch with
    | none => exact sound_none
    | some e => exact sound_some.2 (helse e rfl).1.sound
  allows := ⟨nofun, nofun⟩
  bare := by
    refine List.forall_mem_cons.2 ⟨hhead.cond.fits.permits, fun e he => ?_⟩
    exact (helse e (Option.mem_toList.1 he)).1.permits

theorem fitsElse_some {e : Expr} (h : c.Fits e) (hkind : (e.kind.isIfElse || e.kind.isBlock) = true) :
    c.FitsElse (some e) := by
  intro e' he
  obtain rfl := Option.some.inj he
  exact ⟨h, hkind⟩

theorem fitsElse_none : c.FitsElse none := nofun

/-- A form without parts. -/
theorem FitsKind.leaf {kind : ExprKind} (h : kind.isLeaf = true) : c.FitsKind kind := by
  cases kind with
  | literal | duration | ident | selfValue | scopeCancel | scopeIsCancelled | cooperate =>
    exact ⟨trivial, nofun, nofun, allSound_nil, ⟨nofun, nofun⟩, nofun⟩
  | _ => cases h

theorem fitsKind_interpolated {parts : List StringPart} (hparts : Sound parts)
    (htexts : TextsApart (parts.map StringPart.text?)) : c.FitsKind (.interpolated parts) where
  shaped := htexts
  conditions := nofun
  armHeads := nofun
  contents := hparts
  allows := ⟨nofun, nofun⟩
  bare := nofun

end Context

/-- The arm is sound, and its guard may stand before an arrow. -/
structure MatchArm.Fits (arm : MatchArm) : Prop where
  sound : Sound arm
  guard : ∀ e, arm.guard = some e → Context.beforeArrow.Permits e

structure SelectArm.Fits (arm : SelectArm) : Prop where
  sound : Sound arm
  source : Context.beforeArrow.Permits arm.source

structure TimeoutArm.Fits (arm : TimeoutArm) : Prop where
  sound : Sound arm
  duration : Context.beforeArrow.Permits arm.duration

/-- What has been read of the arms of a `select` or `race`. -/
structure SelectArm.AllFit (found : List SelectArm × Option TimeoutArm) : Prop where
  arms : ∀ arm ∈ found.1, arm.Fits
  timeout : ∀ arm, found.2 = some arm → arm.Fits

namespace Parser

open Forms
open Makes (keeps_acceptIf keeps_require keeps_valueOf)

theorem forms_expr (hg : g.Form) : Forms true Context.Fits (expr g) := hg.expr 0

theorem forms_asExpr {kind : Parser ExprKind} (h : Forms loud Context.FitsKind kind) :
    Forms loud Context.Fits (asExpr kind) :=
  .start fun _ => .bind h fun _ => .node fun _ _ _ hkind => hkind.fits

theorem always_asExpr {kind : Parser ExprKind} {P : ExprKind → Prop} (h : Always P kind) :
    Always (fun e => P e.kind) (asExpr kind) :=
  .last fun _ => .bind h fun _ hkind => .last fun _ => .last fun _ => .value hkind

/-! ## Expressions in special contexts -/

theorem forms_condition (hg : g.Form) : Forms true Context.FitsCondition (condition g) := by
  have h : Forms true (fun c e => ({ c with structLiterals := false } : Context).Fits e) (condition g) :=
    @Forms.inContext _ _ _ Context.Fits (fun context => { context with structLiterals := false })
      (forms_expr hg)
  refine h.imp fun c e h => ⟨⟨h.sound, h.permits.mono nofun id⟩, h.permits.mono nofun fun _ => rfl⟩

theorem forms_armHead (hg : g.Form) : Forms true Context.FitsArmHead (armHead g) := by
  have h : Forms true (fun c e => ({ c with lambdas := false } : Context).Fits e) (armHead g) :=
    @Forms.inContext _ _ _ Context.Fits (fun context => { context with lambdas := false })
      (forms_expr hg)
  exact h.imp fun c e h => ⟨⟨h.sound, h.permits.mono id nofun⟩, h.permits.mono (fun _ => rfl) nofun⟩

/-- In brackets an expression need only be sound. -/
theorem forms_exprList (hg : g.Form) (close : Symbol) :
    Forms true (fun _ => Sound) (commaList close (expr g)) :=
  .list (.commaList ((forms_expr hg).imp fun _ _ h => h.sound))

theorem forms_args (hg : g.Form) : Forms true (fun _ => Sound) (args g) :=
  .require (.enclosed (forms_exprList hg _))

theorem forms_blockExpr (hg : g.Form) : Forms true Context.Fits (blockExpr g) :=
  forms_asExpr (.bind hg.block fun _ => .value fun _ h => ⟨trivial, nofun, nofun, h, ⟨nofun, nofun⟩, nofun⟩)

theorem forms_armBody (hg : g.Form) : Forms true Context.Fits (armBody g) := by
  refine .query fun block => ?_
  split
  · exact forms_blockExpr hg
  · exact forms_expr hg

/-! ## Literals -/

theorem forms_integerOrDuration (value : UInt64) :
    Forms loud Context.FitsKind (integerOrDuration value) := by
  refine .advance (.pass .durationUnit? fun unit => ?_)
  cases unit with
  | some unit => exact .advance (.value fun _ => .leaf rfl)
  | none => exact .value fun _ => .leaf rfl

/-- What a splice forms is sound, for nothing is ruled out in it. -/
theorem forms_splice (hg : g.Form) {tokens : List Token} {span : Span}
    (htokens : ∀ t ∈ tokens, t.SetsTextsApart) : Forms true (fun _ => Sound) (splice g tokens span) := by
  have hwhole : Forms true Context.Fits (wholeExpr g (.symbol .rightBrace)) := by
    refine .bind (forms_expr hg) fun e => .query fun ended => ?_
    split
    · exact .value fun _ => id
    · exact .expected _
  refine ⟨.splice g tokens span, fun setting s e after _ hreply => ?_⟩
  rw [splice_eq] at hreply
  split at hreply
  case h_1 e' inner hinner =>
    cases hreply
    have hentry : (s.inSplice (setting.inSplice span) tokens).SetsTextsApart :=
      fun lexeme hlexeme => htokens _ (Lexeme.token_mem_of_mem_significant hlexeme)
    exact (hwhole.forms _ _ e inner hentry hinner).sound
  case h_2 => cases hreply

/-- The parts of a string are those of its token. -/
theorem forms_stringParts (hg : g.Form) {fragments : List Fragment}
    (hsplices : ∀ tokens span, .splice tokens span ∈ fragments → ∀ t ∈ tokens, t.SetsTextsApart) :
    Forms true (fun _ parts => Sound parts ∧ parts.map StringPart.text? = fragments.map Fragment.text?)
      (stringParts g fragments) := by
  induction fragments with
  | nil => exact .value fun _ => ⟨sound_nil, rfl⟩
  | cons fragment fragments ih =>
    have ih := ih fun tokens span hmem => hsplices tokens span (List.mem_cons_of_mem _ hmem)
    cases fragment with
    | text value span =>
      refine .bind ih fun more => .value fun _ hmore => ⟨sound_cons.2 ⟨sound_text, hmore.1⟩, ?_⟩
      simp [hmore.2, StringPart.text?, Fragment.text?]
    | splice tokens span =>
      have hsplice : Forms true (fun _ => Sound) (splice g tokens span) :=
        forms_splice hg (hsplices tokens span List.mem_cons_self)
      refine .bind hsplice fun e => .bind ih fun more => .value fun _ hmore he => ?_
      refine ⟨sound_cons.2 ⟨sound_spliced.2 he, hmore.1⟩, ?_⟩
      simp [hmore.2, StringPart.text?, Fragment.text?]

theorem keeps_asExpr_interpolatedString (fragments : List Fragment) :
    (asExpr (interpolatedString g fragments)).Keeps true :=
  .bind (fun _ s => .refl s) fun _ _ => .bind (keeps_interpolatedString g fragments)
    fun _ _ => .bind .freshId fun _ _ => .bind (.query _) fun _ _ => .pure _

theorem forms_interpolatedString (hg : g.Form) (fragments : List Fragment) :
    FormsAt (.interpolated fragments) true Context.Fits (asExpr (interpolatedString g fragments)) := by
  refine ⟨keeps_asExpr_interpolatedString fragments, fun setting s e after hs hkind hreply => ?_⟩
  obtain ⟨lexeme, rest, hrest⟩ : ∃ lexeme rest, s.rest = lexeme :: rest := by
    cases hrest : s.rest with
    | nil => simp [State.kind, hrest] at hkind
    | cons lexeme rest => exact ⟨lexeme, rest, rfl⟩
  have htoken : lexeme.token.kind = .interpolated fragments := by
    simpa [State.kind, hrest] using hkind
  have hapart : lexeme.token.SetsTextsApart := hs lexeme (by simp [hrest])
  have hparts := forms_stringParts hg fun tokens span hmem =>
    hapart.splice ⟨fragments, htoken, hmem⟩
  have hstring : Forms true Context.FitsKind (interpolatedString g fragments) := by
    refine .advance (.bind hparts fun parts => .value fun _ h => ?_)
    exact Context.fitsKind_interpolated h.1 (h.2.symm ▸ hapart.textsApart htoken)
  exact (forms_asExpr hstring).forms setting s e after hs hreply

/-! ## Names -/

theorem forms_fieldInit (hg : g.Form) : Forms true (fun _ => Sound) (fieldInit g) := by
  refine .start fun start => .span fun nameSpan => .valueOf fun name => .acceptIf fun given => ?_
  split
  · refine .bind (forms_expr hg) fun value => .spanFrom fun span => .value fun _ h => ?_
    exact sound_fieldInit.2 h.sound
  · refine .pass .freshId fun id => .spanFrom fun span => .value fun _ => ?_
    have hfits : Context.anything.Fits ⟨id, nameSpan, .ident name⟩ := (Context.FitsKind.leaf rfl).fits
    exact sound_fieldInit.2 hfits.sound

theorem forms_pathExpr (hg : g.Form) : Forms true Context.FitsKind (pathExpr g) := by
  have hlook : Forms true (fun c fields => fields = true → c.structLiterals = true)
      (query fun s => s.kind.isSymbol .leftBrace && s.context.structLiterals && opensFields s) :=
    .ask fun s _ h => by simp_all
  refine .bind forms_path fun path => .bind hlook fun fields => ?_
  split
  case isTrue hopens =>
    have hfields : Forms true (fun _ => Sound) (enclosed (commaList .rightBrace (fieldInit g))) :=
      .enclosed (.list (.commaList (forms_fieldInit hg)))
    refine .require (.bind hfields fun fields => .value fun _ h hallowed _ => ?_)
    exact ⟨trivial, nofun, nofun, h, ⟨fun _ => hallowed hopens, nofun⟩, nofun⟩
  case isFalse =>
    split
    case h_1 => exact .value fun _ _ _ => .leaf rfl
    case h_2 hsingle =>
      refine .value fun _ _ hpath => ?_
      have hlength := two_le_of_ne_nil hpath fun name => hsingle name
      exact ⟨hlength, nofun, nofun, allSound_nil, ⟨nofun, nofun⟩, nofun⟩

/-! ## Brackets and lambdas -/

theorem forms_lambdaParam (hg : g.Form) : Forms false (fun _ => Sound) (lambdaParam g) :=
  .start fun _ => .valueOf fun _ => .bind (forms_typeAfterColon hg) fun _ => .spanFrom fun _ =>
    .value fun _ h => sound_lambdaParam.2 h

theorem forms_lambdaHead (hg : g.Form) : Forms false (fun _ => Sound) (lambdaHead g) := by
  refine .require (.bind (.list (.commaList (forms_lambdaParam hg))) fun params => ?_)
  refine .bind (forms_resultType hg) fun ret => .require (.value fun _ hret hparams => ?_)
  exact sound_pair.2 ⟨hparams, hret⟩

/-- The lambda is sound, and the context rules out nothing in its body. -/
structure Context.FitsLambda (c : Context) (l : Lambda) : Prop where
  sound : Sound l
  body : c.Permits l.body

/-- A lambda of which the parts have been read. -/
theorem fitsLambda (isMove : Bool) {params : List LambdaParam} {ret : Option TypeExpr} {body : Expr}
    (hhead : Sound (params, ret)) (hbody : c.Fits body) : Context.FitsLambda c ⟨isMove, params, ret, body⟩ :=
  have hparts := sound_pair.1 hhead
  ⟨sound_lambda.2 ⟨hparts.1, hparts.2, hbody.sound⟩, hbody.permits⟩

theorem Context.FitsLambda.fitsKind {l : Lambda} (h : Context.FitsLambda c l)
    (hallowed : l.isMove = true ∨ c.lambdas = true) : c.FitsKind (.lambda l) where
  shaped := trivial
  conditions := nofun
  armHeads := nofun
  contents := h.sound
  allows := by
    refine ⟨nofun, fun hplain => hallowed.resolve_left fun hmove => ?_⟩
    simp [ExprKind.isPlainLambda, hmove] at hplain
  bare := List.forall_mem_singleton.2 h.body

theorem forms_lambda (hg : g.Form) : Forms true Context.FitsLambda (lambda g) := by
  refine .acceptIf fun isMove => .bind (forms_lambdaHead hg).louder fun head => ?_
  exact .bind (forms_expr hg) fun body => .value fun _ hbody hhead => fitsLambda _ hhead hbody

theorem isMove_of_lambda {setting : Setting} {s after : State} {l : Lambda}
    (hkind : s.kind = .keyword .moveKw) (hreply : lambda g setting s = .ok l after) : l.isMove = true := by
  obtain ⟨isMove, s₁, haccept, hrest⟩ := bind_eq_ok_iff.1 hreply
  rw [acceptKeyword, acceptIf_eq, if_pos (by rw [hkind]; rfl)] at haccept
  cases haccept
  obtain ⟨head, s₂, -, hrest⟩ := bind_eq_ok_iff.1 hrest
  obtain ⟨body, s₃, -, hlambda⟩ := bind_eq_ok_iff.1 hrest
  cases hlambda
  rfl

/-- A lambda with `move` is allowed everywhere. -/
theorem forms_moveLambda (hg : g.Form) :
    FormsAt (.keyword .moveKw) true Context.Fits (asExpr do pure (.lambda (← lambda g))) := by
  have hkeeps : (asExpr do pure (.lambda (← lambda g))).Keeps true :=
    .bind (fun _ s => .refl s) fun _ _ => .bind (.bind (forms_lambda hg).keeps fun _ _ => .pure _)
      fun _ _ => .bind .freshId fun _ _ => .bind (.query _) fun _ _ => .pure _
  refine ⟨hkeeps, fun setting s e after hs hkind hreply => ?_⟩
  rw [asExpr, start_bind] at hreply
  obtain ⟨kind, s₁, hlambda, hnode⟩ := bind_eq_ok_iff.1 hreply
  obtain ⟨l, s₂, hl, hmade⟩ := bind_eq_ok_iff.1 hlambda
  cases hmade
  cases hnode
  have hfits := (forms_lambda hg).forms setting s l s₁ hs hl
  exact (hfits.fitsKind (.inl (isMove_of_lambda hkind hl))).fits

theorem forms_parenOrTuple (hg : g.Form) : Forms true Context.FitsKind (parenOrTuple g) := by
  have htuple {elems : List Expr} {c : Context} (h : Sound elems) : c.FitsKind (.tuple elems) :=
    ⟨trivial, nofun, nofun, h, ⟨nofun, nofun⟩, nofun⟩
  -- nothing stands in parentheses without brackets, whatever the context around them
  have hinner : Forms true (fun _ kind => ∀ c : Context, c.FitsKind kind) (do
      if ← accept .rightParen then
        pure (.tuple [])
      else
        let first ← expr g
        if ← accept .comma then
          let more ← commaList .rightParen (expr g)
          pure (.tuple (first :: more))
        else
          expect .rightParen
          pure (.paren first)) := by
    refine .acceptIf fun empty => ?_
    split
    · exact .value fun _ _ => htuple sound_nil
    · refine .bind (forms_expr hg) fun first => .acceptIf fun several => ?_
      split
      · refine .bind (forms_exprList hg _) fun more => .value fun _ hmore hfirst _ => ?_
        exact htuple (sound_cons.2 ⟨hfirst.sound, hmore⟩)
      · refine .require (.value fun _ hfirst _ => ?_)
        exact ⟨trivial, nofun, nofun, hfirst.sound, ⟨nofun, nofun⟩, nofun⟩
  exact .advance ((Forms.enclosed hinner).imp fun c _ h => h c)

theorem forms_parenOrLambda (hg : g.Form) : Forms true Context.FitsKind (parenOrLambda g) := by
  have hlook : Forms true (fun c allowed => allowed = true → c.lambdas = true)
      (query fun s => s.context.lambdas) := .ask fun _ _ => id
  refine .bind hlook fun allowed => ?_
  split
  case isTrue hlambdas =>
    have htrial : Forms true (fun _ => Sound) (attempt (lambdaHead g)) := by
      have hhead := forms_lambdaHead hg
      refine ⟨.attempt hhead.keeps, fun setting s found after hs hreply => ?_⟩
      cases hread : lambdaHead g setting s with
      | ok head after' =>
        rw [Keeps.attempt_of_ok hread] at hreply
        cases hreply
        exact sound_some.2 (hhead.forms setting s head _ hs hread)
      | fail e after' =>
        rw [Keeps.attempt_of_fail hhead.keeps hread] at hreply
        cases hreply
        exact sound_none
    refine .bind htrial fun found => ?_
    cases found with
    | some head =>
      refine .bind (forms_expr hg) fun body => .value fun _ hbody hhead hallowed => ?_
      exact (fitsLambda false (sound_some.1 hhead) hbody).fitsKind (.inr (hallowed hlambdas))
    | none => exact (forms_parenOrTuple hg).imp fun _ _ h _ _ => h
  case isFalse => exact (forms_parenOrTuple hg).imp fun _ _ h _ => h

theorem forms_arrayExpr (hg : g.Form) : Forms true Context.FitsKind (arrayExpr g) := by
  have harray {elems : List Expr} {c : Context} (h : Sound elems) : c.FitsKind (.array elems) :=
    ⟨trivial, nofun, nofun, h, ⟨nofun, nofun⟩, nofun⟩
  have hinner : Forms true (fun _ kind => ∀ c : Context, c.FitsKind kind) (do
      if ← accept .rightBracket then
        pure (.array [])
      else
        let first ← expr g
        if ← accept .semicolon then
          let count ← expr g
          expect .rightBracket
          pure (.arrayRepeat first count)
        else
          let more ← commaTail .rightBracket (expr g)
          pure (.array (first :: more))) := by
    refine .acceptIf fun empty => ?_
    split
    · exact .value fun _ _ => harray sound_nil
    · refine .bind (forms_expr hg) fun first => .acceptIf fun repeated => ?_
      split
      · refine .bind (forms_expr hg) fun count => .require (.value fun _ hcount hfirst _ => ?_)
        exact ⟨trivial, nofun, nofun, allSound_append.2 ⟨hfirst.sound, hcount.sound⟩, ⟨nofun, nofun⟩, nofun⟩
      · have hmore : Forms true (fun _ => Sound) (commaTail .rightBracket (expr g)) :=
          .list (.commaTail ((forms_expr hg).imp fun _ _ h => h.sound))
        refine .bind hmore fun more => .value fun _ hmore hfirst _ => ?_
        exact harray (sound_cons.2 ⟨hfirst.sound, hmore⟩)
  exact .require ((Forms.enclosed hinner).imp fun c _ h => h c)

/-! ## Control flow -/

theorem forms_ifHead (hg : g.Form) : Forms true Context.FitsOpenIf (ifHead g) := by
  refine .start fun start => .require (.bind (forms_condition hg) fun cond => ?_)
  exact .bind hg.block fun body => .value fun _ hbody hcond => ⟨hcond, hbody⟩

theorem always_closeIfs {elseBranch : Option Expr} {heads : List OpenIf} (helse : c.FitsElse elseBranch)
    (hheads : ∀ head ∈ heads, c.FitsOpenIf head) : Always c.FitsElse (closeIfs elseBranch heads) := by
  induction heads generalizing elseBranch with
  | nil => exact .value helse
  | cons head heads ih =>
    obtain ⟨hhead, hheads⟩ := List.forall_mem_cons.1 hheads
    have hnode : Always (fun e => c.Fits e ∧ e.kind.isIfElse = true)
        (exprNode head.start (.ifElse head.cond head.thenBranch elseBranch)) :=
      .last fun _ => .last fun _ => .value ⟨(Context.fitsKind_ifElse hhead helse).fits, rfl⟩
    refine .bind hnode fun e he => ih (Context.fitsElse_some he.1 ?_) hheads
    rw [he.2, Bool.true_or]

theorem isBlock_blockExpr : Always (fun e => e.kind.isBlock = true) (blockExpr g) := by
  have hkind : Always (fun kind => kind.isBlock = true) (do pure (.block (← g.block)) : Parser ExprKind) :=
    .last fun _ => .value rfl
  exact always_asExpr hkind

theorem forms_elseTurn (hg : g.Form) (chain : List OpenIf × Option Expr) :
    Forms true (fun c r => c.FitsChain chain → c.FitsChain r.2) (elseTurn g chain) := by
  refine .acceptIf fun found => ?_
  split
  · refine .query fun another => ?_
    split
    · refine .bind (forms_ifHead hg) fun next => .value fun _ hnext hchain => ?_
      exact ⟨List.forall_mem_cons.2 ⟨hnext, hchain.heads⟩, Context.fitsElse_none⟩
    · refine .bind ((forms_blockExpr hg).and_always isBlock_blockExpr) fun e => ?_
      refine .value fun _ he hchain => ⟨hchain.heads, Context.fitsElse_some he.1 ?_⟩
      rw [he.2, Bool.or_true]
  · exact .value fun _ hchain => ⟨hchain.heads, Context.fitsElse_none⟩

theorem forms_ifExpr (hg : g.Form) : Forms true Context.Fits (ifExpr g) := by
  refine .bind (forms_ifHead hg) fun first => ?_
  have hloop : Forms true Context.FitsChain (loop (elseTurn g) ([], none)) :=
    .loop (forms_elseTurn hg) fun _ => ⟨nofun, Context.fitsElse_none⟩
  refine .bind hloop fun chain => ?_
  obtain ⟨heads, elseBranch⟩ := chain
  have hkeeps : (closeIfs elseBranch heads).Keeps true := keeps_closeIfs _ _
  have hclosed := of_always (P := fun c => c.FitsChain (heads, elseBranch)) hkeeps
    fun _ hchain => always_closeIfs hchain.last hchain.heads
  refine .bind hclosed fun inner => .node fun _ id span hinner hchain hfirst => ?_
  exact (Context.fitsKind_ifElse hfirst (hinner hchain)).fits

theorem forms_matchArm (hg : g.Form) : Forms true (fun _ => MatchArm.Fits) (matchArm g) := by
  refine .start fun start => .bind hg.pattern.louder fun pattern => ?_
  refine .bind (.optional (keeps_acceptIf _) (forms_armHead hg)) fun guard => .require ?_
  refine .bind (forms_armBody hg) fun body => .spanFrom fun span => .acceptIf fun _ => ?_
  refine .value fun _ hbody hguard hpattern => ⟨?_, fun e he => (hguard e he).clear⟩
  refine sound_matchArm.2 ⟨hpattern, ?_, hbody.sound⟩
  cases guard with
  | none => exact sound_none
  | some e => exact sound_some.2 (hguard e rfl).fits.sound

/-- A `match` of which the parts have been read. -/
theorem fitsKind_match {scrutinee : Expr} {arms : List MatchArm} (hscrutinee : c.FitsCondition scrutinee)
    (harms : ∀ arm ∈ arms, arm.Fits) : c.FitsKind (.matchWith scrutinee arms) where
  shaped := trivial
  conditions := List.forall_mem_singleton.2 hscrutinee.clear
  armHeads := by
    intro e he
    obtain ⟨arm, harm, hguard⟩ := List.mem_filterMap.1 he
    exact (harms arm harm).guard e hguard
  contents := allSound_append.2 ⟨hscrutinee.fits.sound, sound_list.2 fun arm harm => (harms arm harm).sound⟩
  allows := ⟨nofun, nofun⟩
  bare := List.forall_mem_singleton.2 hscrutinee.fits.permits

theorem forms_matchExpr (hg : g.Form) : Forms true Context.FitsKind (matchExpr g) := by
  refine .require (.bind (forms_condition hg) fun scrutinee => .require ?_)
  have harms : Forms true (fun _ arms => ∀ arm ∈ arms, arm.Fits) (collect (matchTurn g)) := by
    refine .collect (.query fun ended => ?_)
    split
    · exact .value fun _ => nofun
    · exact .bind (forms_matchArm hg) fun arm => .value fun _ => List.forall_mem_singleton.2
  refine .bind (.enclosed harms) fun arms => .require (.value fun _ harms hscrutinee => ?_)
  exact fitsKind_match hscrutinee harms

theorem forms_tryExpr (hg : g.Form) : Forms true Context.FitsKind (tryExpr g) := by
  have htry {body : Block} {clause : Option CatchClause} {c : Context} (hbody : Sound body)
      (hclause : Sound clause) : c.FitsKind (.tryCatch body clause) :=
    ⟨trivial, nofun, nofun, allSound_append.2 ⟨hbody, hclause⟩, ⟨nofun, nofun⟩, nofun⟩
  refine .require (.bind hg.block fun body => .query fun caught => ?_)
  split
  · have hbinding : (optional (query fun s => s.kind.isName) name).Keeps true := by
      refine .bind (.query _) fun found _ => ?_
      split
      · exact .bind (keeps_valueOf _ _) fun _ _ => .pure _
      · exact .pure _
    refine .start fun start => .advance (.pass hbinding fun binding => .bind hg.block fun handler => ?_)
    refine .spanFrom fun span => .value fun _ hhandler hbody => ?_
    exact htry hbody (sound_some.2 (sound_catchClause.2 hhandler))
  · exact .value fun _ hbody => htry hbody sound_none

/-! ## Concurrency -/

theorem forms_spawnExpr (hg : g.Form) : Forms true Context.FitsKind (spawnExpr g) := by
  refine .require (.query fun lambda => ?_)
  split
  · refine .bind (forms_lambda hg) fun lambda => .value fun _ h => ?_
    exact ⟨trivial, nofun, nofun, h.sound, ⟨nofun, nofun⟩, List.forall_mem_singleton.2 h.body⟩
  · refine .valueOf fun name => .bind (forms_typeArgs hg).louder fun typeArgs => ?_
    refine .bind (forms_args hg) fun args => .value fun _ hargs htypeArgs => ?_
    exact ⟨trivial, nofun, nofun, allSound_append.2 ⟨htypeArgs, hargs⟩, ⟨nofun, nofun⟩, nofun⟩

theorem forms_selectArm (hg : g.Form) : Forms true (fun _ => SelectArm.Fits) (selectArm g) := by
  refine .start fun start => .valueOf fun binding => .require (.bind (forms_armHead hg) fun source => ?_)
  refine .require (.bind (forms_armBody hg) fun body => .spanFrom fun span => ?_)
  refine .value fun _ hbody hsource => ⟨?_, hsource.clear⟩
  exact sound_selectArm.2 ⟨hsource.fits.sound, hbody.sound⟩

theorem forms_timeoutArm (hg : g.Form) : Forms true (fun _ => TimeoutArm.Fits) (timeoutArm g) := by
  refine .start fun start => .advance (.bind (forms_armHead hg) fun duration => ?_)
  refine .require (.bind (forms_armBody hg) fun body => .spanFrom fun span => ?_)
  refine .value fun _ hbody hduration => ⟨?_, hduration.clear⟩
  exact sound_timeoutArm.2 ⟨hduration.fits.sound, hbody.sound⟩

theorem forms_anyArm (hg : g.Form) (arms : List SelectArm × Option TimeoutArm) :
    Forms true (fun _ found => SelectArm.AllFit arms → SelectArm.AllFit found) (anyArm g arms) := by
  refine .query fun timeout => ?_
  split
  · refine .span fun keyword => .bind (forms_timeoutArm hg) fun arm => ?_
    obtain ⟨arms, first⟩ := arms
    cases first with
    | none =>
      refine .value fun _ harm harms => ⟨harms.arms, fun arm' h => ?_⟩
      obtain rfl := Option.some.inj h
      exact harm
    | some first =>
      exact .pass (fun setting s => .record setting _ s) fun _ => .value fun _ _ harms => harms
  · refine .bind (forms_selectArm hg) fun arm => .value fun _ harm harms => ?_
    exact ⟨List.forall_mem_cons.2 ⟨harm, harms.arms⟩, harms.timeout⟩

/-- A `select` or `race` of which the arms have been read, the last one first. -/
theorem fitsKind_select {kind : SelectKind} {found : List SelectArm × Option TimeoutArm}
    (h : SelectArm.AllFit found) : c.FitsKind (.select kind found.1.reverse found.2) where
  shaped := trivial
  conditions := nofun
  armHeads := by
    refine List.forall_mem_append.2 ⟨List.forall_mem_map.2 fun arm harm => ?_,
      List.forall_mem_map.2 fun arm harm => ?_⟩
    · exact (h.arms arm (List.mem_reverse.1 harm)).source
    · exact (h.timeout arm (Option.mem_toList.1 harm)).duration
  contents := by
    refine allSound_append.2 ⟨sound_reverse.2 (sound_list.2 fun arm harm => (h.arms arm harm).sound), ?_⟩
    cases htimeout : found.2 with
    | none => exact sound_none
    | some arm => exact sound_some.2 (h.timeout arm htimeout).sound
  allows := ⟨nofun, nofun⟩
  bare := nofun

theorem forms_selectExpr (hg : g.Form) (kind : SelectKind) :
    Forms true Context.FitsKind (selectExpr g kind) := by
  have harms : Forms true (fun _ => SelectArm.AllFit) (loop (selectTurn g) ([], none)) := by
    refine .loop (fun arms => .query fun ended => ?_) fun _ => ⟨nofun, nofun⟩
    split
    · exact .value fun _ => id
    · refine .bind (forms_anyArm hg arms) fun found => .pass keeps_armSeparator fun _ => ?_
      exact .value fun _ => id
  refine .advance (.require (.bind (.enclosed harms) fun found => .require (.value fun _ hfound => ?_)))
  exact fitsKind_select hfound

theorem forms_joinExpr (hg : g.Form) : Forms true Context.FitsKind (joinExpr g) := by
  have helems : Forms true (fun _ elems => elems ≠ [] ∧ Sound elems) (do
      let first ← expr g
      let more ← commaTail .rightBrace (expr g)
      pure (first :: more)) := by
    have hmore : Forms true (fun _ => Sound) (commaTail .rightBrace (expr g)) :=
      .list (.commaTail ((forms_expr hg).imp fun _ _ h => h.sound))
    refine .bind (forms_expr hg) fun first => .bind hmore fun more => .value fun _ hmore hfirst => ?_
    exact ⟨List.cons_ne_nil first more, sound_cons.2 ⟨hfirst.sound, hmore⟩⟩
  refine .require (.require (.bind (.enclosed helems) fun elems => .value fun _ h => ?_))
  exact ⟨h.1, nofun, nofun, h.2, ⟨nofun, nofun⟩, nofun⟩

theorem forms_scopeExpr (hg : g.Form) : Forms true Context.FitsKind (scopeExpr g) := by
  refine .require (.query fun block => ?_)
  split
  · exact .bind hg.block fun block => .value fun _ h =>
      ⟨trivial, nofun, nofun, h, ⟨nofun, nofun⟩, nofun⟩
  · refine .acceptIf fun dot => ?_
    split
    · refine .acceptIf fun launch => ?_
      split
      · exact .bind hg.block fun block => .value fun _ h =>
          ⟨trivial, nofun, nofun, h, ⟨nofun, nofun⟩, nofun⟩
      · refine .acceptIf fun cancel => ?_
        split
        · exact .require (.require (.value fun _ => .leaf rfl))
        · refine .acceptIf fun cancelled => ?_
          split
          · exact .require (.require (.value fun _ => .leaf rfl))
          · exact .expected _
    · exact .expected _

/-! ## Operands and operators -/

theorem forms_single {kind : ExprKind} (h : kind.isLeaf = true) :
    Forms loud Context.FitsKind (Parser.single kind) :=
  .advance (.value fun _ => .leaf h)

/-- What an operator or a keyword before an expression makes of it. -/
theorem forms_applied {operand : Parser Expr} {make : Expr → ExprKind}
    (hmake : ∀ (c : Context) (e : Expr), c.Fits e → c.FitsKind (make e))
    (h : Forms loud Context.Fits operand) : Forms loud Context.FitsKind (applied operand make) :=
  .advance (.bind h fun e => .value fun c he => hmake c e he)

theorem forms_operand (hg : g.Form) : Forms true Context.Fits (operand g) := by
  have hleaf {kind : ExprKind} (h : kind.isLeaf = true) :
      Forms true Context.Fits (asExpr (Parser.single kind)) := forms_asExpr (forms_single h)
  have hunary (op : UnaryOp) : Forms true Context.Fits (asExpr (applied (g.expr unaryPower) (.unary op))) :=
    forms_asExpr (forms_applied (fun _ _ h =>
      ⟨trivial, nofun, nofun, h.sound, ⟨nofun, nofun⟩, List.forall_mem_singleton.2 h.permits⟩) (hg.expr _))
  refine .kindAt fun k => ?_
  split
  · exact .of_forms (forms_asExpr (forms_integerOrDuration _))
  · exact .of_forms (hleaf rfl)
  · exact .of_forms (hleaf rfl)
  · exact forms_interpolatedString hg _
  · exact .of_forms (hleaf rfl)
  · exact .of_forms (hleaf rfl)
  · exact .of_forms (hleaf rfl)
  · exact .of_forms (hleaf rfl)
  · exact .of_forms (forms_asExpr (forms_pathExpr hg))
  · exact .of_forms (forms_asExpr (forms_parenOrLambda hg))
  · exact .of_forms (forms_asExpr (forms_arrayExpr hg))
  · exact .of_forms (forms_blockExpr hg)
  · exact .of_forms (hunary _)
  · exact .of_forms (hunary _)
  · refine .of_forms (forms_asExpr (forms_applied (fun _ _ h => ?_) (hg.expr _)))
    exact ⟨trivial, nofun, nofun, h.sound, ⟨nofun, nofun⟩, List.forall_mem_singleton.2 h.permits⟩
  · refine .of_forms (forms_asExpr (forms_applied (fun _ _ h => ?_) (hg.expr _)))
    exact ⟨trivial, nofun, nofun, h.sound, ⟨nofun, nofun⟩, List.forall_mem_singleton.2 h.permits⟩
  · exact .of_forms (forms_ifExpr hg)
  · exact .of_forms (forms_asExpr (forms_matchExpr hg))
  · exact forms_moveLambda hg
  · exact .of_forms (forms_asExpr (forms_spawnExpr hg))
  · exact .of_forms (forms_asExpr (forms_selectExpr hg _))
  · exact .of_forms (forms_asExpr (forms_selectExpr hg _))
  · exact .of_forms (forms_asExpr (forms_joinExpr hg))
  · exact .of_forms (forms_asExpr (forms_scopeExpr hg))
  · exact .of_forms (forms_asExpr (forms_tryExpr hg))
  · refine .of_forms (forms_asExpr (.advance (.bind hg.block fun block => .value fun _ h => ?_)))
    exact ⟨trivial, nofun, nofun, h, ⟨nofun, nofun⟩, nofun⟩
  · exact .of_forms (.expected _)

/-- A field of an expression. -/
theorem fitsKind_field {object : Expr} {field : String} (h : c.Fits object) :
    c.FitsKind (.field object field) :=
  ⟨trivial, nofun, nofun, h.sound, ⟨nofun, nofun⟩, List.forall_mem_singleton.2 h.permits⟩

theorem forms_indexPair (object : Expr) :
    Forms loud (fun c e => c.Fits object → c.Fits e) (indexPair object) := by
  refine .span fun token => .query fun text => .advance (.pass .freshId fun id => ?_)
  exact .node fun _ id span h => (fitsKind_field (fitsKind_field h).fits).fits

theorem forms_member (hg : g.Form) (object : Expr) :
    Forms true (fun c e => c.Fits object → c.Fits e) (member g object) := by
  refine .kind fun k => ?_
  split
  · refine .advance (.query fun call => ?_)
    split
    · refine .bind (forms_args hg) fun args => .node fun _ id span hargs h => ?_
      exact Context.FitsKind.fits ⟨trivial, nofun, nofun, allSound_append.2 ⟨h.sound, hargs⟩,
        ⟨nofun, nofun⟩, List.forall_mem_singleton.2 h.permits⟩
    · exact .node fun _ id span h => (fitsKind_field h).fits
  · exact .query fun field => .advance (.node fun _ id span h => (fitsKind_field h).fits)
  · exact forms_indexPair object
  · exact .expected _

theorem forms_continuation (hg : g.Form) (left : Expr) :
    Forms true (fun c e => c.Fits left → c.Fits e) (continuation g left) := by
  refine .kind fun k => ?_
  split
  · refine .bind (forms_args hg) fun args => .node fun _ id span hargs h => ?_
    exact Context.FitsKind.fits ⟨trivial, nofun, nofun, allSound_append.2 ⟨h.sound, hargs⟩,
      ⟨nofun, nofun⟩, List.forall_mem_singleton.2 h.permits⟩
  · refine .advance (.bind (.enclosed (forms_expr hg)) fun index => .require ?_)
    refine .node fun _ id span hindex h => ?_
    exact Context.FitsKind.fits ⟨trivial, nofun, nofun, allSound_append.2 ⟨h.sound, hindex.sound⟩,
      ⟨nofun, nofun⟩, List.forall_mem_singleton.2 h.permits⟩
  · refine .advance (.node fun _ id span h => ?_)
    exact Context.FitsKind.fits ⟨trivial, nofun, nofun, h.sound, ⟨nofun, nofun⟩,
      List.forall_mem_singleton.2 h.permits⟩
  · exact .advance (forms_member hg left)
  · exact .expected _

theorem fitsKind_apply {op : OperatorToken} {left right : Expr} (hleft : c.Fits left)
    (hright : c.Fits right) : c.FitsKind (op.apply left right) := by
  have hcontents : AllSound (components left ++ components right) :=
    allSound_append.2 ⟨hleft.sound, hright.sound⟩
  have hbare : ∀ e ∈ [left, right], c.Permits e :=
    List.forall_mem_cons.2 ⟨hleft.permits, List.forall_mem_singleton.2 hright.permits⟩
  cases op with
  | binary op => exact ⟨trivial, nofun, nofun, hcontents, ⟨nofun, nofun⟩, hbare⟩
  | range inclusive => exact ⟨trivial, nofun, nofun, hcontents, ⟨nofun, nofun⟩, hbare⟩

theorem forms_operation (hg : g.Form) (op : OperatorToken) (left : Expr) :
    Forms true (fun c e => c.Fits left → c.Fits e) (operation g op left) :=
  .advance (.bind (hg.expr _) fun _ => .pass .freshId fun _ => .value fun _ hright hleft =>
    (fitsKind_apply hleft hright).fits)

theorem forms_extend (hg : g.Form) (minPower : Nat) (left : Expr) :
    Forms true (fun c r => c.Fits left → c.Fits r.2) (extend g minPower left) := by
  refine .kind fun token => ?_
  split
  · split
    · exact .value fun _ => id
    · exact .bind (forms_continuation hg left) fun e => .value fun _ => id
  · split
    · split
      · exact .value fun _ => id
      · exact .bind (forms_operation hg _ left) fun e => .value fun _ => id
    · exact .value fun _ => id

theorem forms_exprRule (hg : g.Form) (minPower : Nat) : Forms true Context.Fits (exprRule g minPower) :=
  .bind (forms_operand hg) fun _ => .turns (forms_extend hg minPower)

/-! ## Expressions that end in a block -/

/-- The form is one of those that end in a block. -/
def EndsInBlock (kind : ExprKind) : Prop := ∀ id span, Expr.isBlockLike ⟨id, span, kind⟩ = true

theorem isBlockLike_asExpr {kind : Parser ExprKind} (h : Always EndsInBlock kind) :
    Always (fun e => e.isBlockLike = true) (asExpr kind) :=
  fun e he => always_asExpr h e he e.id e.span

theorem isBlockLike_ifExpr : Always (fun e => e.isBlockLike = true) (ifExpr g) :=
  .last fun _ => .last fun _ => .last fun _ => .last fun _ => .last fun _ => .value rfl

theorem endsInBlock_matchExpr : Always EndsInBlock (matchExpr g) :=
  .last fun _ => .last fun _ => .last fun _ => .last fun _ => .last fun _ => .value fun _ _ => rfl

theorem endsInBlock_tryExpr : Always EndsInBlock (tryExpr g) := by
  refine .last fun _ => .last fun _ => .last fun caught => ?_
  split
  · exact .last fun _ => .last fun _ => .last fun _ => .last fun _ => .last fun _ => .value fun _ _ => rfl
  · exact .value fun _ _ => rfl

theorem endsInBlock_selectExpr (kind : SelectKind) : Always EndsInBlock (selectExpr g kind) :=
  .last fun _ => .last fun _ => .last fun _ => .last fun _ => .value fun _ _ => rfl

theorem endsInBlock_joinExpr : Always EndsInBlock (joinExpr g) :=
  .last fun _ => .last fun _ => .last fun _ => .value fun _ _ => rfl

/-- A `scope` that may stand as a statement has a block. -/
theorem endsInBlock_scopeExpr {setting : Setting} {s after : State} {kind : ExprKind}
    (hscope : s.kind = .keyword .scopeKw) (hstarts : startsBlockLike s = true)
    (hreply : scopeExpr g setting s = .ok kind after) : EndsInBlock kind := by
  have hkeyword : expectKeyword .scopeKw setting s = .ok () s.advance := by
    rw [expectKeyword, require_eq, if_pos (by rw [hscope]; rfl)]
  rw [scopeExpr, bind_ok hkeyword, sees, query_bind, kind_advance] at hreply
  simp only [startsBlockLike, hscope] at hstarts
  split at hstarts
  case h_1 hbrace =>
    rw [hbrace, if_pos (by rfl)] at hreply
    obtain ⟨block, s₁, -, hkind⟩ := bind_eq_ok_iff.1 hreply
    cases hkind
    exact fun _ _ => rfl
  case h_2 hdot =>
    have haccept : accept .dot setting s.advance = .ok true s.advance.advance := by
      rw [accept, acceptIf_eq, if_pos (by rw [kind_advance, hdot]; rfl)]
    have hlaunch : acceptWord "launch" setting s.advance.advance = .ok true s.advance.advance.advance := by
      rw [acceptWord, acceptIf_eq, if_pos (by rw [kind_advance, peek_advance]; exact hstarts)]
    rw [hdot, if_neg (by decide), bind_ok haccept, if_pos rfl, bind_ok hlaunch, if_pos rfl] at hreply
    obtain ⟨block, s₁, -, hkind⟩ := bind_eq_ok_iff.1 hreply
    cases hkind
    exact fun _ _ => rfl
  case h_3 => cases hstarts

theorem isBlockLike_operand {setting : Setting} {s after : State} {e : Expr}
    (hstarts : startsBlockLike s = true) (hreply : operand g setting s = .ok e after) :
    e.isBlockLike = true := by
  have halways {kind : Parser ExprKind} (h : Always EndsInBlock kind)
      (hreply : asExpr kind setting s = .ok e after) : e.isBlockLike = true :=
    isBlockLike_asExpr h e ⟨setting, s, after, hreply⟩
  rw [operand, kind_bind] at hreply
  cases hkind : s.kind with
  | keyword k =>
    rw [hkind] at hreply
    cases k with
    | ifKw => exact isBlockLike_ifExpr e ⟨setting, s, after, hreply⟩
    | matchKw => exact halways endsInBlock_matchExpr hreply
    | selectKw => exact halways (endsInBlock_selectExpr _) hreply
    | raceKw => exact halways (endsInBlock_selectExpr _) hreply
    | joinKw => exact halways endsInBlock_joinExpr hreply
    | tryKw => exact halways endsInBlock_tryExpr hreply
    | unsafeKw => exact halways (.last fun _ => .last fun _ => .value fun _ _ => rfl) hreply
    | scopeKw =>
      change asExpr (scopeExpr g) setting s = _ at hreply
      rw [asExpr, start_bind] at hreply
      obtain ⟨kind, s₁, hscope, hnode⟩ := bind_eq_ok_iff.1 hreply
      cases hnode
      exact endsInBlock_scopeExpr hkind hstarts hscope _ _
    | _ => simp [startsBlockLike, hkind] at hstarts
  | _ => simp [startsBlockLike, hkind] at hstarts

end Parser

end ActorFrontend
