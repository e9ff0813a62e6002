import ActorFrontend.Proofs.Alike.Expressions
import ActorFrontend.Proofs.Nesting.Types

/-!
# What nests in expressions
-/

namespace ActorFrontend

variable {R : Regime} {n : Nat} {g : Rules} {loud : Bool}

namespace Parser

open Makes

instance : Shelled OpenIf := ⟨fun head => shells head.cond ++ shells head.thenBranch⟩

@[simp] theorem shells_openIf (head : OpenIf) :
    shells head = shells head.cond ++ shells head.thenBranch := rfl

theorem makes_expr (hg : g.Make R n) : Makes R true (R.Good n) (expr g) := hg.expr 0

theorem makes_exprNode {start : Nat} {kind : ExprKind} (h : R.All n kind.shells) :
    Makes R loud (R.Good n) (exprNode start kind) := .node fun _ _ => h

theorem makes_asExpr {kind : Parser ExprKind} (h : Makes R loud (fun kind => R.All n kind.shells) kind) :
    Makes R loud (R.Good n) (asExpr kind) :=
  .start fun _ => .bind h fun _ => .node fun _ _ => id

/-! ## Expressions in special contexts -/

theorem makes_condition (hg : g.Make R n) : Makes R true (R.Good n) (condition g) :=
  Makes.inContext (f := fun context => { context with structLiterals := false }) (makes_expr hg)

theorem makes_armHead (hg : g.Make R n) : Makes R true (R.Good n) (armHead g) :=
  Makes.inContext (f := fun context => { context with lambdas := false }) (makes_expr hg)

theorem makes_blockExpr (hg : g.Make R n) : Makes R true (R.Good n) (blockExpr g) :=
  makes_asExpr (.bind hg.block fun _ => .value id)

theorem makes_armBody (hg : g.Make R n) : Makes R true (R.Good n) (armBody g) := by
  refine .query fun block => ?_
  split
  · exact makes_blockExpr hg
  · exact makes_expr hg

theorem makes_exprList (hg : g.Make R n) (close : Symbol) :
    Makes R true (R.Good n) (commaList close (expr g)) := .commaList (makes_expr hg)

theorem makes_args (hg : g.Make R n) : Makes R true (R.Good n) (args g) :=
  .require (.enclosed (makes_exprList hg _))

/-! ## Literals -/

theorem makes_integerOrDuration (value : UInt64) :
    Makes R loud (fun kind : ExprKind => R.All n kind.shells) (integerOrDuration value) := by
  refine .advance (.pass .durationUnit? fun unit => ?_)
  cases unit with
  | some unit => exact .advance (.value Regime.all_nil)
  | none => exact .value Regime.all_nil

/-- The splices of a known string. -/
theorem makes_stringParts (hg : g.Make R n) {t : Token} (ht : R.known t) {fragments : List Fragment}
    (hfragments : ∀ tokens span, .splice tokens span ∈ fragments → t.HasSplice tokens span) :
    Makes R true (R.Good n) (stringParts g fragments) := by
  induction fragments with
  | nil => exact .value Regime.all_nil
  | cons fragment fragments ih =>
    have ih := ih fun tokens span hmem => hfragments tokens span (List.mem_cons_of_mem _ hmem)
    cases fragment with
    | text value span => exact .bind ih fun more => .value fun h => by simpa using h
    | splice tokens span =>
      have hsplice := hg.splice t tokens span ht (hfragments tokens span List.mem_cons_self)
      refine .bind hsplice fun e => .bind ih fun more => .value fun hmore he => ?_
      simp_all

theorem makes_interpolatedString (hg : g.Make R n) {t : Token} (ht : R.known t)
    {fragments : List Fragment} (hkind : t.kind = .interpolated fragments) :
    Makes R true (fun kind : ExprKind => R.All n kind.shells) (interpolatedString g fragments) := by
  have hparts := makes_stringParts hg ht fun tokens span hmem => ⟨fragments, hkind, hmem⟩
  exact .advance (.bind hparts fun parts => .value fun h => by simpa using h)

/-! ## Names -/

theorem makes_fieldInit (hg : g.Make R n) : Makes R true (R.Good n) (fieldInit g) := by
  refine .start fun start => .span fun nameSpan => .valueOf fun name => .acceptIf fun given => ?_
  split
  · exact .bind (makes_expr hg) fun value => .spanFrom fun span => .value fun h => by simpa using h
  · exact .pass .freshId fun id => .spanFrom fun span => .value Regime.all_nil

theorem makes_pathExpr (hg : g.Make R n) :
    Makes R true (fun kind : ExprKind => R.All n kind.shells) (pathExpr g) := by
  refine .pass keeps_path fun path => .query fun fields => ?_
  split
  · refine .require (.bind (.enclosed (.commaList (makes_fieldInit hg))) fun fields => ?_)
    exact .value fun h => by simpa using h
  · split
    · exact .value Regime.all_nil
    · exact .value Regime.all_nil

/-! ## Brackets and lambdas -/

theorem makes_lambdaParam (hg : g.Make R n) : Makes R false (R.Good n) (lambdaParam g) := by
  refine .start fun start => .valueOf fun name => .bind (makes_typeAfterColon hg) fun type => ?_
  exact .spanFrom fun span => .value id

theorem makes_lambdaHead (hg : g.Make R n) : Makes R false (R.Good n) (lambdaHead g) := by
  refine .require (.bind (.commaList (makes_lambdaParam hg)) fun params => ?_)
  refine .bind (makes_resultType hg) fun ret => .require (.value fun hret hparams => ?_)
  simp_all

/-- A lambda of which the parts have been read. -/
theorem all_lambda (isMove : Bool) {params : List LambdaParam} {ret : Option TypeExpr} {body : Expr}
    (hhead : R.Good n (params, ret)) (hbody : R.Good n body) :
    R.All n (Lambda.shells ⟨isMove, params, ret, body⟩) := by
  simp_all

theorem makes_lambda (hg : g.Make R n) : Makes R true (R.Good n) (lambda g) := by
  refine .acceptIf fun isMove => .bind (makes_lambdaHead hg).louder fun head => ?_
  exact .bind (makes_expr hg) fun body => .value fun hbody hhead => all_lambda _ hhead hbody

/-- An expression in parentheses is one level deeper than what is in them. -/
theorem makes_parenOrTuple (hg : g.Make R n) :
    Makes R true (fun kind : ExprKind => R.All (n + 1) kind.shells) (parenOrTuple g) := by
  refine .advance (.enclosed (.acceptIf fun empty => ?_))
  split
  · exact .value Regime.all_nil
  · refine .bind (makes_expr hg) fun first => .acceptIf fun several => ?_
    split
    · refine .bind (makes_exprList hg _) fun more => .value fun hmore hfirst => ?_
      have hmore := Regime.All.succ hmore
      have hfirst := Regime.All.succ hfirst
      simp_all
    · exact .require (.value Regime.all_nest)

theorem makes_parenOrLambda (hg : g.Make R n) :
    Makes R true (fun kind : ExprKind => R.All (n + 1) kind.shells) (parenOrLambda g) := by
  refine .query fun lambdas => ?_
  split
  · have htrial : Makes R true (R.Good n) (attempt (lambdaHead g)) := by
      have hhead := makes_lambdaHead hg
      refine ⟨.attempt hhead.keeps, fun setting s found after hs hreply hquiet => ?_⟩
      cases hread : lambdaHead g setting s with
      | ok head after' =>
        rw [Keeps.attempt_of_ok hread] at hreply
        cases hreply
        simpa using hhead.makes setting s head _ hs hread hquiet
      | fail e after' =>
        rw [Keeps.attempt_of_fail hhead.keeps hread] at hreply
        cases hreply
        exact Regime.all_nil
    refine .bind htrial fun found => ?_
    cases found with
    | some head =>
      refine .bind (makes_expr hg) fun body => .value fun hbody hhead => ?_
      have hhead : R.Good n head := by simpa using hhead
      exact Regime.All.succ (all_lambda false hhead hbody)
    | none => exact (makes_parenOrTuple hg).imp fun _ h _ => h
  · exact makes_parenOrTuple hg

theorem makes_arrayExpr (hg : g.Make R n) :
    Makes R true (fun kind : ExprKind => R.All n kind.shells) (arrayExpr g) := by
  refine .require (.enclosed (.acceptIf fun empty => ?_))
  split
  · exact .value Regime.all_nil
  · refine .bind (makes_expr hg) fun first => .acceptIf fun repeated => ?_
    split
    · exact .bind (makes_expr hg) fun count => .require (.value fun hcount hfirst => by simp_all)
    · refine .bind (.commaTail (makes_expr hg)) fun more => .value fun hmore hfirst => ?_
      simp_all

/-! ## Control flow -/

theorem makes_ifHead (hg : g.Make R n) : Makes R true (R.Good n) (ifHead g) := by
  refine .start fun start => .require (.bind (makes_condition hg) fun cond => ?_)
  exact .bind hg.block fun body => .value fun hbody hcond => by simp_all

theorem all_ifElse {cond : Expr} {thenBranch : Block} {elseBranch : Option Expr}
    (hhead : R.All n (shells cond ++ shells thenBranch)) (helse : R.Good n elseBranch) :
    R.All n (ExprKind.ifElse cond thenBranch elseBranch).shells := by
  cases elseBranch <;> simp_all

theorem keeps_closeIfs (elseBranch : Option Expr) (heads : List OpenIf) :
    (closeIfs elseBranch heads).Keeps loud := by
  induction heads generalizing elseBranch with
  | nil => exact .pure _
  | cons head heads ih =>
    have hnode : (exprNode head.start (.ifElse head.cond head.thenBranch elseBranch)).Keeps loud :=
      .bind .freshId fun _ _ => .bind (.query _) fun _ _ => .pure _
    exact .bind hnode fun e _ => ih (some e)

theorem makes_closeIfs {elseBranch : Option Expr} {heads : List OpenIf} (helse : R.Good n elseBranch)
    (hheads : R.Good n heads) : Makes R loud (R.Good n) (closeIfs elseBranch heads) := by
  induction heads generalizing elseBranch with
  | nil => exact .value helse
  | cons head heads ih =>
    obtain ⟨hhead, hheads⟩ := Regime.all_append.1 hheads
    refine .bind (makes_exprNode (all_ifElse hhead helse)) fun e => ?_
    exact .assuming (keeps_closeIfs (some e) heads) fun he => ih (by simpa using he) hheads

/-- What has been read of a chain: its heads and the last `else` branch. -/
theorem makes_elseTurn (hg : g.Make R n) (chain : List OpenIf × Option Expr) :
    Makes R true (fun r => R.Good n chain → R.Good n r.2) (elseTurn g chain) := by
  refine .acceptIf fun found => ?_
  split
  · refine .query fun another => ?_
    split
    · refine .bind (makes_ifHead hg) fun next => .value fun hnext hchain => ?_
      have hheads : R.Good n chain.1 := (Regime.all_append.1 hchain).1
      simp_all
    · refine .bind (makes_blockExpr hg) fun e => .value fun he hchain => ?_
      have hheads : R.Good n chain.1 := (Regime.all_append.1 hchain).1
      simp_all
  · refine .value fun hchain => ?_
    have hheads : R.Good n chain.1 := (Regime.all_append.1 hchain).1
    simp_all

theorem makes_ifExpr (hg : g.Make R n) : Makes R true (R.Good n) (ifExpr g) := by
  refine .bind (makes_ifHead hg) fun first => ?_
  have hloop : Makes R true (R.Good n) (loop (elseTurn g) ([], none)) :=
    .loop (makes_elseTurn hg) Regime.all_nil
  refine .bind hloop fun chain => ?_
  obtain ⟨heads, elseBranch⟩ := chain
  have hkeeps : (closeIfs elseBranch heads >>= fun inner => exprNode first.start
      (.ifElse first.cond first.thenBranch inner)).Keeps true :=
    .bind (keeps_closeIfs _ _) fun _ _ => .bind .freshId fun _ _ => .bind (.query _) fun _ _ => .pure _
  refine .assuming hkeeps fun hchain => .assuming hkeeps fun hfirst => ?_
  obtain ⟨hheads, helse⟩ := Regime.all_append.1 hchain
  refine .bind (makes_closeIfs helse hheads) fun inner => .node fun id span hinner => ?_
  exact all_ifElse hfirst hinner

theorem makes_matchArm (hg : g.Make R n) : Makes R true (R.Good n) (matchArm g) := by
  refine .start fun start => .bind hg.pattern.louder fun pattern => ?_
  refine .bind (.optional (keeps_acceptIf _) (makes_armHead hg)) fun guard => .require ?_
  refine .bind (makes_armBody hg) fun body => .spanFrom fun span => .acceptIf fun _ => ?_
  refine .value fun hbody hguard hpattern => ?_
  cases guard <;> simp_all

theorem makes_matchExpr (hg : g.Make R n) :
    Makes R true (fun kind : ExprKind => R.All n kind.shells) (matchExpr g) := by
  refine .require (.bind (makes_condition hg) fun scrutinee => .require ?_)
  have harms : Makes R true (R.Good n) (enclosed (collect (matchTurn g))) := by
    refine .enclosed (.collect (.query fun ended => ?_))
    split
    · exact .value Regime.all_nil
    · exact .bind (makes_matchArm hg) fun arm => .value Regime.good_single
  exact .bind harms fun arms => .require (.value fun harms hscrutinee => by simp_all)

theorem makes_tryExpr (hg : g.Make R n) :
    Makes R true (fun kind : ExprKind => R.All n kind.shells) (tryExpr g) := by
  refine .require (.bind hg.block fun body => .query fun caught => ?_)
  split
  · have hbinding : (optional (query fun s => s.kind.isName) name).Keeps true := by
      refine .bind (.query _) fun found _ => ?_
      split
      · exact .bind (keeps_valueOf _ _) fun _ _ => .pure _
      · exact .pure _
    refine .start fun start => .advance (.pass hbinding fun binding => .bind hg.block fun handler => ?_)
    exact .spanFrom fun span => .value fun hhandler hbody => by simp_all
  · exact .value fun hbody => by simp_all

/-! ## Concurrency -/

theorem makes_spawnExpr (hg : g.Make R n) :
    Makes R true (fun kind : ExprKind => R.All n kind.shells) (spawnExpr g) := by
  refine .require (.query fun lambda => ?_)
  split
  · exact .bind (makes_lambda hg) fun lambda => .value id
  · refine .valueOf fun name => .bind (makes_typeArgs hg).louder fun typeArgs => ?_
    exact .bind (makes_args hg) fun args => .value fun hargs htypeArgs => by simp_all

theorem makes_selectArm (hg : g.Make R n) : Makes R true (R.Good n) (selectArm g) := by
  refine .start fun start => .valueOf fun binding => .require (.bind (makes_armHead hg) fun source => ?_)
  refine .require (.bind (makes_armBody hg) fun body => .spanFrom fun span => ?_)
  exact .value fun hbody hsource => by simp_all

theorem makes_timeoutArm (hg : g.Make R n) : Makes R true (R.Good n) (timeoutArm g) := by
  refine .start fun start => .advance (.bind (makes_armHead hg) fun duration => ?_)
  refine .require (.bind (makes_armBody hg) fun body => .spanFrom fun span => ?_)
  exact .value fun hbody hduration => by simp_all

theorem keeps_armSeparator : armSeparator.Keeps loud := by
  have h : Alike (⟨true, true, true⟩ : Likeness) loud false none .read .unread (fun _ _ => True) armSeparator
      armSeparator := alike_armSeparator
  exact h.keepAlike.left

theorem makes_anyArm (hg : g.Make R n) (arms : List SelectArm × Option TimeoutArm) :
    Makes R true (fun found => R.Good n arms → R.Good n found) (anyArm g arms) := by
  refine .query fun timeout => ?_
  split
  · refine .span fun keyword => .bind (makes_timeoutArm hg) fun arm => ?_
    obtain ⟨arms, first⟩ := arms
    cases first with
    | none => exact .value fun harm harms => by simp_all
    | some first => exact .pass (fun setting s => .record setting _ s) fun _ => .value fun _ harms => harms
  · refine .bind (makes_selectArm hg) fun arm => .value fun harm harms => ?_
    obtain ⟨harms, htimeout⟩ := Regime.all_append.1 harms
    simp_all

theorem makes_selectExpr (hg : g.Make R n) (kind : SelectKind) :
    Makes R true (fun kind : ExprKind => R.All n kind.shells) (selectExpr g kind) := by
  have harms : Makes R true (R.Good n) (enclosed (loop (selectTurn g) ([], none))) := by
    refine .enclosed (.loop (fun arms => .query fun ended => ?_) Regime.all_nil)
    split
    · exact .value id
    · exact .bind (makes_anyArm hg arms) fun found => .pass keeps_armSeparator fun _ => .value id
  refine .advance (.require (.bind harms fun found => .require (.value fun hfound => ?_)))
  obtain ⟨arms, timeout⟩ := found
  obtain ⟨harms, htimeout⟩ := Regime.all_append.1 hfound
  have harms := Regime.good_reverse harms
  cases timeout <;> simp_all

theorem makes_joinExpr (hg : g.Make R n) :
    Makes R true (fun kind : ExprKind => R.All n kind.shells) (joinExpr g) := by
  have helems : Makes R true (R.Good n) (enclosed do
      let first ← expr g
      let more ← commaTail .rightBrace (expr g)
      pure (first :: more)) := by
    refine .enclosed (.bind (makes_expr hg) fun first => .bind (.commaTail (makes_expr hg)) fun more => ?_)
    exact .value fun hmore hfirst => by simp_all
  exact .require (.require (.bind helems fun elems => .value fun h => by simpa using h))

theorem makes_scopeExpr (hg : g.Make R n) :
    Makes R true (fun kind : ExprKind => R.All n kind.shells) (scopeExpr g) := by
  refine .require (.query fun block => ?_)
  split
  · exact .bind hg.block fun block => .value id
  · refine .acceptIf fun dot => ?_
    split
    · refine .acceptIf fun launch => ?_
      split
      · exact .bind hg.block fun block => .value id
      · refine .acceptIf fun cancel => ?_
        split
        · exact .require (.require (.value Regime.all_nil))
        · refine .acceptIf fun cancelled => ?_
          split
          · exact .require (.require (.value Regime.all_nil))
          · exact .expected _
    · exact .expected _

/-! ## Operands and operators -/

theorem makes_single {kind : ExprKind} (h : kind.shells = []) :
    Makes R loud (fun kind : ExprKind => R.All n kind.shells) (Parser.single kind) :=
  .advance (.value (by simp [h]))

theorem makes_applied {operand : Parser Expr} {make : Expr → ExprKind}
    (hmake : ∀ e, (make e).shells = shells e) (h : Makes R loud (R.Good n) operand) :
    Makes R loud (fun kind : ExprKind => R.All n kind.shells) (applied operand make) :=
  .advance (.bind h fun e => .value fun he => by rw [hmake]; exact he)

theorem makes_operand (hg : g.Make R n) : Makes R true (R.Good (n + 1)) (operand g) := by
  have hg' := hg.succ
  have hasExpr {k : TokenKind} {kind : Parser ExprKind}
      (h : Makes R true (fun kind : ExprKind => R.All (n + 1) kind.shells) kind) :
      Makes R true (fun e => (k ≠ .endOfFile → ∃ t, R.known t ∧ t.kind = k) → R.Good (n + 1) e)
        (asExpr kind) := (makes_asExpr h).imp fun _ h _ => h
  refine .bind knownKind fun k => ?_
  split
  · exact hasExpr (makes_integerOrDuration _)
  · exact hasExpr (makes_single rfl)
  · exact hasExpr (makes_single rfl)
  · -- the string is known, and so are its splices
    rename_i fragments
    have hkeeps : (asExpr (interpolatedString g fragments)).Keeps true :=
      .bind (fun _ s => .refl s) fun start _ => .bind
        (keeps_interpolatedString g fragments)
        fun _ _ => .bind .freshId fun _ _ => .bind (.query _) fun _ _ => .pure _
    refine .assuming hkeeps fun hknown => ?_
    obtain ⟨t, ht, hkind⟩ := hknown nofun
    exact makes_asExpr (makes_interpolatedString hg' ht hkind)
  · exact hasExpr (makes_single rfl)
  · exact hasExpr (makes_single rfl)
  · exact hasExpr (makes_single rfl)
  · exact hasExpr (makes_single rfl)
  · exact hasExpr (makes_pathExpr hg')
  · exact hasExpr (makes_parenOrLambda hg)
  · exact hasExpr (makes_arrayExpr hg')
  · exact (makes_blockExpr hg').imp fun _ h _ => h
  · exact hasExpr (makes_applied (fun _ => rfl) (hg'.expr _))
  · exact hasExpr (makes_applied (fun _ => rfl) (hg'.expr _))
  · exact hasExpr (makes_applied (fun _ => rfl) (hg'.expr _))
  · exact hasExpr (makes_applied (fun _ => rfl) (hg'.expr _))
  · exact (makes_ifExpr hg').imp fun _ h _ => h
  · exact hasExpr (makes_matchExpr hg')
  · exact hasExpr (.bind (makes_lambda hg') fun lambda => .value id)
  · exact hasExpr (makes_spawnExpr hg')
  · exact hasExpr (makes_selectExpr hg' _)
  · exact hasExpr (makes_selectExpr hg' _)
  · exact hasExpr (makes_joinExpr hg')
  · exact hasExpr (makes_scopeExpr hg')
  · exact hasExpr (makes_tryExpr hg')
  · exact hasExpr (.advance (.bind hg'.block fun block => .value id))
  · exact .expected _

theorem makes_indexPair (object : Expr) :
    Makes R loud (fun e => R.Good n object → R.Good n e) (indexPair object) := by
  refine .span fun token => .query fun text => .advance (.pass .freshId fun id => ?_)
  exact .node fun id span h => by simpa using h

theorem makes_member (hg : g.Make R n) (object : Expr) :
    Makes R true (fun e => R.Good n object → R.Good n e) (member g object) := by
  refine .kind fun k => ?_
  split
  · refine .advance (.query fun call => ?_)
    split
    · exact .bind (makes_args hg) fun args => .node fun id span hargs hobject => by simp_all
    · exact .node fun id span h => by simpa using h
  · exact .query fun field => .advance (.node fun id span h => by simpa using h)
  · exact makes_indexPair object
  · exact .expected _

theorem makes_continuation (hg : g.Make R n) (left : Expr) :
    Makes R true (fun e => R.Good n left → R.Good n e) (continuation g left) := by
  refine .kind fun k => ?_
  split
  · exact .bind (makes_args hg) fun args => .node fun id span hargs hleft => by simp_all
  · refine .advance (.bind (.enclosed (makes_expr hg)) fun index => .require ?_)
    exact .node fun id span hindex hleft => by simp_all
  · exact .advance (.node fun id span h => by simpa using h)
  · exact .advance (makes_member hg left)
  · exact .expected _

theorem makes_operation (hg : g.Make R n) (op : OperatorToken) (left : Expr) :
    Makes R true (fun e => R.Good n left → R.Good n e) (operation g op left) := by
  refine .advance (.bind (hg.expr _) fun right => .pass .freshId fun id => .value fun hright hleft => ?_)
  cases op <;> simp_all [OperatorToken.apply]

theorem makes_extend (hg : g.Make R n) (minPower : Nat) (left : Expr) :
    Makes R true (fun r => R.Good n left → R.Good n r.2) (extend g minPower left) := by
  refine .kind fun token => ?_
  split
  · split
    · exact .value id
    · exact .bind (makes_continuation hg left) fun e => .value id
  · split
    · split
      · exact .value id
      · exact .bind (makes_operation hg _ left) fun e => .value id
    · exact .value id

theorem makes_exprRule (hg : g.Make R n) (minPower : Nat) :
    Makes R true (R.Good (n + 1)) (exprRule g minPower) := by
  refine .bind (makes_operand hg) fun first => ?_
  refine .assuming ?_ fun hfirst => .loop (makes_extend hg.succ minPower) hfirst
  have hturns : Makes R true (fun _ => True) (loop (extend g minPower) first) :=
    .loop (fun left => (makes_extend hg.succ minPower left).imp fun _ _ _ => trivial) trivial
  exact hturns.keeps

end Parser

end ActorFrontend
