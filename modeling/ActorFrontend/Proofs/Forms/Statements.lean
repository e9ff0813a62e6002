import ActorFrontend.Proofs.Forms.Expressions
import ActorFrontend.Proofs.Nesting.Statements

/-!
# Statements and blocks are sound

An expression without a semicolon that does not end in a block is read only before the closing brace.
So no statement follows it, whatever is left out behind it.
-/

namespace ActorFrontend

variable {g : Rules} {loud : Bool} {c : Context}

namespace Parser

open Forms
open Makes (keeps_acceptIf keeps_require keeps_valueOf)

/-! ## Statements -/

theorem forms_valueBeforeEnd (hg : g.Form) : Forms true (fun _ => Sound) (valueBeforeEnd g) :=
  .option (.optional (.query _) ((forms_expr hg).imp fun _ _ h => h.sound))

theorem forms_letStmt (hg : g.Form) : Forms true (fun _ => StmtKind.Fits) (letStmt g) := by
  refine .require (.bind hg.pattern.louder fun pattern => ?_)
  refine .bind (forms_typeAfterColon hg).louder fun type => .require ?_
  refine .bind (forms_expr hg) fun init => .semicolon (.value fun _ hinit htype hpattern => ?_)
  exact ⟨nofun, allSound_append.2 ⟨allSound_append.2 ⟨hpattern, htype⟩, hinit.sound⟩⟩

theorem forms_varStmt (hg : g.Form) : Forms true (fun _ => StmtKind.Fits) (varStmt g) := by
  refine .require (.valueOf fun name => .bind (forms_typeAfterColon hg).louder fun type => .require ?_)
  refine .bind (forms_expr hg) fun init => .semicolon (.value fun _ hinit htype => ?_)
  exact ⟨nofun, allSound_append.2 ⟨htype, hinit.sound⟩⟩

theorem forms_forStmt (hg : g.Form) (label : Option String) :
    Forms true (fun _ => StmtKind.Fits) (forStmt g label) := by
  refine .require (.acceptIf fun isAwait => .bind hg.pattern.louder fun pattern => .require ?_)
  refine .bind (forms_condition hg) fun iter => .bind hg.block fun body => ?_
  refine .value fun _ hbody hiter hpattern => ⟨List.forall_mem_singleton.2 hiter.clear, ?_⟩
  exact allSound_append.2 ⟨allSound_append.2 ⟨hpattern, hiter.fits.sound⟩, hbody⟩

theorem forms_whileStmt (hg : g.Form) (label : Option String) :
    Forms true (fun _ => StmtKind.Fits) (whileStmt g label) := by
  refine .advance (.bind (forms_condition hg) fun cond => .bind hg.block fun body => ?_)
  refine .value fun _ hbody hcond => ⟨List.forall_mem_singleton.2 hcond.clear, ?_⟩
  exact allSound_append.2 ⟨hcond.fits.sound, hbody⟩

theorem forms_loopStmt (hg : g.Form) (label : Option String) :
    Forms true (fun _ => StmtKind.Fits) (loopStmt g label) :=
  .advance (.bind hg.block fun _ => .value fun _ h => ⟨nofun, h⟩)

theorem forms_breakStmt (hg : g.Form) : Forms true (fun _ => StmtKind.Fits) (breakStmt g) :=
  .advance (.pass keeps_label? fun _ => .bind (forms_valueBeforeEnd hg) fun _ =>
    .semicolon (.value fun _ h => ⟨nofun, h⟩))

theorem forms_continueStmt : Forms true (fun _ => StmtKind.Fits) continueStmt :=
  .advance (.pass keeps_label? fun _ => .semicolon (.value fun _ => ⟨nofun, allSound_nil⟩))

theorem forms_returnStmt (hg : g.Form) : Forms true (fun _ => StmtKind.Fits) (returnStmt g) :=
  .advance (.bind (forms_valueBeforeEnd hg) fun _ => .semicolon (.value fun _ h => ⟨nofun, h⟩))

theorem forms_blockLikeStmt (hg : g.Form) : Forms true (fun _ => StmtKind.Fits) (blockLikeStmt g) :=
  .bind hg.blockLike fun _ => .acceptIf fun _ => .value fun _ h => ⟨nofun, h⟩

theorem forms_exprStmt (hg : g.Form) : Forms true (fun _ => StmtKind.Fits) (exprStmt g) := by
  refine .bind (forms_expr hg) fun e => .kind fun k => ?_
  split
  · refine .advance (.bind (forms_expr hg) fun value => .semicolon (.value fun _ hvalue he => ?_))
    exact ⟨nofun, allSound_append.2 ⟨he.sound, hvalue.sound⟩⟩
  · refine .acceptIf fun ended => ?_
    split
    · exact .value fun _ he => ⟨nofun, he.sound⟩
    · refine .query fun value => ?_
      split
      · exact .value fun _ he => ⟨nofun, he.sound⟩
      · exact .semicolon (.value fun _ he => ⟨nofun, he.sound⟩)

theorem forms_stmtKind (hg : g.Form) (label : Option String) :
    Forms true (fun _ => StmtKind.Fits) (stmtKind g label) := by
  refine .kind fun k => ?_
  split
  · exact forms_letStmt hg
  · exact forms_varStmt hg
  · exact forms_forStmt hg label
  · exact forms_whileStmt hg label
  · exact forms_loopStmt hg label
  · exact forms_breakStmt hg
  · exact forms_continueStmt
  · exact forms_returnStmt hg
  · exact .bind hg.block fun block => .value fun _ h => ⟨nofun, h⟩
  · refine .query fun blockLike => ?_
    split
    · exact forms_blockLikeStmt hg
    · exact forms_exprStmt hg

theorem forms_stmt (hg : g.Form) : Forms true (fun _ => Sound) (stmt g) :=
  .start fun _ => .pass keeps_loopLabel fun label => .bind (forms_stmtKind hg label) fun _ =>
    .node fun _ _ _ => sound_stmt

/-! ## Open statements -/

/-- Where the statement that is read is open, the closing brace follows. -/
def ClosesOpen (p : Parser StmtKind) : Prop :=
  ∀ setting s kind after, p setting s = .ok kind after → kind.isOpen = true →
    after.kind.isSymbol .rightBrace = true

theorem ClosesOpen.of_always {p : Parser StmtKind} (h : Always (fun kind => kind.isOpen = false) p) :
    ClosesOpen p := by
  intro setting s kind after hreply hopen
  rw [h kind ⟨setting, s, after, hreply⟩] at hopen
  cases hopen

theorem ClosesOpen.kind {q : TokenKind → Parser StmtKind} (hq : ∀ k, ClosesOpen (q k)) :
    ClosesOpen (Parser.kind >>= q) :=
  fun setting s kind after hreply => hq s.kind setting s kind after hreply

theorem closesOpen_exprStmt : ClosesOpen (exprStmt g) := by
  intro setting s kind after hreply hopen
  obtain ⟨e, s₁, -, hrest⟩ := bind_eq_ok_iff.1 hreply
  rw [kind_bind] at hrest
  cases hassign : assignOp? s₁.kind with
  | some op =>
    rw [hassign] at hrest
    obtain ⟨_, s₂, -, hrest⟩ := bind_eq_ok_iff.1 hrest
    obtain ⟨value, s₃, -, hrest⟩ := bind_eq_ok_iff.1 hrest
    obtain ⟨_, s₄, -, hkind⟩ := bind_eq_ok_iff.1 hrest
    cases hkind
    cases hopen
  | none =>
    rw [hassign] at hrest
    obtain ⟨ended, s₂, -, hrest⟩ := bind_eq_ok_iff.1 hrest
    split at hrest
    · cases hrest
      cases hopen
    · rw [query_bind] at hrest
      split at hrest
      case isTrue hends =>
        cases hrest
        have hplain : e.isBlockLike = false := by simpa [StmtKind.isOpen] using hopen
        simpa [hplain] using hends
      case isFalse =>
        obtain ⟨_, s₃, -, hkind⟩ := bind_eq_ok_iff.1 hrest
        cases hkind
        cases hopen

theorem closed_blockLikeStmt (hg : g.Form) {setting : Setting} {s after : State} {kind : StmtKind}
    (hstarts : startsBlockLike s = true) (hreply : blockLikeStmt g setting s = .ok kind after) :
    kind.isOpen = false := by
  obtain ⟨e, s₁, he, hrest⟩ := bind_eq_ok_iff.1 hreply
  obtain ⟨ended, s₂, -, hkind⟩ := bind_eq_ok_iff.1 hrest
  cases hkind
  have hblockLike : e.isBlockLike = true := hg.endsInBlock setting s e s₁ hstarts he
  simp [StmtKind.isOpen, hblockLike]

theorem closesOpen_stmtKind (hg : g.Form) (label : Option String) : ClosesOpen (stmtKind g label) := by
  refine .kind fun k => ?_
  split
  · exact .of_always (.last fun _ => .last fun _ => .last fun _ => .last fun _ => .last fun _ =>
      .last fun _ => .value rfl)
  · exact .of_always (.last fun _ => .last fun _ => .last fun _ => .last fun _ => .last fun _ =>
      .last fun _ => .value rfl)
  · exact .of_always (.last fun _ => .last fun _ => .last fun _ => .last fun _ => .last fun _ =>
      .last fun _ => .value rfl)
  · exact .of_always (.last fun _ => .last fun _ => .last fun _ => .value rfl)
  · exact .of_always (.last fun _ => .last fun _ => .value rfl)
  · exact .of_always (.last fun _ => .last fun _ => .last fun _ => .last fun _ => .value rfl)
  · exact .of_always (.last fun _ => .last fun _ => .last fun _ => .value rfl)
  · exact .of_always (.last fun _ => .last fun _ => .last fun _ => .value rfl)
  · exact .of_always (.last fun _ => .value rfl)
  · intro setting s kind after hreply hopen
    rw [query_bind] at hreply
    split at hreply
    case isTrue hstarts =>
      rw [closed_blockLikeStmt hg hstarts hreply] at hopen
      cases hopen
    case isFalse => exact closesOpen_exprStmt setting s kind after hreply hopen

theorem closes_stmt (hg : g.Form) {setting : Setting} {s after : State} {st : Stmt}
    (hreply : stmt g setting s = .ok st after) (hopen : st.kind.isOpen = true) :
    after.kind.isSymbol .rightBrace = true := by
  rw [stmt, start_bind] at hreply
  obtain ⟨label, s₁, -, hrest⟩ := bind_eq_ok_iff.1 hreply
  obtain ⟨kind, s₂, hkind, hnode⟩ := bind_eq_ok_iff.1 hrest
  cases hnode
  exact closesOpen_stmtKind hg label _ _ kind s₂ hkind hopen

/-! ## Blocks -/

/-- What has been read of a block, the last statement first: a statement that is open is the last
one. -/
structure FitStmts (stmts : List Stmt) : Prop where
  sound : Sound stmts
  closed : ∀ st ∈ stmts.tail, st.kind.isOpen = false

/-- Behind an open statement the closing brace follows. -/
structure FitStmtsAt (stmts : List Stmt) (s : State) : Prop where
  fit : FitStmts stmts
  head : ∀ st, stmts.head? = some st → st.kind.isOpen = true → s.kind.isSymbol .rightBrace = true
  texts : s.SetsTextsApart

/-- Where a statement starts, all those before are closed. -/
theorem FitStmtsAt.allClosed {stmts : List Stmt} {s : State} (h : FitStmtsAt stmts s)
    (hmore : s.kind.isSymbol .rightBrace = false) : ∀ st ∈ stmts, st.kind.isOpen = false := by
  intro st hst
  cases stmts with
  | nil => cases hst
  | cons first stmts =>
    obtain rfl | hst := List.mem_cons.1 hst
    · by_contra hopen
      rw [h.head st rfl (by simpa using hopen)] at hmore
      cases hmore
    · exact h.fit.closed st hst

/-- One statement, added to those read before. -/
def stmtPart (g : Rules) (stmts : List Stmt) : Parser (List Stmt) := do
  let next ← stmt g
  pure (next :: stmts)

theorem keeps_stmtPart (hg : g.Form) (stmts : List Stmt) : (stmtPart g stmts).Keeps true :=
  (Forms.found (forms_stmt hg) stmts).keeps

/-- Where it does not stop, the next statement is read behind statements that are closed, or is left
out. -/
theorem fitStmtsAt_resilient (hg : g.Form) {setting : Setting} {s after : State}
    {stmts : List Stmt} {r : Bool × List Stmt} (hs : FitStmtsAt stmts s)
    (hmore : s.kind.isSymbol .rightBrace = false)
    (hreply : resilient .statements (stmtPart g) stmts setting s = .ok r after) : FitStmtsAt r.2 after := by
  have hclosed := hs.allClosed hmore
  have hkept : s.Kept true after := by
    have h := @Keeps.resilient _ .statements (stmtPart g) stmts (keeps_stmtPart hg stmts) setting s
    rw [hreply] at h
    exact h
  have hsame : FitStmtsAt stmts after := by
    refine ⟨hs.fit, fun st hst hopen => ?_, hs.texts.kept hkept⟩
    rw [hclosed st (List.mem_of_head? hst)] at hopen
    cases hopen
  unfold resilient at hreply
  split at hreply
  · cases hreply
    exact hsame
  · cases hpart : stmtPart g stmts setting s with
    | ok b after' =>
      rw [hpart] at hreply
      cases hreply
      obtain ⟨next, s₁, hnext, hcons⟩ := bind_eq_ok_iff.1 hpart
      cases hcons
      have hsound : Sound next := (forms_stmt hg).forms setting s next _ hs.texts hnext
      refine ⟨⟨sound_cons.2 ⟨hsound, hs.fit.sound⟩, hclosed⟩, fun st hst hopen => ?_, hs.texts.kept hkept⟩
      obtain rfl := Option.some.inj hst
      exact closes_stmt hg hnext hopen
    | fail e after' =>
      rw [hpart] at hreply
      simp only at hreply
      split at hreply <;> cases hreply <;> exact hsame

/-- One turn in the reading of a block. -/
def stmtTurn (g : Rules) (stmts : List Stmt) : Parser (Bool × List Stmt) := do
  if ← atBodyEnd then pure (false, stmts) else resilient .statements (stmtPart g) stmts

theorem forms_stmts (hg : g.Form) :
    Forms true (fun _ => FitStmts) (bodyParts .statements (stmtPart g) []) := by
  have hparts : Forms true (fun _ (stmts : List Stmt) => ∀ st ∈ stmts, Sound st)
      (bodyParts .statements (stmtPart g) []) :=
    .bodyParts (fun stmts => .found (forms_stmt hg) stmts) fun _ => nofun
  refine ⟨hparts.keeps, fun setting s stmts after hs hreply => ?_⟩
  have hturn (stmts : List Stmt) (s : State) (h : FitStmtsAt stmts s) :
      (stmtTurn g stmts setting s).Ends (fun r s' => FitStmtsAt r.2 s') fun _ => True := by
    rw [stmtTurn, atBodyEnd, query_bind]
    split
    case isTrue => exact h
    case isFalse hmore =>
      rw [Bool.not_eq_true, Bool.or_eq_false_iff] at hmore
      cases hturn : resilient .statements (stmtPart g) stmts setting s with
      | ok r s' => exact fitStmtsAt_resilient hg h hmore.1 hturn
      | fail e s' => trivial
  have hends := ends_loop FitStmtsAt hturn ⟨⟨sound_nil, nofun⟩, nofun, hs⟩
  change loop (stmtTurn g) [] setting s = _ at hreply
  rw [hreply] at hends
  exact hends.fit

theorem forms_blockRule (hg : g.Form) : Forms true (fun _ => Sound) (blockRule g) := by
  refine .start fun start => .require (.bind (.enclosed (forms_stmts hg)) fun stmts => .require ?_)
  refine .spanFrom fun span => .value fun _ h => sound_block (fun st hst => ?_) (sound_reverse.2 h.sound)
  rw [List.dropLast_reverse, List.mem_reverse] at hst
  exact h.closed st hst

end Parser

/-- The rules of the grammar form sound parts, and expressions that fit their contexts. -/
theorem Rules.form_within (levels : Nat) : (Rules.within levels).Form := by
  induction levels with
  | zero =>
    exact
      { type := .fails
        pattern := .fails
        expr _ := .fails
        block := .fails
        blockLike := .fails
        endsInBlock _ _ _ _ _ hreply := nomatch hreply }
  | succ levels hg =>
    exact
      { type := .nested (Parser.forms_typeRule hg)
        pattern := .nested (Parser.forms_patternRule hg)
        expr minPower := .nested (Parser.forms_exprRule hg minPower)
        block := .nested (Parser.forms_blockRule hg)
        blockLike := (Parser.Forms.nested (Parser.forms_operand hg)).imp fun _ _ h => h.sound
        endsInBlock := by
          intro setting s e after hstarts hreply
          change Parser.nested (Parser.operand (within levels)) setting s = _ at hreply
          unfold Parser.nested at hreply
          split at hreply
          · cases hreply
          · obtain ⟨inner, hinner, -⟩ := Parser.mapState_eq_ok_iff.1 hreply
            have hwithin : Parser.startsBlockLike { s with depth := s.depth + 1 } = true := hstarts
            exact Parser.isBlockLike_operand hwithin hinner }

end ActorFrontend
