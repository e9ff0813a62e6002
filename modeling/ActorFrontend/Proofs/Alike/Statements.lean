import ActorFrontend.Proofs.Alike.Expressions

/-!
# Statements and blocks go alike
-/

namespace ActorFrontend

variable {L : Comparison} {g g' : Rules} {loud inside : Bool} {hand : Hand} {φ χ : Footing}

theorem Expr.isBlockLike_eq {e e' : Expr} (h : Like L e e') : e.isBlockLike = e'.isBlockLike := by
  have hkept (r : Renaming) (e : Expr) : (e.relabel r).isBlockLike = e.isBlockLike := by
    obtain ⟨id, span, kind⟩ := e
    cases kind <;> rfl
  rw [← hkept L.relabeling e, ← hkept L.relabeling e', show e.relabel _ = e'.relabel _ from h]

namespace Parser

/-! ## Ends -/

theorem Alike.acceptSemicolon (hended : φ.ended = false) (hclosed : .closed ≤ χ)
    (hlook : φ.look ≤ χ) :
    Alike L loud inside hand φ χ (· = ·) (accept .semicolon) (accept .semicolon) := by
  have htaken {k' : TokenKind} : Alike L loud inside (some (.symbol .semicolon, k')) φ.look.still χ
      (· = ·) (Parser.advance >>= fun _ => pure true) (Parser.advance >>= fun _ => pure true) :=
    .pass hended ⟨nofun, nofun, hclosed⟩ (.value rfl)
  change Alike L loud inside hand φ χ (· = ·)
    (Parser.kind >>= fun k =>
      if k.isSymbol .semicolon then Parser.advance >>= fun _ => pure true else pure false)
    (Parser.kind >>= fun k =>
      if k.isSymbol .semicolon then Parser.advance >>= fun _ => pure true else pure false)
  refine .kind hended (fun k k' hk => ?_) (fun k => if k.isSymbol .semicolon then .takes else .ends)
    (fun _ k hk => ?_) (fun _ k hk => ?_) fun _ k hk => ?_
  · rw [← hk.test_eq (·.isSymbol .semicolon) fun _ _ => rfl]
    split
    case isTrue hsemicolon =>
      obtain rfl := TokenKind.eq_of_isSymbol hsemicolon
      exact .weaken htaken id id (.inr rfl) (Footing.le_still _) (Footing.le_refl χ) fun _ _ h => h
    case isFalse => exact .done rfl hlook
  · split at hk <;> cases hk
  · have hsemicolon : k.isSymbol .semicolon = true := by
      by_contra h
      simp [h] at hk
    obtain rfl := TokenKind.eq_of_isSymbol hsemicolon
    exact htaken
  · refine ⟨hclosed.1 rfl, false, ?_⟩
    split at hk
    · cases hk
    case isFalse hsemicolon => rw [if_neg hsemicolon]

theorem not_atStatementEnd {s : State} (hs : s.kind = .symbol .semicolon) :
    (!atStatementEnd s) = false := by
  rw [atStatementEnd, hs]
  rfl

theorem alike_valueBeforeEnd (hg : g.Alike L g') :
    Alike L true inside hand .firm .read (Like L) (valueBeforeEnd g) (valueBeforeEnd g') := by
  refine .queryIf _ _ rfl (fun cut s s' h _ => ?_) (fun s s' h _ => ?_) (fun s => not_atStatementEnd)
    (fun behind setting setting' s s' h hlt _ => .inl ?_) (fun s s' _ _ => ?_)
    (.done rfl (by decide))
  · rw [atStatementEnd, atStatementEnd, h.kind_alike.isSymbol_eq, h.kind_alike.isSymbol_eq,
      h.atEnd_eq]
  · rw [atStatementEnd, atStatementEnd, h.kind_resembles.isSymbol_eq, h.kind_resembles.isSymbol_eq,
      h.atEnd_eq]
  · have hkind := h.kind_resembles hlt
    rw [atStatementEnd, atStatementEnd, hkind.isSymbol_eq, hkind.isSymbol_eq, h.atEnd_eq hlt]
  · exact .map (hg.atExpr 0 rfl) fun e e' he => by simp_all

/-- The name of a label. -/
def labelName? : TokenKind → Option String
  | .label name => some name
  | _ => none

theorem label?_eq : label? = (kind >>= fun k =>
    (labelName? k).elim (pure none) fun name => advance >>= fun _ => pure (some name)) := by
  unfold label?
  congr 1
  funext k
  cases k <;> rfl

theorem alike_label? (hended : φ.ended = false) :
    Alike L loud inside hand φ φ.look (· = ·) label? label? := by
  rw [label?_eq]
  refine .ifValue hended (fun _ => rfl) rfl (fun k k' name hk => ?_) (.value rfl)
  have hpass := (show Ordinary fun k => (labelName? k).isSome from
    ⟨rfl, rfl, rfl, rfl, fun _ => rfl⟩).passable (show (labelName? k).isSome = true by simp [hk]) φ.look.still
  exact .pass hended hpass (.done rfl (Footing.behind_le _))

theorem alike_loopLabel :
    Alike L loud inside hand .unread .unread (· = ·) loopLabel loopLabel := by
  refine .bind (alike_label? rfl) fun label label' hlabel => ?_
  obtain rfl := hlabel
  cases label with
  | none => exact .value rfl
  | some name =>
    refine .bind (.expect ⟨rfl, rfl, rfl, rfl, fun _ => rfl⟩ rfl) fun _ _ _ => ?_
    refine .ifKind (fun k => k.isKeyword .loopKw || k.isKeyword .forKw ||
      k.isKeyword .whileKw) rfl (fun _ => rfl) rfl (fun k k' _ => ?_) (.expected rfl _)
    exact .done rfl (by decide)

/-! ## Statements -/

theorem alike_letStmt (hg : g.Alike L g') (hended : φ.ended = false) :
    Alike L true inside hand φ .closed (Like L) (letStmt g) (letStmt g') := by
  refine .bind (.expectKeyword hended _) fun _ _ _ => ?_
  refine .bind (hg.atPattern rfl) fun pattern pattern' hpattern => ?_
  refine .bind (alike_typeAfterColon (χ := .loose) hg rfl (by decide) (by decide))
    fun type type' htype => ?_
  refine .bind (.expect ⟨rfl, rfl, rfl, rfl, fun _ => rfl⟩ rfl) fun _ _ _ => ?_
  refine .bind (hg.atExpr 0 rfl) fun init init' hinit => ?_
  refine .bind (.semicolon rfl rfl) fun _ _ _ => .value ?_
  simp_all

theorem alike_varStmt (hg : g.Alike L g') (hended : φ.ended = false) :
    Alike L true inside hand φ .closed (Like L) (varStmt g) (varStmt g') := by
  refine .bind (.expectKeyword hended _) fun _ _ _ => ?_
  refine .bind (.name rfl) fun name name' hname => ?_
  refine .bind (alike_typeAfterColon (χ := .firm) hg rfl (by decide) (by decide))
    fun type type' htype => ?_
  refine .bind (.expect ⟨rfl, rfl, rfl, rfl, fun _ => rfl⟩ rfl) fun _ _ _ => ?_
  refine .bind (hg.atExpr 0 rfl) fun init init' hinit => ?_
  refine .bind (.semicolon rfl rfl) fun _ _ _ => .value ?_
  simp_all

theorem alike_forStmt (hg : g.Alike L g') (label : Option String) (hended : φ.ended = false) :
    Alike L true inside hand φ .behind (Like L) (forStmt g label) (forStmt g' label) := by
  refine .bind (.expectKeyword hended _) fun _ _ _ => ?_
  refine .bind (.acceptIf ⟨rfl, rfl, rfl, rfl, fun _ => rfl⟩ rfl) fun isAwait isAwait' hisAwait => ?_
  refine .bind (hg.atPattern rfl) fun pattern pattern' hpattern => ?_
  refine .bind (.expectKeyword rfl _) fun _ _ _ => ?_
  refine .bind (alike_condition hg rfl) fun iter iter' hiter => ?_
  exact .map (hg.atBlock rfl) fun body body' hbody => by simp_all

theorem alike_whileStmt {keyword : Keyword} {k' : TokenKind} (hg : g.Alike L g')
    (label : Option String) (hended : φ.ended = false) :
    Alike L true inside (some (.keyword keyword, k')) φ .behind (Like L) (whileStmt g label)
      (whileStmt g' label) := by
  refine .pass hended ⟨nofun, nofun, Footing.le_refl _⟩ ?_
  refine .bind (alike_condition hg rfl) fun cond cond' hcond => ?_
  exact .map (hg.atBlock rfl) fun body body' hbody => by simp_all

theorem alike_loopStmt {keyword : Keyword} {k' : TokenKind} (hg : g.Alike L g')
    (label : Option String) (hended : φ.ended = false) :
    Alike L true inside (some (.keyword keyword, k')) φ .behind (Like L) (loopStmt g label)
      (loopStmt g' label) :=
  .pass hended ⟨nofun, nofun, Footing.le_refl _⟩
    (.map (hg.atBlock rfl) fun body body' hbody => by simp_all)

theorem alike_breakStmt {keyword : Keyword} {k' : TokenKind} (hg : g.Alike L g')
    (hended : φ.ended = false) :
    Alike L true inside (some (.keyword keyword, k')) φ .closed (Like L) (breakStmt g)
      (breakStmt g') := by
  refine .pass hended ⟨nofun, nofun, Footing.le_refl _⟩ ?_
  refine .bind (alike_label? rfl) fun label label' hlabel => ?_
  refine .bind (alike_valueBeforeEnd hg) fun value value' hvalue => ?_
  exact .bind (.semicolon rfl rfl) fun _ _ _ => .value (by simp_all)

theorem alike_continueStmt {keyword : Keyword} {k' : TokenKind} (hended : φ.ended = false) :
    Alike L true inside (some (.keyword keyword, k')) φ .closed (Like L) continueStmt
      continueStmt := by
  refine .pass hended ⟨nofun, nofun, Footing.le_refl _⟩ ?_
  refine .bind (alike_label? rfl) fun label label' hlabel => ?_
  exact .bind (.semicolon rfl rfl) fun _ _ _ => .value (by simp_all)

theorem alike_returnStmt {keyword : Keyword} {k' : TokenKind} (hg : g.Alike L g')
    (hended : φ.ended = false) :
    Alike L true inside (some (.keyword keyword, k')) φ .closed (Like L) (returnStmt g)
      (returnStmt g') := by
  refine .pass hended ⟨nofun, nofun, Footing.le_refl _⟩ ?_
  refine .bind (.at_le (alike_valueBeforeEnd hg) (Footing.behind_le _) (Footing.le_refl _))
    fun value value' hvalue => ?_
  exact .bind (.semicolon rfl rfl) fun _ _ _ => .value (by simp_all)

theorem alike_blockLikeStmt (hg : g.Alike L g') (hended : φ.ended = false) :
    Alike L true inside hand φ .finished (Like L) (blockLikeStmt g) (blockLikeStmt g') := by
  refine .bind (hg.atBlockLike hended) fun e e' he => ?_
  exact .map (.acceptSemicolon rfl (by decide) (by decide)) fun _ _ _ => by simp_all

/-- The token of an assignment may be passed over. -/
theorem passable_of_assignOp? {k : TokenKind} {op : AssignOp} (hk : assignOp? k = some op) :
    Passable φ .behind k :=
  (show Ordinary fun k => (assignOp? k).isSome from ⟨rfl, rfl, rfl, rfl, fun _ => rfl⟩).passable
    (by simp [hk]) φ

/-- Whether an expression stands alone at its end: it gives the block its value, or ends in a block
itself. -/
def endsHere (blockLike : Bool) (k : TokenKind) : Bool :=
  !k.isSymbol .semicolon && (k.isSymbol .rightBrace || blockLike)

/-- The end of a statement that is an expression. -/
def exprEnd (e : Expr) : Parser StmtKind := do
  if ← query fun s => endsHere e.isBlockLike s.kind then
    pure (.expr e false)
  else
    semicolon
    pure (.expr e true)

theorem alike_exprEnd {e e' : Expr} (he : Like L e e') :
    Alike L true inside hand .read .finished (Like L) (exprEnd e) (exprEnd e') := by
  unfold exprEnd
  rw [Expr.isBlockLike_eq he]
  generalize e'.isBlockLike = blockLike
  have hsemicolon {hand : Hand} : Alike L true inside hand Footing.read.look .finished (Like L)
      (do semicolon; pure (StmtKind.expr e true)) (do semicolon; pure (StmtKind.expr e' true)) :=
    .bind (.semicolon rfl rfl) fun _ _ _ => .done (by simp_all) (by decide)
  change Alike L _ _ _ _ _ _
    (Parser.kind >>= fun k => if endsHere blockLike k then pure (StmtKind.expr e false)
      else do semicolon; pure (StmtKind.expr e true))
    (Parser.kind >>= fun k => if endsHere blockLike k then pure (StmtKind.expr e' false)
      else do semicolon; pure (StmtKind.expr e' true))
  refine .kind rfl
    (fun k k' hk => ?_) (fun k => if endsHere blockLike k then .ends else .passes)
    (fun _ k hk => ?_) (fun _ k hk => ?_) fun _ k hk => ?_
  · rw [← hk.test_eq (endsHere blockLike) fun _ _ => rfl]
    split
    · exact .done (by simp_all) (by decide)
    · exact hsemicolon
  · have hnot : endsHere blockLike k = false := by
      by_contra h
      simp [h] at hk
    rw [hnot]
    exact hsemicolon
  · split at hk <;> cases hk
  · refine ⟨rfl, .expr e false, if_pos ?_⟩
    by_contra h
    simp [h] at hk

theorem exprEnd_eq (e : Expr) : (do
      if ← accept .semicolon then
        pure (StmtKind.expr e true)
      else if ← query fun s => s.kind.isSymbol .rightBrace || e.isBlockLike then
        pure (StmtKind.expr e false)
      else
        semicolon
        pure (StmtKind.expr e true)) = exprEnd e := by
  funext setting s
  rw [exprEnd, query_bind, endsHere]
  cases hkind : s.kind.isSymbol .semicolon with
  | true =>
    rw [bind_ok (show accept .semicolon setting s = .ok true s.advance by
      rw [accept, acceptIf_eq, hkind]; rfl)]
    refine Eq.symm (bind_ok (?_ : semicolon setting s = .ok () s.advance))
    rw [semicolon, if_pos hkind]
  | false =>
    rw [bind_ok (show accept .semicolon setting s = .ok false s by
      rw [accept, acceptIf_eq, hkind]; rfl)]
    rfl

theorem exprStmt_eq (g : Rules) : exprStmt g = (expr g >>= fun e => kind >>= fun k =>
    (assignOp? k).elim (exprEnd e) fun op => do
      advance
      let value ← expr g
      semicolon
      pure (.assign e op value)) := by
  unfold exprStmt
  congr 1
  funext e
  congr 1
  funext k
  cases assignOp? k with
  | some op => rfl
  | none => exact exprEnd_eq e

theorem alike_exprStmt (hg : g.Alike L g') (hended : φ.ended = false) :
    Alike L true inside hand φ .finished (Like L) (exprStmt g) (exprStmt g') := by
  rw [exprStmt_eq, exprStmt_eq]
  refine .bind (hg.atExpr 0 hended) fun e e' he => ?_
  refine .ifValue rfl (fun _ => rfl) rfl (fun k k' op hop => ?_) ?_
  · refine .pass rfl (passable_of_assignOp? hop) ?_
    refine .bind (hg.atExpr 0 rfl) fun value value' hvalue => ?_
    refine .bind (.semicolon rfl rfl) fun _ _ _ => ?_
    exact .done (by simp_all) (by decide)
  · exact alike_exprEnd he

/-- Whether a statement starts with a block is told by its first token, and behind `scope` by two
more. -/
theorem startsBlockLike_congr {s s' : State} (h : s.kind.Resembles s'.kind)
    (hnext : s.kind = .keyword .scopeKw → (s.peek 1).Resembles (s'.peek 1))
    (hlaunch : s.kind = .keyword .scopeKw → s.peek 1 = .symbol .dot →
      (s.peek 2).isWord "launch" = (s'.peek 2).isWord "launch") :
    startsBlockLike s = startsBlockLike s' := by
  unfold startsBlockLike
  generalize hk : s.kind = k at *
  generalize hk' : s'.kind = k' at *
  cases h with
  | interpolated => rfl
  | same =>
    by_cases hscope : k = .keyword .scopeKw
    · subst hscope
      have hpeek := hnext rfl
      generalize hp : s.peek 1 = p at *
      generalize s'.peek 1 = p' at *
      cases hpeek with
      | interpolated => rfl
      | same =>
        by_cases hp : p = .symbol .dot
        · subst hp
          exact hlaunch rfl rfl
        · dsimp only
          split <;> simp_all
    · split <;> simp_all

theorem startsBlockLike_eq {L : Likeness} {cut : Cut} {s s' : State}
    (h : Lexeme.AlikeUpTo L cut s.rest s'.rest) : startsBlockLike s = startsBlockLike s' := by
  refine startsBlockLike_congr h.kind_alike.resembles (fun hs => ?_) fun hs hdot => ?_
  · exact (h.peek_alike (by simp [hs]) (by simp [hs])).resembles
  · have hnext := h.advance (by simp [hs]) (by simp [hs])
    rw [← kind_advance] at hdot
    have hpeek := hnext.peek_alike (by simp [hdot]) (by simp [hdot])
    rw [peek_advance, peek_advance] at hpeek
    exact hpeek.isWord_eq _

theorem startsBlockLike_resembling {s s' : State} (h : Lexeme.Resembling s.rest s'.rest) :
    startsBlockLike s = startsBlockLike s' := by
  refine startsBlockLike_congr h.kind_resembles (fun _ => h.peek_resembles) fun _ _ => ?_
  have hpeek := h.advance.peek_resembles
  rw [peek_advance, peek_advance] at hpeek
  exact hpeek.isWord_eq _

theorem startsBlockLike_gapped {behind : List Lexeme} {s s' : State}
    (h : Lexeme.Gapped behind s.rest s'.rest) (hlt : behind.length < s.rest.length) :
    startsBlockLike s = startsBlockLike s' ∨ startsBlockLike s' = false ∧
      s'.kind = .keyword .scopeKw ∧ (s'.peek 1 = .symbol .semicolon ∨
        s'.peek 1 = .symbol .dot ∧ s'.peek 2 = .symbol .semicolon) := by
  have hkind := h.kind_resembles hlt
  by_cases hscope : s.kind = .keyword .scopeKw
  · have hscope' := hkind.eq_of_left hscope nofun
    have hnext := h.advance hlt
    obtain ⟨hlt', hpeek⟩ | ⟨-, hpeek⟩ := h.peek hlt
    · by_cases hdot : s.peek 1 = .symbol .dot
      · obtain ⟨-, hpeek'⟩ | ⟨-, hpeek'⟩ := hnext.peek hlt'
        · rw [peek_advance, peek_advance] at hpeek'
          exact .inl (startsBlockLike_congr hkind (fun _ => hpeek) fun _ _ => hpeek'.isWord_eq _)
        · have hdot' := hpeek.eq_of_left hdot nofun
          rw [peek_advance] at hpeek'
          refine .inr ⟨?_, hscope', .inr ⟨hdot', hpeek'⟩⟩
          rw [startsBlockLike, hscope']
          simp only [hdot', hpeek']
          rfl
      · exact .inl (startsBlockLike_congr hkind (fun _ => hpeek) fun _ h => absurd h hdot)
    · refine .inr ⟨?_, hscope', .inl hpeek⟩
      rw [startsBlockLike, hscope']
      simp only [hpeek]
  · exact .inl (startsBlockLike_congr hkind (fun h => absurd h hscope) fun h => absurd h hscope)

theorem not_startsBlockLike {s : State} (hs : s.kind = .symbol .semicolon) :
    startsBlockLike s = false := by
  rw [startsBlockLike, hs]

theorem alike_stmtKind (hg : g.Alike L g') (label : Option String) (hended : φ.ended = false) :
    Alike L true inside hand φ .finished (Like L) (stmtKind g label) (stmtKind g' label) := by
  have hlook : φ.look.still.ended = false := hended
  have hclosed {p p' : Parser StmtKind} {hand : Hand}
      (h : Alike L true inside hand φ.look.still .closed (Like L) p p') :
      Alike L true inside hand φ.look.still .finished (Like L) p p' := h.ends_le (by decide)
  have hbehind {p p' : Parser StmtKind} {hand : Hand}
      (h : Alike L true inside hand φ.look.still .behind (Like L) p p') :
      Alike L true inside hand φ.look.still .finished (Like L) p p' := h.ends_le (by decide)
  have hother : Alike L true inside none φ.look.still .finished (Like L)
      (do if ← query startsBlockLike then blockLikeStmt g else exprStmt g)
      (do if ← query startsBlockLike then blockLikeStmt g' else exprStmt g') := by
    refine .queryIf _ _ hlook (fun _ _ _ h _ => startsBlockLike_eq h)
      (fun _ _ h _ => startsBlockLike_resembling h) (fun _ => not_startsBlockLike)
      (fun behind setting setting' s s' h hlt _ => ?_) (fun _ _ _ _ => alike_blockLikeStmt hg hlook)
      (alike_exprStmt hg hlook)
    obtain heq | ⟨hnot, hscope, hnext⟩ := startsBlockLike_gapped h hlt
    · exact .inl heq
    · cases hs : startsBlockLike s with
      | false => exact .inl hnot.symm
      | true =>
        -- whatever `scope` is taken for, its block or its operation is missing
        obtain ⟨e, after, hblockLike, hexpr⟩ := hg.scope' setting' s' hscope hnext
        refine .inr (.inr (.inr ?_))
        rw [hnot]
        exact (bind_fail hblockLike).trans (bind_fail hexpr).symm
  refine .onKind _ _ hended (fun _ _ _ => hother.forget) fun k => ?_
  split
  · exact hclosed (alike_letStmt hg hlook)
  · exact hclosed (alike_varStmt hg hlook)
  · exact hbehind (alike_forStmt hg label hlook)
  · exact hbehind (alike_whileStmt hg label hlook)
  · exact hbehind (alike_loopStmt hg label hlook)
  · exact hclosed (alike_breakStmt hg hlook)
  · exact hclosed (alike_continueStmt hlook)
  · exact hclosed (alike_returnStmt hg hlook)
  · exact hbehind (.map (hg.atBlock hlook) fun block block' hblock => by simp_all)
  · exact hother.forget

theorem alike_stmt (hg : g.Alike L g') :
    Alike L true inside hand .unread .finished (Like L) (stmt g) (stmt g') := by
  refine .start fun start start' hstart => ?_
  refine .bind alike_loopLabel fun label label' hlabel => ?_
  obtain rfl := hlabel
  refine .bind (alike_stmtKind hg label rfl) fun kind kind' hkind => ?_
  exact .node hstart fun id id' span span' hid hspan => by simp_all

/-! ## Bodies and blocks -/

variable {σ : Type} {R : σ → σ → Prop} {part part' : σ → Parser σ} {a a' : σ}

/-- Where something starts anew it does not matter whether a statement has ended. -/
theorem Alike.settled {α : Type} {R : α → α → Prop} {p p' : Parser α} (hmended : L.mended = none)
    (h : Alike L loud true hand φ χ R p p') : Alike L loud true hand φ .unread R p p' := by
  rw [← bind_pure p, ← bind_pure p']
  exact .bind h fun a a' ha => .settle hmended (.done ha (Footing.settle_le χ))

/-- The parts of a body in braces; an error in one of them does not end the others. -/
theorem alike_bodyParts (parts : Parts)
    (hrecovery : parts.recovery = .statements ∨ parts.recovery = .members)
    (hpart : ∀ a, (part a).Consumes true) (hpart' : ∀ a, (part' a).Consumes true)
    (hbreaks : ∀ a, parts.BreaksOff (part a))
    (h : ∀ a a', R a a' → Alike L true true none .unread χ R (part a) (part' a'))
    (ha : R a a') :
    Alike L true true hand .behind .unread R (bodyParts parts.recovery part a)
      (bodyParts parts.recovery part' a') := by
  have hprogresses : Progresses (bodyTurn parts.recovery part) :=
    progresses fun a => follows_bodyTurn a hrecovery hpart
  have hprogresses' : Progresses (bodyTurn parts.recovery part') :=
    progresses fun a => follows_bodyTurn a hrecovery hpart'
  by_cases hmended : L.mended = none
  · have hturn (a a' : σ) (ha : R a a') : Alike L true true none .unread .unread
        (fun r r' => r.1 = r'.1 ∧ R r.2 r'.2) (bodyTurn parts.recovery part a)
        (bodyTurn parts.recovery part' a') := by
      refine alike_atBodyEnd rfl fun atEnd => ?_
      split
      · exact .value ⟨rfl, ha⟩
      · exact .settled hmended (.resilient parts.recovery hmended ha (h a a' ha))
    exact .at_le (.loop rfl hprogresses hprogresses' hturn ha) (by decide) (Footing.le_refl _)
  · exact .parts parts _ hmended (.inl rfl) hprogresses hprogresses' hbreaks h ha

theorem alike_blockRule (hg : g.Alike L g') (hended : φ.ended = false) :
    Alike L true inside hand φ .behind (Like L) (blockRule g) (blockRule g') := by
  refine .start fun start start' hstart => ?_
  refine .expectOpening rfl hended ?_
  have hstmts : Alike L true true none .behind .unread (Like L)
      (bodyParts .statements (fun stmts => do
        let next ← stmt g
        pure (next :: stmts)) [])
      (bodyParts .statements (fun stmts => do
        let next ← stmt g'
        pure (next :: stmts)) []) := by
    refine alike_bodyParts .statements (χ := .finished) (.inl rfl)
      (consumes_found (consumes_stmt hg.left)) (consumes_found (consumes_stmt hg.right))
      (fun _ _ _ => nofun) (fun stmts stmts' hstmts => ?_) rfl
    exact .map (alike_stmt hg) fun next next' hnext => by simp_all
  refine .enclosedExpect ⟨rfl, rfl, rfl, rfl, fun _ => rfl⟩ rfl hstmts
    fun stmts stmts' hstmts => ?_
  refine .part hstart fun span span' hspan => ?_
  have hreverse := relabel_reverse L.relabeling stmts
  simp_all

end Parser

/-! ## The rules of the grammar -/

open ActorFrontend.Parser

theorem Parser.misses_scopeExpr (g : Rules) (setting : Setting) {s : State} (hs : s.kind = .keyword .scopeKw)
    (h : s.peek 1 = .symbol .semicolon ∨ s.peek 1 = .symbol .dot ∧ s.peek 2 = .symbol .semicolon) :
    ∃ left, (scopeExpr g).Misses left setting s := by
  have hscope : expectKeyword .scopeKw setting s = .ok () s.advance := by
    rw [expectKeyword, require_eq, hs]
    rfl
  rw [← kind_advance, ← peek_advance, ← kind_advance] at h
  obtain h | ⟨hdot, h⟩ := h
  · refine ⟨s.advance.rest.length, .of_ok hscope (.of_ok (sees_eq _) ?_)⟩
    rw [h]
    refine .of_ok (?_ : accept .dot setting s.advance = .ok false s.advance) (misses_expected _)
    rw [accept, acceptIf_eq, h]
    rfl
  · have hother (word : String) : acceptWord word setting s.advance.advance =
        .ok false s.advance.advance := by
      rw [acceptWord, acceptIf_eq, h]
      rfl
    refine ⟨s.advance.advance.rest.length, .of_ok hscope (.of_ok (sees_eq _) ?_)⟩
    rw [hdot]
    refine .of_ok (?_ : accept .dot setting s.advance = .ok true s.advance.advance) ?_
    · rw [accept, acceptIf_eq, hdot]
      rfl
    · refine .of_ok (hother _) (.of_ok (hother _) (.of_ok (hother _) ?_))
      exact misses_expected _

theorem Rules.missesScope_within (levels : Nat) : (Rules.within levels).MissesScope := by
  intro setting s hs hnext
  cases levels with
  | zero => exact ⟨_, s, rfl, rfl⟩
  | succ levels =>
    change ∃ e after, nested (fun setting s => operand (.within levels) setting s) setting s = _ ∧
      nested (fun setting s => exprRule (.within levels) 0 setting s) setting s = _
    unfold nested
    split
    · exact ⟨_, s, rfl, rfl⟩
    · generalize hdeeper : { s with depth := s.depth + 1 } = deeper
      have hkind : deeper.kind = .keyword .scopeKw := by rw [← hdeeper]; exact hs
      obtain ⟨left, e, after, hfail, -⟩ := misses_scopeExpr (.within levels)
        setting hkind (by rw [← hdeeper]; exact hnext)
      have hoperand : operand (.within levels) setting deeper = .fail e after := by
        rw [operand, kind_bind, hkind]
        change asExpr _ setting deeper = _
        rw [asExpr, start_bind]
        exact bind_fail hfail
      have hexpr : exprRule (.within levels) 0 setting deeper = .fail e after := bind_fail hoperand
      simp only [hoperand, hexpr]
      exact ⟨_, _, rfl, rfl⟩

/-- With the same levels left in both runs the rules go alike. -/
theorem Rules.alike_within (levels : Nat) : Rules.Alike L (.within levels) (.within levels) := by
  induction levels with
  | zero =>
    have hrefused {α : Type} {loud : Bool} {φ χ : Footing} {R : α → α → Prop}
        (hended : φ.ended = false) : Parser.Alike L loud false none φ χ R tooDeep tooDeep := by
      refine .fails hended (fun _ setting setting' s hdepth hend => ?_) (fun _ _ => rfl) ?_
      · simp [State.span, hdepth, hend]
      · intro p _ setting setting' s s' hlimits _ hspan
        exact ⟨hspan, rfl, by rw [hlimits], rfl, rfl⟩
    constructor
    case left | right => exact Rules.follow_within 0
    case names => exact Rules.readsNames_within 0
    case types | types' => exact Rules.readsTypes_within 0
    case scope' => exact Rules.missesScope_within 0
    case angles' => exact skips_within 0
    case expr => exact fun _ => hrefused rfl
    all_goals exact hrefused rfl
  | succ levels ih =>
    constructor
    case left | right => exact Rules.follow_within (levels + 1)
    case names => exact Rules.readsNames_within (levels + 1)
    case types | types' => exact Rules.readsTypes_within (levels + 1)
    case scope' => exact Rules.missesScope_within (levels + 1)
    case angles' => exact skips_within (levels + 1)
    case type => exact .nested rfl (alike_typeRule ih rfl)
    case pattern => exact .nested rfl (alike_patternRule ih rfl)
    case expr => exact fun minPower => .nested rfl (alike_exprRule ih minPower rfl)
    case block => exact .nested rfl (alike_blockRule ih rfl)
    case blockLike => exact .nested rfl (alike_operand ih rfl)

/-- With more levels left in the second run the rules go alike, as far as the first one goes. -/
theorem Rules.alike_within_of_le (hlax : L.lax = true) {levels levels' : Nat}
    (h : levels ≤ levels') : Rules.Alike L (.within levels) (.within levels') := by
  induction levels generalizing levels' with
  | zero =>
    have hrefused {α : Type} {loud : Bool} {φ χ : Footing} {R : α → α → Prop} {p : Parser α}
        (hended : φ.ended = false) (h : Parser.Alike L loud false none φ χ R p p) :
        Parser.Alike L loud false none φ χ R tooDeep p := .refused hlax hended h
    have hsame : Rules.Alike L (.within levels') (.within levels') := Rules.alike_within levels'
    constructor
    case left => exact Rules.follow_within 0
    case right => exact Rules.follow_within levels'
    case names => exact Rules.readsNames_within 0
    case types => exact Rules.readsTypes_within 0
    case types' => exact Rules.readsTypes_within levels'
    case scope' => exact Rules.missesScope_within levels'
    case angles' => exact skips_within levels'
    case type => exact hrefused rfl hsame.type
    case pattern => exact hrefused rfl hsame.pattern
    case expr => exact fun minPower => hrefused rfl (hsame.expr minPower)
    case block => exact hrefused rfl hsame.block
    case blockLike => exact hrefused rfl hsame.blockLike
  | succ levels ih =>
    obtain ⟨levels', rfl⟩ : ∃ m, levels' = m + 1 := ⟨levels' - 1, by omega⟩
    have ih := ih (Nat.le_of_succ_le_succ h)
    constructor
    case left => exact Rules.follow_within (levels + 1)
    case right => exact Rules.follow_within (levels' + 1)
    case names => exact Rules.readsNames_within (levels + 1)
    case types => exact Rules.readsTypes_within (levels + 1)
    case types' => exact Rules.readsTypes_within (levels' + 1)
    case scope' => exact Rules.missesScope_within (levels' + 1)
    case angles' => exact skips_within (levels' + 1)
    case type => exact .nested rfl (alike_typeRule ih rfl)
    case pattern => exact .nested rfl (alike_patternRule ih rfl)
    case expr => exact fun minPower => .nested rfl (alike_exprRule ih minPower rfl)
    case block => exact .nested rfl (alike_blockRule ih rfl)
    case blockLike => exact .nested rfl (alike_operand ih rfl)

end ActorFrontend
