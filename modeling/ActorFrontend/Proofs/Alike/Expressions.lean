import ActorFrontend.Proofs.Alike.Types

/-!
# Expressions go alike
-/

namespace ActorFrontend

theorem TokenKind.eq_of_isKeyword {k : TokenKind} {keyword : Keyword}
    (h : k.isKeyword keyword = true) : k = .keyword keyword := by
  cases k with
  | keyword other =>
    have heq : other = keyword := by simpa [TokenKind.isKeyword] using h
    rw [heq]
  | _ => cases h

theorem TokenKind.eq_of_isWord {k : TokenKind} {word : String} (h : k.isWord word = true) :
    k = .ident word := by
  cases k with
  | ident name =>
    have heq : name = word := by simpa [TokenKind.isWord] using h
    rw [heq]
  | _ => cases h

/-- Whether the token may follow a name that starts the fields of a struct literal. -/
def TokenKind.followsField : TokenKind → Bool
  | .symbol .colon | .symbol .comma | .symbol .rightBrace => true
  | _ => false

variable {L : Comparison} {g g' : Rules} {inside : Bool} {hand : Hand} {φ χ : Footing}
  {start start' : Nat}

theorem Expr.sameSpan {e e' : Expr} (h : Like L e e') : L.SameSpan e.span e'.span := by
  obtain ⟨id, span, kind⟩ := e
  obtain ⟨id', span', kind'⟩ := e'
  simp_all

/-- Every token sequence is the same as itself. -/
theorem Lexeme.AlikeUpTo.refl {L : Likeness} (rest : List Lexeme) : Lexeme.AlikeUpTo L .none rest rest := by
  induction rest with
  | nil => exact .nil
  | cons lexeme rest ih =>
    exact .cons (.same _) (fun _ => rfl) (fun _ => rfl) (fun _ _ => rfl) ih

theorem Fragment.AlikeAll.refl {L : Likeness} (fragments : List Fragment) :
    Fragment.AlikeAll L fragments fragments := by
  induction fragments with
  | nil => exact .nil
  | cons fragment fragments ih =>
    cases fragment with
    | text value span => exact .text value span span ih
    | splice tokens span => exact .splice span span (.refl _) ih

namespace Parser

theorem alike_exprNode {loud : Bool} {kind kind' : ExprKind} (hstart : L.SameOffset start start')
    (h : Like L kind kind') :
    Alike L loud inside hand φ φ (Like L) (exprNode start kind) (exprNode start' kind') :=
  .node hstart fun id id' span span' hid hspan => by simp_all

theorem alike_asExpr {kind kind' : Parser ExprKind}
    (h : Alike L true inside hand φ.still χ (Like L) kind kind') :
    Alike L true inside hand φ χ (Like L) (asExpr kind) (asExpr kind') :=
  .start fun _ _ hstart => .bind h fun _ _ hkind => alike_exprNode hstart hkind

/-! ## Expressions in special contexts -/

theorem alike_condition (hg : g.Alike L g') (hended : φ.ended = false) :
    Alike L true inside hand φ .read (Like L) (condition g) (condition g') :=
  .inContext (fun context => { context with structLiterals := false }) (.keep fun _ => rfl)
    (hg.atExpr 0 hended)

/-- Behind the head of an arm its arrow may follow. -/
theorem alike_armHead (hg : g.Alike L g') (hended : φ.ended = false) (hblocked : φ.blocked = false) :
    Alike L true inside hand φ .firm (Like L) (armHead g) (armHead g') :=
  .inContext (fun context => { context with lambdas := false }) (.bar (fun _ => rfl) hblocked hended)
    (hg.atExpr 0 hended)

theorem alike_blockExpr (hg : g.Alike L g') (hended : φ.ended = false) :
    Alike L true inside hand φ .behind (Like L) (blockExpr g) (blockExpr g') :=
  alike_asExpr (.map (hg.atBlock hended) fun block block' hblock => by simp_all)

theorem alike_armBody (hg : g.Alike L g') (hended : φ.ended = false) :
    Alike L true inside hand φ .read (Like L) (armBody g) (armBody g') :=
  .ifSees nofun hended
    ((alike_blockExpr hg (φ := φ.look.still) hended).ends_le (Footing.behind_le _))
    (hg.atExpr 0 hended)

theorem alike_exprList {close : Symbol} (hg : g.Alike L g')
    (hclose : Ordinary (·.isSymbol close)) (hended : φ.ended = false) :
    Alike L true inside hand φ .behind (Like L) (commaList close (expr g))
      (commaList close (expr g')) :=
  .commaList (hg.left.expr 0).mayConsume (hg.right.expr 0).mayConsume hclose hended
    ((hg.atExpr 0 rfl).ends_le (by decide))

theorem alike_args (hg : g.Alike L g') (hended : φ.ended = false) :
    Alike L true inside hand φ .behind (Like L) (args g) (args g') :=
  .expectOpening rfl hended
    (.enclosed rfl rfl (alike_exprList hg ⟨rfl, rfl, rfl, rfl, fun _ => rfl⟩ rfl))

/-! ## Literals -/

theorem alike_integerOrDuration {value : UInt64} {k' : TokenKind} (hended : φ.ended = false) :
    Alike L true inside (some (.int value, k')) φ .firm (Like L) (integerOrDuration value)
      (integerOrDuration value) := by
  refine .unit hended (fun unit suffix => ?_) (.value rfl)
  exact .pass rfl ⟨nofun, nofun, Footing.behind_le _⟩ (.value rfl)

theorem duration_eq : duration = (kind >>= fun k => match k with
    | .int value => advance >>= fun _ => durationUnit? >>= fun unit? => match unit? with
      | some unit => advance >>= fun _ => pure ⟨value, unit⟩
      | none => expected .duration
    | _ => expected .duration) := by
  unfold duration
  rw [valueOf_bind]
  congr 1
  funext k
  cases k <;> rfl

theorem alike_duration {loud : Bool} (hended : φ.ended = false) :
    Alike L loud inside hand φ .firm (· = ·) duration duration := by
  have hlook : φ.look.still.ended = false := hended
  rw [duration_eq]
  refine .onKind _ _ hended (fun _ _ _ => .expected hlook _) fun k => ?_
  split
  · refine .unit hlook (fun unit suffix => ?_) (.expected rfl _)
    exact .pass rfl ⟨nofun, nofun, Footing.behind_le _⟩ (.value rfl)
  · exact .expected hlook _

theorem alike_wholeExpr (hg : g.Alike L g') :
    Alike L true inside none .unread .loose (Like L) (wholeExpr g (.symbol .rightBrace))
      (wholeExpr g' (.symbol .rightBrace)) := by
  refine .bind (hg.atExpr 0 rfl) fun e e' he => ?_
  refine alike_atEnd rfl fun k k' atEnd hend => ?_
  cases atEnd with
  | true =>
    rw [hend rfl]
    exact .unblock rfl (.value he)
  | false => exact .expected rfl _

/-- The parts of strings that are the same but for what surrounds the tokens of splices. -/
theorem alike_stringParts (hg : g.Alike L g') (hmended : L.mended = none)
    {fragments fragments' : List Fragment} (h : Fragment.AlikeAll L fragments fragments')
    (hsame : L.spans = true → fragments = fragments') :
    Alike L true true hand φ φ (Like L) (stringParts g fragments) (stringParts g' fragments') := by
  induction fragments generalizing fragments' hand with
  | nil =>
    cases h
    exact .value rfl
  | cons fragment fragments ih =>
    cases h with
    | text value span span' h =>
      refine .map (ih h fun hspans => (List.cons.inj (hsame hspans)).2) fun more more' hmore => ?_
      simp_all
    | splice span span' htokens h =>
      refine .bind (.splice hmended htokens (fun hspans => ?_) rfl (alike_wholeExpr hg))
        fun e e' he => ?_
      · have heq := (List.cons.inj (hsame hspans)).1
        cases heq
        exact ⟨rfl, rfl⟩
      · refine .map (ih h fun hspans => (List.cons.inj (hsame hspans)).2)
          fun more more' hmore => ?_
        simp_all

/-- Strings that may both stand at the place at hand. -/
theorem alike_interpolatedString (hg : g.Alike L g') {fragments fragments' : List Fragment}
    (hmatches : L.Matches (.interpolated fragments) (.interpolated fragments'))
    (hended : φ.ended = false) :
    Alike L true inside (some (.interpolated fragments, .interpolated fragments')) φ .behind (Like L)
      (interpolatedString g fragments) (interpolatedString g' fragments') := by
  by_cases hmended : L.mended = none
  · have hparts (h : Fragment.AlikeAll L fragments fragments')
        (hsame : L.spans = true → fragments = fragments') :
        Alike L true inside (some (.interpolated fragments, .interpolated fragments')) φ .behind
          (Like L) (interpolatedString g fragments) (interpolatedString g' fragments') :=
      .enter rfl hended
        (.map (alike_stringParts hg hmended h hsame) fun parts parts' hparts => by simp_all)
    obtain h | ⟨hne, -⟩ := hmatches
    · cases h with
      | same => exact hparts (.refl _) fun _ => rfl
      | interpolated hspans h =>
        exact hparts h fun htrue => absurd (hspans.symm.trans htrue) Bool.false_ne_true
    · exact absurd hmended hne
  · exact .interpolated hmended hended (alike_wholeExpr hg)

/-! ## Names -/

theorem alike_fieldInit (hg : g.Alike L g') (hended : φ.ended = false) :
    Alike L true inside hand φ .read (Like L) (fieldInit g) (fieldInit g') := by
  refine .start fun start start' hstart => ?_
  refine .span fun nameSpan nameSpan' hnameSpan => ?_
  refine .bind (.name hended) fun name name' hname => ?_
  refine .ifAccept ⟨rfl, rfl, rfl, rfl, fun _ => rfl⟩ rfl ?_ ?_
  · refine .bind (hg.atExpr 0 rfl) fun value value' hvalue => ?_
    exact .part hstart fun span span' hspan => by simp_all
  · refine .bind .freshId fun id id' hid => ?_
    refine .ends_le (.part hstart fun span span' hspan => ?_) (by decide)
    have hsame := hnameSpan.1
    simp_all

/-- Whether a brace opens fields is told by the token behind it, and behind a name by one more. -/
theorem opensFields_congr {s s' : State} (h : (s.peek 1).Resembles (s'.peek 1))
    (hnext : ∀ name, s.peek 1 = .ident name →
      (s.peek 2).followsField = (s'.peek 2).followsField) : opensFields s = opensFields s' := by
  unfold opensFields
  generalize hk : s.peek 1 = k at *
  generalize hk' : s'.peek 1 = k' at *
  cases h with
  | interpolated => rfl
  | same =>
    cases k with
    | ident name => exact hnext name rfl
    | symbol symbol => cases symbol <;> rfl
    | _ => rfl

theorem opensFields_eq {L : Likeness} {cut : Cut} {s s' : State}
    (h : Lexeme.AlikeUpTo L cut s.rest s'.rest) (hs : s.kind = .symbol .leftBrace) :
    opensFields s = opensFields s' := by
  have hadvance := h.advance (by simp [hs]) (by simp [hs])
  have hpeek := hadvance.kind_alike
  rw [kind_advance, kind_advance] at hpeek
  refine opensFields_congr hpeek.resembles fun name hname => ?_
  have hkind : s.advance.kind = .ident name := by rw [kind_advance, hname]
  have hpeek := hadvance.peek_alike (by simp [hkind]) (by simp [hkind])
  rw [peek_advance, peek_advance] at hpeek
  exact hpeek.test_eq _ fun _ _ => rfl

theorem opensFields_resembling {s s' : State} (h : Lexeme.Resembling s.rest s'.rest) :
    opensFields s = opensFields s' := by
  refine opensFields_congr h.peek_resembles fun _ _ => ?_
  have hpeek := h.advance.peek_resembles
  rw [peek_advance, peek_advance] at hpeek
  exact hpeek.test_eq _ fun _ _ => rfl

theorem not_opensFields {s : State} (h : s.peek 1 = .symbol .semicolon) : opensFields s = false := by
  rw [opensFields, h]

/-- Where the second run has its semicolon instead of a field or behind the name of one, it misses
what the fields would go on with. -/
theorem opensFields_gapped {behind : List Lexeme} {s s' : State}
    (h : Lexeme.Gapped behind s.rest s'.rest) (hlt : behind.length < s.rest.length) :
    opensFields s = opensFields s' ∨ opensFields s' = false ∧
      ((s'.advance.kind = .symbol .semicolon ∧ s'.advance.rest.length = behind.length + 1) ∨
        ((∃ name, s'.advance.kind = .ident name) ∧ s'.advance.advance.kind = .symbol .semicolon ∧
          s'.advance.advance.rest.length = behind.length + 1)) := by
  have hnext := h.advance hlt
  obtain ⟨hlt', hpeek⟩ | ⟨hlength, hpeek⟩ := h.peek hlt
  · have hafter := hnext.advance hlt'
    obtain ⟨-, hpeek'⟩ | ⟨hlength, hpeek'⟩ := hnext.peek hlt'
    · rw [peek_advance, peek_advance] at hpeek'
      exact .inl (opensFields_congr hpeek fun _ _ => hpeek'.test_eq _ fun _ _ => rfl)
    · by_cases hname : ∃ name, s.peek 1 = .ident name
      · obtain ⟨name, hname⟩ := hname
        have hname' := hpeek.eq_of_left hname nofun
        refine .inr ⟨?_, .inr ⟨⟨name, by rw [kind_advance, hname']⟩, by rw [kind_advance, hpeek'],
          by rw [hafter.length_eq, hlength]⟩⟩
        rw [peek_advance] at hpeek'
        rw [opensFields, hname', hpeek']
      · exact .inl (opensFields_congr hpeek fun name h => absurd ⟨name, h⟩ hname)
  · refine .inr ⟨not_opensFields hpeek, .inl ⟨by rw [kind_advance, hpeek], ?_⟩⟩
    rw [hnext.length_eq, hlength]

theorem misses_fieldInit {setting : Setting} {s : State} (hs : s.kind = .symbol .semicolon) :
    (fieldInit g).Misses s.rest.length setting s :=
  .of_ok (a := (s.span setting).start) rfl (.of_ok (a := s.span setting) rfl
    ((misses_valueOf (by rw [hs]) _).bind _))

/-- A name that nothing follows which belongs to a field is one. -/
theorem fieldInit_eq_of_name (g : Rules) (setting : Setting) {s : State} {name : String}
    (hname : s.kind = .ident name) (hnext : s.advance.kind = .symbol .semicolon) :
    ∃ field, fieldInit g setting s =
      .ok field { s.advance with nextId := s.advance.nextId + 1 } := by
  have hread : Parser.name setting s = .ok name s.advance := by
    rw [Parser.name, valueOf_eq, hname]
  have hcolon : accept .colon setting s.advance = .ok false s.advance := by
    rw [accept, acceptIf_eq, hnext]
    rfl
  refine ⟨⟨name, ⟨s.advance.nextId, s.span setting, .ident name⟩,
    ⟨(s.span setting).start, max s.advance.previousEnd (s.span setting).start⟩⟩, ?_⟩
  rw [fieldInit, start_bind]
  exact (bind_ok (p := Parser.span) rfl).trans ((bind_ok hread).trans (bind_ok hcolon))

/-- The fields of a struct literal, with their braces. -/
def literalFields (g : Rules) (path : List String) : Parser ExprKind := do
  expect .leftBrace
  let fields ← enclosed (commaList .rightBrace (fieldInit g))
  pure (.structLiteral path fields)

theorem misses_literalFields {left : Nat} {setting : Setting} {s : State}
    (hs : s.kind = .symbol .leftBrace)
    (h : (s.advance.kind = .symbol .semicolon ∧ s.advance.rest.length = left) ∨
      ((∃ name, s.advance.kind = .ident name) ∧ s.advance.advance.kind = .symbol .semicolon ∧
        s.advance.advance.rest.length = left)) (path : List String) :
    (literalFields g path).Misses left setting s := by
  refine .of_ok (a := ()) (expect_eq_ok_iff.2 ⟨hs, rfl⟩) (Misses.bind (.enclosed ?_) _)
  generalize hinside : { s.advance with context := .anything } = inner
  have hkind : inner.kind = s.advance.kind := by rw [← hinside]; rfl
  have hrest : inner.rest = s.advance.rest := by rw [← hinside]
  obtain ⟨hsemicolon, rfl⟩ | ⟨⟨name, hname⟩, hsemicolon, rfl⟩ := h
  · rw [← hkind] at hsemicolon
    rw [← hrest]
    exact .commaList (by rw [hsemicolon]; rfl) (misses_fieldInit hsemicolon)
  · rw [← hkind] at hname
    have hnext : inner.advance.rest = s.advance.advance.rest := by
      rw [State.rest_advance, hrest, ← State.rest_advance]
    have hsemicolon' : inner.advance.kind = .symbol .semicolon := by
      rw [← hsemicolon, State.kind, State.kind, hnext]
    obtain ⟨field, hfield⟩ := fieldInit_eq_of_name g setting hname hsemicolon'
    rw [← hnext]
    refine misses_commaList { inner.advance with nextId := inner.advance.nextId + 1 }
      (by rw [hname]; rfl) hfield ?_ ?_
    · change inner.advance.kind.isSymbol _ = _
      rw [hsemicolon']
      rfl
    · change inner.advance.kind.isSymbol _ = _
      rw [hsemicolon']
      rfl

theorem alike_literalFields (hg : g.Alike L g') (path : List String) (hended : φ.ended = false) :
    Alike L true inside hand φ .firm (Like L) (literalFields g path) (literalFields g' path) := by
  refine .expectOpening rfl hended ?_
  exact .ends_le (.map (.enclosed rfl rfl (.commaList (consumes_fieldInit hg.left).mayConsume
    (consumes_fieldInit hg.right).mayConsume ⟨rfl, rfl, rfl, rfl, fun _ => rfl⟩ rfl
    ((alike_fieldInit hg rfl).ends_le (by decide)))) fun fields fields' hfields => by simp_all)
    (by decide)

theorem alike_pathExpr (hg : g.Alike L g') (hended : φ.ended = false) :
    Alike L true inside hand φ .firm (Like L) (pathExpr g) (pathExpr g') := by
  refine .bind (alike_path hended) fun path path' hpath => ?_
  obtain rfl := hpath
  refine .queryIf (literalFields g path) (literalFields g' path) rfl
    (fun cut s s' h hcontext => ?_) (fun s s' h hcontext => ?_) (fun s hs => by rw [hs]; rfl)
    (fun behind setting setting' s s' h hlt hcontext => ?_)
    (fun s s' _ _ => alike_literalFields hg path rfl) ?_
  · rw [← h.kind_alike.isSymbol_eq, ← hcontext]
    cases hsymbol : s.kind.isSymbol .leftBrace with
    | false => rfl
    | true => rw [opensFields_eq h (TokenKind.eq_of_isSymbol hsymbol)]
  · rw [h.kind_resembles.isSymbol_eq, hcontext, opensFields_resembling h]
  · rw [(h.kind_resembles hlt).isSymbol_eq, hcontext]
    obtain heq | ⟨hfalse, hmisses⟩ := opensFields_gapped h hlt
    · exact .inl (by rw [heq])
    · cases hopens : s'.kind.isSymbol .leftBrace && s'.context.structLiterals && opensFields s with
      | false => exact .inl (by rw [hfalse, Bool.and_false])
      | true =>
        have hbrace := (Bool.and_eq_true_iff.1 (Bool.and_eq_true_iff.1 hopens).1).1
        exact .inr (.inl (misses_literalFields (TokenKind.eq_of_isSymbol hbrace) hmisses path))
  · split
    · exact .value rfl
    · exact .value rfl

/-! ## Brackets and lambdas -/

theorem alike_lambdaParam {loud : Bool} (hg : g.Alike L g') (hended : φ.ended = false) :
    Alike L loud inside hand φ .firm (Like L) (lambdaParam g) (lambdaParam g') := by
  refine .start fun start start' hstart => ?_
  refine .bind (.name hended) fun name name' hname => ?_
  refine .bind (alike_typeAfterColon (χ := .firm) hg rfl (by decide) (by decide))
    fun type type' htype => ?_
  exact .part hstart fun span span' hspan => by simp_all [relabel]

theorem alike_lambdaHead {loud : Bool} (hg : g.Alike L g') (hended : φ.ended = false) :
    Alike L loud inside hand φ .behind (Like L) (lambdaHead g) (lambdaHead g') := by
  refine .expectOpening rfl hended ?_
  refine .bind (.commaList (consumes_lambdaParam hg.left.type).mayConsume
    (consumes_lambdaParam hg.right.type).mayConsume ⟨rfl, rfl, rfl, rfl, fun _ => rfl⟩ rfl
    ((alike_lambdaParam hg rfl).ends_le (by decide))) fun params params' hparams => ?_
  refine .bind (.at_le (alike_resultType hg) (by decide) (Footing.le_refl _))
    fun ret ret' hret => ?_
  refine .bind (.expectFatArrow rfl rfl) fun _ _ _ => ?_
  exact .value (by simp_all)

theorem alike_lambda (hg : g.Alike L g') (hended : φ.ended = false) :
    Alike L true inside hand φ .read (Like L) (lambda g) (lambda g') := by
  refine .bind (.acceptIf ⟨rfl, rfl, rfl, rfl, fun _ => rfl⟩ hended) fun isMove isMove' hmove => ?_
  refine .bind (alike_lambdaHead hg (Footing.ended_look hended)) ?_
  rintro ⟨params, ret⟩ ⟨params', ret'⟩ hhead
  exact .map (hg.atExpr 0 rfl) fun body body' hbody => by simp_all

theorem alike_parenOrTuple (hg : g.Alike L g') (hended : φ.ended = false) :
    Alike L true inside (some (.symbol .leftParen, .symbol .leftParen)) φ .behind (Like L)
      (parenOrTuple g) (parenOrTuple g') := by
  refine .enter rfl hended (.enclosed rfl rfl ?_)
  refine .ifAccept ⟨rfl, rfl, rfl, rfl, fun _ => rfl⟩ rfl (.value rfl) ?_
  refine .bind (hg.atExpr 0 rfl) fun first first' hfirst => ?_
  refine .ifAccept ⟨rfl, rfl, rfl, rfl, fun _ => rfl⟩ rfl ?_ ?_
  · exact .map (alike_exprList hg ⟨rfl, rfl, rfl, rfl, fun _ => rfl⟩ rfl)
      fun more more' hmore => by simp_all
  · refine .bind (.expect ⟨rfl, rfl, rfl, rfl, fun _ => rfl⟩ rfl) fun _ _ _ => ?_
    exact .value (by simp_all)

theorem parenOrLambda_eq (g : Rules) : parenOrLambda g = guess (lambdaHead g)
    (fun head => do
      let body ← expr g
      pure (.lambda ⟨false, head.1, head.2, body⟩)) (parenOrTuple g) := by
  unfold parenOrLambda guess
  congr 1
  funext lambdas
  split
  · congr 1
    funext head?
    cases head? <;> rfl
  · rfl

theorem alike_parenOrLambda (hg : g.Alike L g') (hended : φ.ended = false)
    (hstale : φ.stale = true) :
    Alike L true inside (some (.symbol .leftParen, .symbol .leftParen)) φ .read (Like L)
      (parenOrLambda g) (parenOrLambda g') := by
  rw [parenOrLambda_eq, parenOrLambda_eq]
  refine .guess rfl hended rfl (alike_lambdaHead hg hended) ?_
    ((alike_parenOrTuple hg hended).ends_le (Footing.behind_le _)) ?_ (fun _ => hstale)
    (fun _ setting s => ?_) ?_
  · rintro ⟨params, ret⟩ ⟨params', ret'⟩ hhead
    exact .map (hg.atExpr 0 rfl) fun body body' hbody => by simp_all
  · intro cut setting setting' s s' _ _ head after _ _ halike hlambdas _ hhead
    exact parenOrTuple_stopsAtArrow_of_lambdaHead hg.names halike hlambdas hhead
  · exact (consumes_lambdaHead hg.right.type).errors_eq setting s
  · intro _ behind setting setting' s s' e after head after' _ _ hgapped hlt _ hlambdas hfails hreaches
      hhead
    exact parenOrTuple_slips hg.names hg.types hg.types' hgapped hlt hlambdas hfails hreaches hhead

theorem alike_arrayExpr (hg : g.Alike L g') (hended : φ.ended = false) :
    Alike L true inside hand φ .behind (Like L) (arrayExpr g) (arrayExpr g') := by
  refine .expectOpening rfl hended (.enclosed rfl rfl ?_)
  refine .ifAccept ⟨rfl, rfl, rfl, rfl, fun _ => rfl⟩ rfl (.value rfl) ?_
  refine .bind (hg.atExpr 0 rfl) fun first first' hfirst => ?_
  refine .ifSeparator rfl ?_ ?_
  · refine .bind (hg.atExpr 0 rfl) fun count count' hcount => ?_
    refine .bind (.expect ⟨rfl, rfl, rfl, rfl, fun _ => rfl⟩ rfl) fun _ _ _ => ?_
    exact .value (by simp_all)
  · exact .map (.commaTail (hg.left.expr 0).mayConsume (hg.right.expr 0).mayConsume
      ⟨rfl, rfl, rfl, rfl, fun _ => rfl⟩ rfl ((hg.atExpr 0 rfl).ends_le (by decide)))
      fun more more' hmore => by simp_all

/-! ## Control flow -/

instance : Relabeled OpenIf :=
  ⟨fun r head => ⟨(r.span (.empty head.start)).start, relabel r head.cond,
    relabel r head.thenBranch⟩⟩

theorem openIf_like {start start' : Nat} {cond cond' : Expr} {thenBranch thenBranch' : Block}
    (hstart : L.SameOffset start start') (hcond : Like L cond cond')
    (hthen : Like L thenBranch thenBranch') :
    Like L (OpenIf.mk start cond thenBranch) (OpenIf.mk start' cond' thenBranch') := by
  have hspan : L.SameSpan (.empty start) (.empty start') := hstart.span hstart
  simp_all [relabel]

theorem sameOffset_of_openIf {head head' : OpenIf} (h : Like L head head') :
    L.SameOffset head.start head'.start := by
  intro hspans
  have hstart := congrArg OpenIf.start h
  simpa [relabel, Likeness.relabeling, hspans, Span.empty] using hstart

theorem alike_ifHead (hg : g.Alike L g') (hended : φ.ended = false) :
    Alike L true inside hand φ .behind (Like L) (ifHead g) (ifHead g') := by
  refine .start fun start start' hstart => ?_
  refine .bind (.expectKeyword (φ := φ.still) hended _) fun _ _ _ => ?_
  refine .bind (alike_condition hg rfl) fun cond cond' hcond => ?_
  exact .map (hg.atBlock rfl) fun thenBranch thenBranch' hthen => openIf_like hstart hcond hthen

/-- An `if` expression, its `else` branch having been read. -/
theorem alike_closeIf {loud : Bool} {head head' : OpenIf} {elseBranch elseBranch' : Option Expr}
    (hhead : Like L head head') (helse : Like L elseBranch elseBranch') :
    Alike L loud inside hand φ φ (Like L)
      (exprNode head.start (.ifElse head.cond head.thenBranch elseBranch))
      (exprNode head'.start (.ifElse head'.cond head'.thenBranch elseBranch')) := by
  refine alike_exprNode (sameOffset_of_openIf hhead) ?_
  simp_all [relabel]

theorem alike_closeIfs {loud : Bool} {elseBranch elseBranch' : Option Expr}
    {heads heads' : List OpenIf} (helse : Like L elseBranch elseBranch')
    (hheads : Like L heads heads') :
    Alike L loud inside hand φ φ (Like L) (closeIfs elseBranch heads)
      (closeIfs elseBranch' heads') := by
  induction heads generalizing heads' elseBranch elseBranch' hand with
  | nil =>
    cases heads' with
    | nil => exact .value helse
    | cons => simp at hheads
  | cons head heads ih =>
    cases heads' with
    | nil => simp at hheads
    | cons head' heads' =>
      obtain ⟨hhead, hheads⟩ : Like L head head' ∧ Like L heads heads' := by simpa using hheads
      exact .bind (alike_closeIf hhead helse) fun e e' he => ih (by simp_all) hheads

theorem alike_elseTurn (hg : g.Alike L g') {chain chain' : List OpenIf × Option Expr}
    (h : Like L chain chain') :
    Alike L true inside none .firm .firm (fun r r' => r.1 = r'.1 ∧ Like L r.2 r'.2)
      (elseTurn g chain) (elseTurn g' chain') := by
  obtain ⟨heads, elseBranch⟩ := chain
  obtain ⟨heads', elseBranch'⟩ := chain'
  refine .ifAccept ⟨rfl, rfl, rfl, rfl, fun _ => rfl⟩ rfl ?_ (.value ⟨rfl, by simp_all⟩)
  refine .ifKind (·.isKeyword .ifKw) rfl (fun _ => rfl) rfl (fun k k' _ => ?_) ?_
  · refine .ends_le (.map (alike_ifHead hg rfl) fun next next' hnext => ?_) (by decide)
    exact ⟨rfl, by simp_all⟩
  · refine .ends_le (.map (alike_blockExpr hg rfl) fun e e' he => ?_) (by decide)
    exact ⟨rfl, by simp_all⟩

theorem alike_ifExpr (hg : g.Alike L g') (hended : φ.ended = false) :
    Alike L true inside hand φ .firm (Like L) (ifExpr g) (ifExpr g') := by
  refine .bind (alike_ifHead hg hended) fun first first' hfirst => ?_
  have hchain : Alike L true inside none .behind .firm (Like L)
      (loop (elseTurn g) ([], none)) (loop (elseTurn g') ([], none)) :=
    .at_le (.loop rfl (progresses (follows_elseTurn hg.left)) (progresses (follows_elseTurn hg.right))
      (fun _ _ => alike_elseTurn hg) rfl) (by decide) (Footing.le_refl _)
  refine .bind hchain ?_
  rintro ⟨heads, elseBranch⟩ ⟨heads', elseBranch'⟩ h
  obtain ⟨hheads, helse⟩ : Like L heads heads' ∧ Like L elseBranch elseBranch' := by simpa using h
  exact .bind (alike_closeIfs helse hheads) fun inner inner' hinner => alike_closeIf hfirst hinner

theorem alike_matchArm (hg : g.Alike L g') (hended : φ.ended = false) :
    Alike L true inside hand φ .read (Like L) (matchArm g) (matchArm g') := by
  refine .start fun start start' hstart => ?_
  refine .bind (hg.atPattern hended) fun pattern pattern' hpattern => ?_
  refine .bind (.optional ⟨rfl, rfl, rfl, rfl, fun _ => rfl⟩ rfl (Footing.le_refl _)
    ((alike_armHead hg rfl rfl).ends_le (by decide))) fun guard guard' hguard => ?_
  refine .bind (.expectFatArrow rfl rfl) fun _ _ _ => ?_
  refine .bind (alike_armBody hg rfl) fun body body' hbody => ?_
  refine .bind (.spanFrom hstart) fun span span' hspan => ?_
  refine .map (.acceptIf ⟨rfl, rfl, rfl, rfl, fun _ => rfl⟩ rfl) fun _ _ _ => ?_
  simp_all

theorem alike_matchTurn (hg : g.Alike L g') :
    Alike L true inside none .unread .unread (fun r r' => r.1 = r'.1 ∧ Like L r.2 r'.2) (matchTurn g)
      (matchTurn g') := by
  refine alike_atBodyEnd rfl fun atEnd => ?_
  split
  · exact .value ⟨rfl, rfl⟩
  · exact .map ((alike_matchArm hg rfl).ends_le (by decide)) fun arm arm' harm => ⟨rfl, by simp_all⟩

theorem alike_matchExpr (hg : g.Alike L g') (hended : φ.ended = false) :
    Alike L true inside hand φ .behind (Like L) (matchExpr g) (matchExpr g') := by
  refine .bind (.expectKeyword hended _) fun _ _ _ => ?_
  refine .bind (alike_condition hg rfl) fun scrutinee scrutinee' hscrutinee => ?_
  refine .expectOpening rfl rfl ?_
  refine .enclosedExpect ⟨rfl, rfl, rfl, rfl, fun _ => rfl⟩ rfl (.at_le (.collect rfl
    (follows_matchTurn hg.left) (follows_matchTurn hg.right) (alike_matchTurn hg)) (by decide)
    (Footing.le_refl _)) fun arms arms' harms => ?_
  exact .value (by simp_all)

theorem alike_tryExpr (hg : g.Alike L g') (hended : φ.ended = false) :
    Alike L true inside hand φ .firm (Like L) (tryExpr g) (tryExpr g') := by
  refine .bind (.expectKeyword hended _) fun _ _ _ => ?_
  refine .bind (hg.atBlock rfl) fun body body' hbody => ?_
  refine .ifKind (·.isKeyword .catchKw) rfl (fun _ => rfl) rfl (fun k k' hk => ?_) ?_
  · obtain rfl := TokenKind.eq_of_isKeyword hk
    refine .start fun start start' hstart => ?_
    refine .pass rfl ⟨nofun, nofun, Footing.le_refl _⟩ ?_
    have hbinding : Alike L true inside none .behind .firm (· = ·)
        (optional (query fun s => s.kind.isName) name)
        (optional (query fun s => s.kind.isName) name) := by
      refine .ifKind TokenKind.isName rfl (fun _ => rfl) rfl (fun k k' _ => ?_) ?_
      · exact .ends_le (.map (.name rfl) fun name name' hname => by rw [hname]) (by decide)
      · exact .value rfl
    refine .bind hbinding fun binding binding' hbinding => ?_
    refine .bind (hg.atBlock rfl) fun handler handler' hhandler => ?_
    refine .bind (.spanFrom hstart) fun span span' hspan => ?_
    exact .done (by simp_all) (by decide)
  · exact .value (by simp_all)

/-! ## Concurrency -/

theorem alike_spawnExpr (hg : g.Alike L g') (hended : φ.ended = false) :
    Alike L true inside hand φ .read (Like L) (spawnExpr g) (spawnExpr g') := by
  refine .bind (.expectKeyword hended _) fun _ _ _ => ?_
  refine .ifKind (fun k => k.isKeyword .moveKw || k.isSymbol .leftParen) rfl
    (fun _ => rfl) rfl (fun k k' _ => ?_) ?_
  · exact .map (alike_lambda hg rfl) fun lambda lambda' hlambda => by simp_all
  · refine .bind (.name rfl) fun name name' hname => ?_
    refine .bind (.at_le (alike_typeArgs hg) (by decide) (Footing.le_refl _))
      fun typeArgs typeArgs' htypeArgs => ?_
    refine .ends_le (.map (alike_args hg rfl) fun args args' hargs => ?_) (Footing.behind_le _)
    simp_all

theorem alike_selectArm (hg : g.Alike L g') (hended : φ.ended = false) :
    Alike L true inside hand φ .read (Like L) (selectArm g) (selectArm g') := by
  refine .start fun start start' hstart => ?_
  refine .bind (.name hended) fun binding binding' hbinding => ?_
  refine .bind (.expectWord rfl _) fun _ _ _ => ?_
  refine .bind (alike_armHead hg rfl rfl) fun source source' hsource => ?_
  refine .bind (.expectFatArrow rfl rfl) fun _ _ _ => ?_
  refine .bind (alike_armBody hg rfl) fun body body' hbody => ?_
  exact .part hstart fun span span' hspan => by simp_all

theorem alike_timeoutArm {word : String} {k' : TokenKind} (hg : g.Alike L g')
    (hended : φ.ended = false) :
    Alike L true inside (some (.ident word, k')) φ .read (Like L) (timeoutArm g)
      (timeoutArm g') := by
  refine .start fun start start' hstart => ?_
  refine .pass hended ⟨nofun, nofun, Footing.le_refl _⟩ ?_
  refine .bind (alike_armHead hg rfl rfl) fun duration duration' hduration => ?_
  refine .bind (.expectFatArrow rfl rfl) fun _ _ _ => ?_
  refine .bind (alike_armBody hg rfl) fun body body' hbody => ?_
  exact .part hstart fun span span' hspan => by simp_all

theorem alike_armSeparator {loud : Bool} :
    Alike L loud inside hand .read .unread (fun _ _ => True) armSeparator armSeparator :=
  .ifAccept ⟨rfl, rfl, rfl, rfl, fun _ => rfl⟩ rfl (.done trivial (by decide))
    (.ifSees nofun rfl (.value trivial) (.expected rfl _))

/-- Whether the word at hand is a keyword here depends on the token after it. -/
theorem wordBefore_eq {cut : Cut} {s s' : State} (h : Lexeme.AlikeUpTo L cut s.rest s'.rest)
    (word : String) (test : TokenKind → Bool)
    (hstrings : ∀ fs fs', test (.interpolated fs) = test (.interpolated fs')) :
    (s.kind.isWord word && test (s.peek 1)) = (s'.kind.isWord word && test (s'.peek 1)) := by
  rw [← h.kind_alike.isWord_eq]
  cases hword : s.kind.isWord word with
  | false => rfl
  | true =>
    have hs := TokenKind.eq_of_isWord hword
    rw [(h.peek_alike (by simp [hs]) (by simp [hs])).test_eq _ hstrings]

/-- Two ways on, of which a word that is a keyword only before certain tokens tells the one.  Where
the missing semicolon would be that token, the way it leads away from misses its next one. -/
theorem Alike.ifWordBefore {β : Type} {S : β → β → Prop} {yes yes' no no' : Parser β} (word : String)
    (test : TokenKind → Bool) (hstrings : ∀ fs fs', test (.interpolated fs) = test (.interpolated fs'))
    (hended : φ.ended = false)
    (hmisses : ∀ setting s, s.kind = .ident word → s.peek 1 = .symbol .semicolon →
      (if test (.symbol .semicolon) then no' else yes').Misses s.advance.rest.length setting s)
    (hyes : ∀ k', Alike L loud inside (some (.ident word, k')) φ.look.still χ S yes yes')
    (hno : Alike L loud inside none φ.look χ S no no') :
    Alike L loud inside hand φ χ S
      (do if ← Parser.query fun s => s.kind.isWord word && test (s.peek 1) then yes else no)
      (do if ← Parser.query fun s => s.kind.isWord word && test (s.peek 1) then yes' else no') := by
  refine .queryIf _ _ hended (fun _ _ _ h _ => wordBefore_eq h word test hstrings)
    (fun s s' h _ => ?_) (fun s hs => by rw [hs]; rfl)
    (fun behind setting setting' s s' h hlt _ => ?_) (fun s s' hs _ => ?_) hno
  · rw [h.kind_resembles.isWord_eq, h.peek_resembles.test_eq _ hstrings]
  · rw [(h.kind_resembles hlt).isWord_eq]
    obtain ⟨-, hpeek⟩ | ⟨hlength, hpeek⟩ := h.peek hlt
    · exact .inl (by rw [hpeek.test_eq _ hstrings])
    cases hword : s'.kind.isWord word with
    | false => exact .inl rfl
    | true =>
      have hmisses := hmisses setting' s' (TokenKind.eq_of_isWord hword) hpeek
      rw [(h.advance hlt).length_eq, hlength] at hmisses
      rw [hpeek]
      cases htest : test (s.peek 1) <;> cases hsemicolon : test (.symbol .semicolon)
      · exact .inl rfl
      · rw [hsemicolon] at hmisses
        exact .inr (.inl hmisses)
      · rw [hsemicolon] at hmisses
        exact .inr (.inl hmisses)
      · exact .inl rfl
  · rw [TokenKind.eq_of_isWord (Bool.and_eq_true_iff.1 hs).1]
    exact hyes _

/-- An arm that nothing but a semicolon follows the name of. -/
theorem misses_selectArm {setting : Setting} {s : State} {name : String} (hname : s.kind = .ident name)
    (hnext : s.peek 1 = .symbol .semicolon) :
    (selectArm g).Misses s.advance.rest.length setting s := by
  have hread : Parser.name setting s = .ok name s.advance := by
    rw [Parser.name, valueOf_eq, hname]
  refine .of_ok (a := (s.span setting).start) rfl (.of_ok hread ((misses_require ?_ _).bind _))
  rw [kind_advance, hnext]
  rfl

theorem alike_anyArm (hg : g.Alike L g') {arms arms' : List SelectArm × Option TimeoutArm}
    (h : Like L arms arms') :
    Alike L true true hand .unread .read (Like L) (anyArm g arms) (anyArm g' arms') := by
  obtain ⟨selects, timeout⟩ := arms
  obtain ⟨selects', timeout'⟩ := arms'
  obtain ⟨hselects, htimeout⟩ : Like L selects selects' ∧ Like L timeout timeout' := by simpa using h
  refine .ifWordBefore "after" (fun k => !k.isWord "from") (fun _ _ => rfl) rfl
    (fun setting s hs hnext => (misses_selectArm hs hnext).bind _) (fun k' => ?_) ?_
  · refine .span fun keyword keyword' hkeyword => ?_
    refine .bind (alike_timeoutArm hg rfl) fun arm arm' harm => ?_
    cases timeout with
    | none =>
      cases timeout' with
      | none => exact .value (by simp_all)
      | some => simp at htimeout
    | some first =>
      cases timeout' with
      | none => simp at htimeout
      | some first' =>
        refine .bind (.duplicate .afterArm hkeyword) fun _ _ _ => ?_
        exact .value (by simp_all)
  · exact .map (alike_selectArm hg rfl) fun arm arm' harm => by simp_all

theorem alike_selectTurn (hg : g.Alike L g') {arms arms' : List SelectArm × Option TimeoutArm}
    (h : Like L arms arms') :
    Alike L true true none .unread .unread (fun r r' => r.1 = r'.1 ∧ Like L r.2 r'.2)
      (selectTurn g arms) (selectTurn g' arms') := by
  refine alike_atBodyEnd rfl fun atEnd => ?_
  split
  · exact .value ⟨rfl, h⟩
  · refine .bind (alike_anyArm hg h) fun arms arms' harms => ?_
    exact .bind alike_armSeparator fun _ _ _ => .value ⟨rfl, harms⟩

theorem alike_selectExpr {keyword : Keyword} {k' : TokenKind} (hg : g.Alike L g')
    (kind : SelectKind) (hended : φ.ended = false) :
    Alike L true inside (some (.keyword keyword, k')) φ .behind (Like L) (selectExpr g kind)
      (selectExpr g' kind) := by
  refine .pass hended ⟨nofun, nofun, Footing.le_refl _⟩ ?_
  refine .expectOpening rfl rfl ?_
  have harms : Alike L true true none .behind .unread (Like L)
      (loop (selectTurn g) ([], none)) (loop (selectTurn g') ([], none)) :=
    .at_le (.loop rfl (progresses (follows_selectTurn hg.left))
      (progresses (follows_selectTurn hg.right)) (fun _ _ => alike_selectTurn hg) rfl) (by decide)
      (Footing.le_refl _)
  refine .enclosedExpect ⟨rfl, rfl, rfl, rfl, fun _ => rfl⟩ rfl harms ?_
  rintro ⟨arms, timeout⟩ ⟨arms', timeout'⟩ h
  obtain ⟨harms, htimeout⟩ : Like L arms arms' ∧ Like L timeout timeout' := by simpa using h
  have hreverse := relabel_reverse L.relabeling arms
  exact .value (by simp_all)

theorem alike_joinExpr (hg : g.Alike L g') (hended : φ.ended = false) :
    Alike L true inside hand φ .behind (Like L) (joinExpr g) (joinExpr g') := by
  refine .bind (.expectKeyword hended _) fun _ _ _ => ?_
  refine .expectOpening rfl rfl ?_
  have helems : Alike L true true none .behind .behind (Like L)
      (do
        let first ← expr g
        let more ← commaTail .rightBrace (expr g)
        pure (first :: more))
      (do
        let first ← expr g'
        let more ← commaTail .rightBrace (expr g')
        pure (first :: more)) := by
    refine .bind (hg.atExpr 0 rfl) fun first first' hfirst => ?_
    exact .map (.commaTail (hg.left.expr 0).mayConsume (hg.right.expr 0).mayConsume
      ⟨rfl, rfl, rfl, rfl, fun _ => rfl⟩ rfl ((hg.atExpr 0 rfl).ends_le (by decide)))
      fun more more' hmore => by simp_all
  exact .map (.enclosed rfl rfl helems) fun elems elems' helems => by simp_all

theorem alike_scopeExpr (hg : g.Alike L g') (hended : φ.ended = false) :
    Alike L true inside hand φ .behind (Like L) (scopeExpr g) (scopeExpr g') := by
  have hcall (kind : ExprKind) : Alike L true inside none .behind .behind (Like L)
      (do
        expect .leftParen
        expect .rightParen
        pure kind)
      (do
        expect .leftParen
        expect .rightParen
        pure kind) := by
    refine .expectOpening rfl rfl ?_
    exact .bind (.expect ⟨rfl, rfl, rfl, rfl, fun _ => rfl⟩ rfl) fun _ _ _ => .value rfl
  refine .bind (.expectKeyword hended _) fun _ _ _ => ?_
  refine .ifSees nofun rfl ?_ ?_
  · exact .map (hg.atBlock rfl) fun block block' hblock => by simp_all
  refine .ifAccept ⟨rfl, rfl, rfl, rfl, fun _ => rfl⟩ rfl ?_ (.expected rfl _)
  refine .ifAccept ⟨rfl, rfl, rfl, rfl, fun _ => rfl⟩ rfl ?_ ?_
  · exact .map (hg.atBlock rfl) fun block block' hblock => by simp_all
  refine .ifAccept ⟨rfl, rfl, rfl, rfl, fun _ => rfl⟩ rfl (hcall _) ?_
  refine .ifAccept ⟨rfl, rfl, rfl, rfl, fun _ => rfl⟩ rfl (hcall _) ?_
  exact .expected rfl _

/-! ## Operands -/

/-- A token that is an expression by itself. -/
theorem alike_single {k k' : TokenKind} (kind : ExprKind) (hended : φ.ended = false)
    (hk : Passable φ.still .behind k) :
    Alike L true inside (some (k, k')) φ .behind (Like L) (asExpr (single kind))
      (asExpr (single kind)) :=
  alike_asExpr (.pass hended hk (.value rfl))

theorem alike_applied {k k' : TokenKind} {operand operand' : Parser Expr} {make : Expr → ExprKind}
    (hended : φ.ended = false) (hk : Passable φ.still .behind k)
    (h : Alike L true inside none .behind .read (Like L) operand operand')
    (hmake : ∀ e e', Like L e e' → Like L (make e) (make e')) :
    Alike L true inside (some (k, k')) φ .read (Like L) (asExpr (applied operand make))
      (asExpr (applied operand' make)) :=
  alike_asExpr (.pass hended hk (.map h hmake))

theorem alike_operand (hg : g.Alike L g') (hended : φ.ended = false) :
    Alike L true inside hand φ .read (Like L) (operand g) (operand g') := by
  have hlook : φ.look.still.ended = false := hended
  have hbehind {p p' : Parser Expr} {hand : Hand}
      (h : Alike L true inside hand φ.look.still .behind (Like L) p p') :
      Alike L true inside hand φ.look.still .read (Like L) p p' := h.ends_le (Footing.behind_le _)
  have hfirm {p p' : Parser Expr} {hand : Hand}
      (h : Alike L true inside hand φ.look.still .firm (Like L) p p') :
      Alike L true inside hand φ.look.still .read (Like L) p p' := h.ends_le (by decide)
  refine .onKind _ _ hended (fun fragments fragments' hmatches => ?_) fun k => ?_
  · exact hbehind (alike_asExpr (alike_interpolatedString hg hmatches hlook))
  have hpass (h : k ≠ .endOfFile) (harrow : k.isArrow = false) (hsemicolon : k ≠ .symbol .semicolon) :
      Passable φ.look.still.still .behind k :=
    ⟨h, fun h => absurd (harrow.symm.trans h) Bool.false_ne_true,
      (Footing.after_of_ne_semicolon hsemicolon).symm ▸ Footing.le_refl _⟩
  split
  · exact hfirm (alike_asExpr (alike_integerOrDuration hlook))
  · exact hbehind (alike_single _ hlook (hpass nofun rfl nofun))
  · exact hbehind (alike_single _ hlook (hpass nofun rfl nofun))
  · exact hbehind (alike_asExpr (alike_interpolatedString hg (.same _) hlook))
  · exact hbehind (alike_single _ hlook (hpass nofun rfl nofun))
  · exact hbehind (alike_single _ hlook (hpass nofun rfl nofun))
  · exact hbehind (alike_single _ hlook (hpass nofun rfl nofun))
  · exact hbehind (alike_single _ hlook (hpass nofun rfl nofun))
  · exact hfirm (alike_asExpr (alike_pathExpr hg hlook))
  · exact alike_asExpr (alike_parenOrLambda hg hlook rfl)
  · exact hbehind (alike_asExpr (alike_arrayExpr hg hlook))
  · exact hbehind (alike_blockExpr hg hlook)
  · refine alike_applied hlook (hpass nofun rfl nofun) (hg.atExpr unaryPower rfl) ?_
    exact fun e e' he => by simp_all
  · refine alike_applied hlook (hpass nofun rfl nofun) (hg.atExpr unaryPower rfl) ?_
    exact fun e e' he => by simp_all
  · refine alike_applied hlook (hpass nofun rfl nofun) (hg.atExpr unaryPower rfl) ?_
    exact fun e e' he => by simp_all
  · refine alike_applied hlook (hpass nofun rfl nofun) (hg.atExpr 0 rfl) ?_
    exact fun e e' he => by simp_all
  · exact hfirm (alike_ifExpr hg hlook)
  · exact hbehind (alike_asExpr (alike_matchExpr hg hlook))
  · refine alike_asExpr (.map (alike_lambda hg hlook) ?_)
    exact fun lambda lambda' hlambda => by simp_all
  · exact alike_asExpr (alike_spawnExpr hg hlook)
  · exact hbehind (alike_asExpr (alike_selectExpr hg _ hlook))
  · exact hbehind (alike_asExpr (alike_selectExpr hg _ hlook))
  · exact hbehind (alike_asExpr (alike_joinExpr hg hlook))
  · exact hbehind (alike_asExpr (alike_scopeExpr hg hlook))
  · exact hfirm (alike_asExpr (alike_tryExpr hg hlook))
  · refine hbehind (alike_asExpr (.pass hlook (hpass nofun rfl nofun) ?_))
    exact .map (hg.atBlock rfl) fun block block' hblock => by simp_all
  · exact .expected hlook _

/-! ## Continuations and operators -/

theorem alike_indexPair {value : Binary64} {k' : TokenKind} {object object' : Expr}
    (hobject : Like L object object') (hended : φ.ended = false) :
    Alike L true inside (some (.float value, k')) φ .behind (Like L) (indexPair object)
      (indexPair object') := by
  refine .span fun token token' htoken => ?_
  refine .text nofun nofun nofun hended (fun _ => rfl) fun text => ?_
  obtain ⟨first, second⟩ := splitIndices text
  refine .pass hended ⟨nofun, nofun, Footing.le_refl _⟩ ?_
  refine .bind .freshId fun id id' hid => ?_
  have hstart := (Expr.sameSpan hobject).start
  have hspan : L.SameSpan
      ⟨object.span.start, token.start + Source.byteLength first⟩
      ⟨object'.span.start, token'.start + Source.byteLength first⟩ :=
    hstart.span fun hspans => by rw [htoken.1.start hspans]
  refine alike_exprNode hstart ?_
  simp_all

theorem alike_member (hg : g.Alike L g') {object object' : Expr} (hobject : Like L object object')
    (hended : φ.ended = false) :
    Alike L true inside hand φ .firm (Like L) (member g object) (member g' object') := by
  have hlook : φ.look.still.ended = false := hended
  have hstart := (Expr.sameSpan hobject).start
  refine .onKind _ _ hended (fun _ _ _ => .expected hlook _) fun k => ?_
  split
  · refine .pass hlook ⟨nofun, nofun, Footing.le_refl _⟩ (.ifSees nofun rfl ?_ ?_)
    · refine .bind (alike_args hg rfl) fun args args' hargs => ?_
      refine .ends_le (alike_exprNode hstart ?_) (by decide)
      simp_all
    · refine alike_exprNode hstart ?_
      simp_all
  · refine .text nofun nofun nofun hlook (fun _ => rfl) fun text => ?_
    refine .pass hlook ⟨nofun, nofun, Footing.le_refl _⟩ ?_
    refine .ends_le (alike_exprNode hstart ?_) (Footing.behind_le _)
    simp_all
  · exact .ends_le (alike_indexPair hobject hlook) (by decide)
  · exact .expected hlook _

theorem alike_continuation (hg : g.Alike L g') {left left' : Expr} (hleft : Like L left left')
    (hended : φ.ended = false) :
    Alike L true inside hand φ .firm (Like L) (continuation g left) (continuation g' left') := by
  have hlook : φ.look.still.ended = false := hended
  have hstart := (Expr.sameSpan hleft).start
  refine .onKind _ _ hended (fun _ _ _ => .expected hlook _) fun k => ?_
  split
  · refine .bind (alike_args hg hlook) fun args args' hargs => ?_
    refine .ends_le (alike_exprNode hstart ?_) (by decide)
    simp_all
  · refine .enter rfl hlook ?_
    refine .enclosedExpect ⟨rfl, rfl, rfl, rfl, fun _ => rfl⟩ rfl (hg.atExpr 0 rfl)
      fun index index' hindex => ?_
    refine .ends_le (alike_exprNode hstart ?_) (by decide)
    simp_all
  · refine .pass hlook ⟨nofun, nofun, Footing.le_refl _⟩ ?_
    refine .ends_le (alike_exprNode hstart ?_) (by decide)
    simp_all
  · exact .pass hlook ⟨nofun, nofun, Footing.le_refl _⟩ (alike_member hg hleft rfl)
  · exact .expected hlook _

/-- The token of an operator may be passed over. -/
theorem passable_of_ofToken? {k : TokenKind} {op : OperatorToken}
    (hk : OperatorToken.ofToken? k = some op) : Passable φ .behind k :=
  (show Ordinary fun k => (OperatorToken.ofToken? k).isSome from
    ⟨rfl, rfl, rfl, rfl, fun _ => rfl⟩).passable (by simp [hk]) φ

theorem alike_operation {k k' : TokenKind} {op : OperatorToken} (hg : g.Alike L g')
    {left left' : Expr} (hleft : Like L left left') (hended : φ.ended = false)
    (hk : OperatorToken.ofToken? k = some op) :
    Alike L true inside (some (k, k')) φ .read (Like L) (operation g op left)
      (operation g' op left') := by
  refine .pass hended (passable_of_ofToken? hk) ?_
  refine .bind (hg.atExpr op.rightPower rfl) fun right right' hright => ?_
  have hspan := (Expr.sameSpan hleft).cover (Expr.sameSpan hright)
  refine .map .freshId fun id id' hid => ?_
  cases op <;> simp_all [OperatorToken.apply]

/-- A token that is taken into an expression to its left. -/
def extending? (minPower : Nat) (k : TokenKind) : Option TokenKind :=
  if k.power?.any fun power => minPower ≤ power then some k else none

/-- A token of an operator or a continuation, with what belongs to it. -/
def extension (g : Rules) (left : Expr) (k : TokenKind) : Parser Expr :=
  match OperatorToken.ofToken? k with
  | some op => operation g op left
  | none => continuation g left

theorem extend_eq_kind (minPower : Nat) (left : Expr) : extend g minPower left = (kind >>= fun k =>
    (extending? minPower k).elim (pure (false, left)) fun k => do
      pure (true, ← extension g left k)) := by
  unfold extend
  congr 1
  funext k
  unfold extending? extension TokenKind.power?
  cases hpower : continuationPower? k with
  | some power =>
    have hnone : OperatorToken.ofToken? k = none := by
      unfold continuationPower? at hpower
      split at hpower <;> first | rfl | cases hpower
    by_cases hlt : power < minPower
    · simp [hlt, Nat.not_le.2 hlt]
    · simp [hlt, Nat.le_of_not_lt hlt, hnone]
  | none =>
    cases hop : OperatorToken.ofToken? k with
    | some op =>
      by_cases hlt : op.power < minPower
      · simp [hlt, Nat.not_le.2 hlt]
      · simp [hlt, Nat.le_of_not_lt hlt, hop]
    | none => rfl

theorem alike_extend (hg : g.Alike L g') (minPower : Nat) {left left' : Expr}
    (hleft : Like L left left') :
    Alike L true inside none .read .read (fun r r' => r.1 = r'.1 ∧ Like L r.2 r'.2)
      (extend g minPower left) (extend g' minPower left') := by
  rw [extend_eq_kind, extend_eq_kind]
  refine .ifValue rfl (fun _ => rfl) rfl (fun k k' _ hk => ?_) (.value ⟨rfl, hleft⟩)
  refine .map (R := Like L) ?_ fun e e' he => ⟨rfl, he⟩
  obtain rfl : k = _ := by
    unfold extending? at hk
    split at hk
    · exact Option.some.inj hk
    · cases hk
  unfold extension
  split
  case h_1 op hop => exact alike_operation hg hleft rfl hop
  case h_2 => exact (alike_continuation hg hleft rfl).ends_le (by decide)

theorem alike_exprRule (hg : g.Alike L g') (minPower : Nat) (hended : φ.ended = false) :
    Alike L true inside hand φ .read (Like L) (exprRule g minPower) (exprRule g' minPower) := by
  refine .bind (alike_operand hg hended) fun first first' hfirst => ?_
  exact .loop rfl (progresses (follows_extend hg.left minPower))
    (progresses (follows_extend hg.right minPower)) (fun _ _ => alike_extend hg minPower) hfirst

end Parser

end ActorFrontend
