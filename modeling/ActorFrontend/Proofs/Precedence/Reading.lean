import ActorFrontend.Proofs.Precedence.Plain

/-!
# Reading the parts of terms

How operands, arguments, continuations and operations are read from the tokens that spell them, if
the rules read the terms within.
-/

namespace ActorFrontend

variable {setting : Setting} {s : State} {k : TokenKind} {ks rest : List TokenKind}

/-- The rules read the term from the tokens, on the nesting level `depth`. -/
def Rules.Reads (g : Rules) (setting : Setting) (depth m : Nat) (t : Term) (ks : List TokenKind) :
    Prop :=
  ∀ s rest, s.kinds = ks ++ rest → s.depth = depth → Behind m rest →
    (g.expr m setting s).Gives rest depth fun e => e.term? = some t

namespace Parser

variable {g : Rules}

/-! ## Operands -/

theorem gives_asExpr {kind : Parser ExprKind} {t : Term} {depth : Nat}
    (h : (kind setting s).Gives ks depth fun k => k.term? = some t) :
    (asExpr kind setting s).Gives ks depth fun e => e.term? = some t := by
  rw [asExpr, start_bind]
  apply Reply.Gives.bind h
  intro k s' hk hks hdepth
  exact ⟨hk, hks, hdepth⟩

theorem durationUnit?_eq_none (h : ∀ name, s.kind ≠ .ident name) :
    durationUnit? setting s = .ok none s := by
  unfold durationUnit?
  split
  case h_1 name hname => exact absurd hname (h name)
  case h_2 => rfl

theorem gives_int {value : UInt64} (hs : s.kinds = .int value :: ks)
    (hname : ∀ name, ks.head? ≠ some (.ident name)) :
    (integerOrDuration value setting s).Gives ks s.depth
      fun k => k.term? = some (.int value) := by
  obtain ⟨hkinds, hdepth⟩ := State.kinds_advance hs
  have hkind : ∀ name, s.advance.kind ≠ .ident name := by
    intro name heq
    cases hks : ks with
    | nil =>
      have hend := State.kind_eq_endOfFile (hkinds.trans hks)
      rw [hend] at heq
      cases heq
    | cons k ks' =>
      have hfirst := State.kind_eq (hkinds.trans hks)
      apply hname name
      rw [hks, List.head?_cons, ← hfirst, heq]
  rw [integerOrDuration, advance_bind]
  rw [bind_ok (durationUnit?_eq_none hkind)]
  exact ⟨rfl, hkinds, hdepth⟩

theorem path_eq {name : String} (hs : s.kinds = .ident name :: ks)
    (hplain : ∀ k ∈ ks, k.isPlain = true) : path setting s = .ok [name] s.advance := by
  have hkinds := (State.kinds_advance hs).1
  have hcolons : s.advance.kind.isSymbol .colonColon = false :=
    TokenKind.isSymbol_eq_false (State.isPlain_kind (hkinds ▸ hplain)) rfl
  have hmore : (collect do
      if ← query fun s => s.kind.isSymbol .colonColon && (s.peek 1).isName then
        advance
        let part ← Parser.name
        pure (true, [part])
      else
        pure (false, [])) setting s.advance = .ok [] s.advance := by
    apply collect_eq
    rw [query_bind, hcolons]
    rfl
  have hname : Parser.name setting s = .ok name s.advance := by
    rw [Parser.name, valueOf_eq, State.kind_eq hs]
  rw [path, bind_ok hname, bind_ok hmore]
  rfl

theorem gives_pathExpr {g : Rules} {name : String} (hs : s.kinds = .ident name :: ks)
    (hplain : ∀ k ∈ ks, k.isPlain = true) :
    (pathExpr g setting s).Gives ks s.depth fun k => k.term? = some (.name name) := by
  have hkinds := (State.kinds_advance hs).1
  have hbrace : s.advance.kind.isSymbol .leftBrace = false :=
    TokenKind.isSymbol_eq_false (State.isPlain_kind (hkinds ▸ hplain)) rfl
  rw [pathExpr, bind_ok (path_eq hs hplain), query_bind, hbrace]
  exact ⟨rfl, State.kinds_advance hs⟩

theorem gives_parenOrTuple {t : Term}
    (hs : s.kinds = .symbol .leftParen :: (ks ++ .symbol .rightParen :: rest))
    (ht : t.Spelled ks) (hrest : ∀ k ∈ rest, k.isPlain = true)
    (hread : g.Reads setting s.depth 0 t ks) :
    (parenOrTuple g setting s).Gives rest s.depth fun k => k.term? = some (.paren t) := by
  obtain ⟨hkinds, hdepth⟩ := State.kinds_advance hs
  obtain ⟨k, ks', rfl, hk⟩ := ht.head
  rw [parenOrTuple, advance_bind]
  apply gives_enclosed
  intro s₁ hkinds₁ hdepth₁
  -- neither is the tuple empty, nor does it go on behind the term
  have hfirst : s₁.kind.isSymbol .rightParen = false := by
    rw [State.kind_eq (hkinds₁.trans hkinds)]
    exact hk
  apply Reply.Gives.bind (gives_unaccepted hfirst)
  intro found s₂ hfound hkinds₂ hdepth₂
  subst hfound
  apply Reply.Gives.bind (hread s₂ _ (hkinds₂.trans (hkinds₁.trans hkinds)) (by omega)
    (.cons rfl rfl rfl hrest))
  intro inner s₃ hinner hkinds₃ hdepth₃
  have hclose : s₃.kind.isSymbol .comma = false := by
    rw [State.kind_eq hkinds₃]
    rfl
  apply Reply.Gives.bind (gives_unaccepted hclose)
  intro found s₄ hfound hkinds₄ hdepth₄
  subst hfound
  apply Reply.Gives.bind (gives_require (hkinds₄.trans hkinds₃) rfl)
  intro _ s₅ _ hkinds₅ hdepth₅
  refine ⟨?_, hkinds₅, by omega⟩
  simp [hinner]

theorem gives_parenOrLambda {t : Term}
    (hs : s.kinds = .symbol .leftParen :: (ks ++ .symbol .rightParen :: rest))
    (ht : t.Spelled ks) (hrest : ∀ k ∈ rest, k.isPlain = true)
    (hread : g.Reads setting s.depth 0 t ks) :
    (parenOrLambda g setting s).Gives rest s.depth fun k => k.term? = some (.paren t) := by
  have hplain : ∀ k ∈ s.kinds, k.isPlain = true := by
    have hplain := ht.plain
    rw [hs]
    simpa [TokenKind.isPlain, or_imp, forall_and] using ⟨hplain, hrest⟩
  rw [parenOrLambda, query_bind]
  split
  · have hhead : (lambdaHead g setting s).Ends (fun _ _ => False) fun _ => True :=
      ends_lambdaHead g hplain
    change (bind (attempt (lambdaHead g)) _ setting s).Gives rest s.depth _
    rw [bind, attempt]
    cases hreply : lambdaHead g setting s with
    | ok a after =>
      rw [hreply] at hhead
      exact hhead.elim
    -- what was tried leaves the tokens and the depth as they were
    | fail e after => exact gives_parenOrTuple hs ht hrest hread
  · exact gives_parenOrTuple hs ht hrest hread

theorem gives_applied {t : Term} {operand : Parser Expr} (op : PrefixOp)
    (hoperand : (operand setting s.advance).Gives rest s.depth fun e => e.term? = some t) :
    (applied operand op.apply setting s).Gives rest s.depth
      fun k => k.term? = some (.prefixed op t) := by
  rw [applied, advance_bind]
  apply Reply.Gives.bind hoperand
  intro e s' he hkinds hdepth
  refine ⟨?_, hkinds, hdepth⟩
  show (op.apply e).term? = _
  rw [PrefixOp.term?_apply, he]
  rfl

/-! ## Arguments -/

theorem commaTurn_close (hs : s.kinds = .symbol .rightParen :: rest) :
    commaTurn .rightParen (expr g) setting s = .ok (false, []) s := by
  have hclose : s.kind.isSymbol .rightParen = true := by
    rw [State.kind_eq hs]
    rfl
  rw [commaTurn, sees, query_bind, hclose]
  rfl

/-- A turn that reads an argument goes on if a comma follows. -/
theorem commaTurn_eq {arg : Term} (harg : arg.Spelled ks) (hs : s.kinds = ks ++ k :: rest)
    (hread : g.Reads setting s.depth 0 arg ks) (hbehind : Behind 0 (k :: rest)) :
    ∃ e s', commaTurn .rightParen (expr g) setting s = .ok (k.isSymbol .comma, [e]) s' ∧
      e.term? = some arg ∧ s'.kinds = (if k.isSymbol .comma = true then rest else k :: rest) ∧
      s'.depth = s.depth := by
  -- a term does not start with a closing parenthesis
  obtain ⟨first, ks', hks, hfirst⟩ := harg.head
  have hkind : s.kind.isSymbol .rightParen = false := by
    rw [hks] at hs
    rw [State.kind_eq hs, hfirst]
  obtain ⟨e, s₁, hrun, he, hkinds, hdepth⟩ := (hread s _ hs rfl hbehind).exists_eq
  have hturn : commaTurn .rightParen (expr g) setting s =
      (accept .comma >>= fun again => pure (again, [e])) setting s₁ := by
    rw [commaTurn, sees, query_bind, hkind]
    exact bind_ok hrun
  have haccept := acceptIf_eq (·.isSymbol .comma) setting s₁
  rw [State.kind_eq hkinds] at haccept
  by_cases hcomma : k.isSymbol .comma = true
  · obtain ⟨hkinds', hdepth'⟩ := State.kinds_advance hkinds
    rw [if_pos hcomma] at haccept
    rw [if_pos hcomma, hturn, hcomma]
    exact ⟨e, s₁.advance, bind_ok haccept, he, hkinds', hdepth'.trans hdepth⟩
  · rw [if_neg hcomma] at haccept
    rw [if_neg hcomma, hturn, Bool.eq_false_iff.2 hcomma]
    exact ⟨e, s₁, bind_ok haccept, he, hkinds, hdepth⟩

/-- The turns after `turns`, the last one first, have found the arguments. -/
def Finds (args : List Term) (turns turns' : List (List Expr)) : Prop :=
  ∃ es, terms? es = some args ∧ turns'.reverse.flatten = turns.reverse.flatten ++ es

theorem Finds.nil (turns : List (List Expr)) : Finds [] turns ([] :: turns) := ⟨[], rfl, by simp⟩

theorem Finds.last {e : Expr} {arg : Term} (he : e.term? = some arg) (turns : List (List Expr)) :
    Finds [arg] turns ([e] :: turns) := ⟨[e], by simp [he], by simp⟩

theorem Finds.cons {e : Expr} {arg : Term} {args : List Term} {turns turns' : List (List Expr)}
    (he : e.term? = some arg) (h : Finds args ([e] :: turns) turns') :
    Finds (arg :: args) turns turns' := by
  obtain ⟨es, hes, hflatten⟩ := h
  refine ⟨e :: es, by simp [he, hes], ?_⟩
  rw [hflatten]
  simp

/-- Turn by turn the arguments are read, up to the closing parenthesis. -/
theorem gives_turns {args : List Term} (hargs : Term.SpelledArgs args ks)
    (hrest : ∀ k ∈ rest, k.isPlain = true)
    (hread : ∀ arg ∈ args, ∀ ks, arg.Spelled ks → g.Reads setting s.depth 0 arg ks)
    (hs : s.kinds = ks ++ rest) {fuel : List Lexeme} (hfuel : s.kinds.length ≤ fuel.length)
    (turns : List (List Expr)) :
    (repeatAlong (collectTurn (commaTurn .rightParen (expr g))) fuel turns setting s).Gives
      (.symbol .rightParen :: rest) s.depth (Finds args turns) := by
  induction args generalizing ks s fuel turns with
  | nil =>
    cases hargs
    rw [repeatAlong_last (collectTurn_eq (commaTurn_close hs) turns)]
    exact ⟨.nil turns, hs, rfl⟩
  | cons arg args ih =>
    have hfirst := hread arg (List.mem_cons_self ..)
    cases hargs with
    | last harg =>
      rw [List.append_assoc] at hs
      obtain ⟨e, s', hturn, he, hkinds, hdepth⟩ :=
        commaTurn_eq harg hs (hfirst _ harg) (.cons rfl rfl rfl hrest)
      rw [repeatAlong_last (collectTurn_eq hturn turns)]
      exact ⟨.last he turns, hkinds, hdepth⟩
    | @cons _ _ ks ks' harg hargs =>
      rw [List.append_assoc] at hs
      have hplain : ∀ k ∈ ks' ++ rest, k.isPlain = true :=
        List.forall_mem_append.2 ⟨hargs.plain, hrest⟩
      obtain ⟨e, s', hturn, he, hkinds, hdepth⟩ :=
        commaTurn_eq harg hs (hfirst _ harg) (.cons rfl rfl rfl hplain)
      have hkinds' : s'.kinds = ks' ++ rest := hkinds
      have hlength : s'.kinds.length < s.kinds.length := by
        rw [hs, hkinds']
        simp only [List.length_append, List.length_cons]
        omega
      have hread' : ∀ arg ∈ args, ∀ ks, arg.Spelled ks → g.Reads setting s'.depth 0 arg ks := by
        intro arg' harg'
        rw [hdepth]
        exact hread arg' (List.mem_cons_of_mem _ harg')
      -- the comma is a token of its own, so a turn is left for what follows it
      cases fuel with
      | nil =>
        rw [List.length_nil] at hfuel
        omega
      | cons lexeme fuel =>
        rw [List.length_cons] at hfuel
        rw [repeatAlong_again (collectTurn_eq hturn turns), ← hdepth]
        apply (ih hargs hread' hkinds' (by omega) ([e] :: turns)).imp _ fun _ h => h
        intro turns' s'' h
        exact ⟨.cons he h.1, h.2⟩

theorem gives_args {args : List Term} (hargs : Term.SpelledArgs args ks)
    (hrest : ∀ k ∈ rest, k.isPlain = true)
    (hread : ∀ arg ∈ args, ∀ ks, arg.Spelled ks → g.Reads setting s.depth 0 arg ks)
    (hs : s.kinds = .symbol .leftParen :: (ks ++ rest)) :
    (Parser.args g setting s).Gives rest s.depth fun es => terms? es = some args := by
  apply Reply.Gives.bind (gives_require hs rfl)
  intro _ s₁ _ hkinds₁ hdepth₁
  apply gives_enclosed
  intro s₂ hkinds₂ hdepth₂
  have hread₂ : ∀ arg ∈ args, ∀ ks, arg.Spelled ks → g.Reads setting s₂.depth 0 arg ks := by
    rw [hdepth₂, hdepth₁]
    exact hread
  -- a turn for every token that is left is enough
  have hturns := gives_turns hargs hrest hread₂ (hkinds₂.trans hkinds₁)
    (Nat.le_of_eq (State.kinds_length s₂).symm) []
  have hcollect : (collect (commaTurn .rightParen (expr g)) setting s₂).Gives
      (.symbol .rightParen :: rest) s₂.depth fun es => terms? es = some args := by
    apply Reply.Gives.bind hturns
    rintro turns s₃ ⟨es, hes, hflatten⟩ hkinds₃ hdepth₃
    refine ⟨?_, hkinds₃, hdepth₃⟩
    rw [hflatten]
    exact hes
  apply Reply.Gives.bind hcollect
  intro es s₃ hes hkinds₃ hdepth₃
  apply Reply.Gives.bind (gives_require hkinds₃ rfl)
  intro _ s₄ _ hkinds₄ hdepth₄
  exact ⟨hes, hkinds₄, by omega⟩

/-! ## Operators and continuations -/

theorem extend_eq {m : Nat} {e : Expr} (h : Stops m s.kinds) :
    extend g m e setting s = .ok (false, e) s := by
  have hstop := State.stops_iff.1 h
  rw [extend, kind_bind]
  cases hcontinuation : continuationPower? s.kind with
  | some power =>
    have hlt := hstop power (by rw [TokenKind.power?, hcontinuation])
    simp only [if_pos hlt]
    rfl
  | none =>
    cases hoperator : OperatorToken.ofToken? s.kind with
    | some op =>
      have hlt := hstop op.power (OperatorToken.power?_eq hoperator)
      simp only [if_pos hlt]
      rfl
    | none => rfl

variable {m : Nat} {e : Expr} {t : Term} {args : List Term} {depth : Nat}

theorem gives_extend_continuation {power : Nat} (hs : s.kinds = k :: ks)
    (hk : continuationPower? k = some power) (hm : m ≤ power)
    (h : (continuation g e setting s).Gives rest depth fun e' => e'.term? = some t) :
    (extend g m e setting s).Gives rest depth fun r => r.1 = true ∧ r.2.term? = some t := by
  rw [extend, kind_bind, State.kind_eq hs, hk]
  simp only [if_neg (Nat.not_lt.2 hm)]
  apply Reply.Gives.bind h
  intro e' s' he' hkinds hdepth
  exact ⟨⟨rfl, he'⟩, hkinds, hdepth⟩

theorem gives_extend_operation {op : OperatorToken} (hs : s.kinds = k :: ks)
    (hk : OperatorToken.ofToken? k = some op) (hm : m ≤ op.power)
    (h : (operation g op e setting s).Gives rest depth fun e' => e'.term? = some t) :
    (extend g m e setting s).Gives rest depth fun r => r.1 = true ∧ r.2.term? = some t := by
  rw [extend, kind_bind, State.kind_eq hs, OperatorToken.continuationPower?_eq_none hk, hk]
  simp only [if_neg (Nat.not_lt.2 hm)]
  apply Reply.Gives.bind h
  intro e' s' he' hkinds hdepth
  exact ⟨⟨rfl, he'⟩, hkinds, hdepth⟩

theorem gives_exprNode {start : Nat} {kind : ExprKind} (hs : s.kinds = ks)
    (hdepth : s.depth = depth) (h : kind.term? = some t) :
    (exprNode start kind setting s).Gives ks depth fun e => e.term? = some t :=
  ⟨h, hs, hdepth⟩

theorem gives_call (he : e.term? = some t) (hargs : Term.SpelledArgs args ks)
    (hrest : ∀ k ∈ rest, k.isPlain = true)
    (hread : ∀ arg ∈ args, ∀ ks, arg.Spelled ks → g.Reads setting s.depth 0 arg ks)
    (hs : s.kinds = .symbol .leftParen :: (ks ++ rest)) :
    (continuation g e setting s).Gives rest s.depth fun e' => e'.term? = some (.call t args) := by
  rw [continuation, kind_bind, State.kind_eq hs]
  apply Reply.Gives.bind (gives_args hargs hrest hread hs)
  intro es s' hes hkinds hdepth
  apply gives_exprNode hkinds hdepth
  simp [he, hes]

theorem gives_index {index : Term} (he : e.term? = some t)
    (hrest : ∀ k ∈ rest, k.isPlain = true) (hread : g.Reads setting s.depth 0 index ks)
    (hs : s.kinds = .symbol .leftBracket :: (ks ++ .symbol .rightBracket :: rest)) :
    (continuation g e setting s).Gives rest s.depth
      fun e' => e'.term? = some (.index t index) := by
  obtain ⟨hkinds, hdepth⟩ := State.kinds_advance hs
  rw [continuation, kind_bind, State.kind_eq hs]
  show ((advance >>= fun _ => _) setting s).Gives _ _ _
  rw [advance_bind]
  have hinner : (enclosed (expr g) setting s.advance).Gives (.symbol .rightBracket :: rest) s.depth
      fun e => e.term? = some index := by
    apply gives_enclosed
    intro s₁ hkinds₁ hdepth₁
    exact hread s₁ _ (hkinds₁.trans hkinds) (hdepth₁.trans hdepth) (.cons rfl rfl rfl hrest)
  apply Reply.Gives.bind hinner
  intro i s₁ hi hkinds₁ hdepth₁
  apply Reply.Gives.bind (gives_require hkinds₁ rfl)
  intro _ s₂ _ hkinds₂ hdepth₂
  apply gives_exprNode hkinds₂ (hdepth₂.trans hdepth₁)
  simp [he, hi]

theorem gives_propagate (he : e.term? = some t) (hs : s.kinds = .symbol .question :: rest) :
    (continuation g e setting s).Gives rest s.depth fun e' => e'.term? = some (.propagate t) := by
  obtain ⟨hkinds, hdepth⟩ := State.kinds_advance hs
  rw [continuation, kind_bind, State.kind_eq hs]
  show ((advance >>= fun _ => _) setting s).Gives _ _ _
  rw [advance_bind]
  apply gives_exprNode hkinds hdepth
  simp [he]

theorem gives_field {name : String} (he : e.term? = some t)
    (hrest : rest.head? ≠ some (.symbol .leftParen))
    (hs : s.kinds = .symbol .dot :: .ident name :: rest) :
    (continuation g e setting s).Gives rest s.depth fun e' => e'.term? = some (.field t name) := by
  obtain ⟨hkinds, hdepth⟩ := State.kinds_advance hs
  obtain ⟨hkinds', hdepth'⟩ := State.kinds_advance hkinds
  have hcall : s.advance.advance.kind.isSymbol .leftParen = false := by
    rw [← Bool.not_eq_true, State.isSymbol_kind_iff, hkinds']
    exact hrest
  rw [continuation_dot (State.kind_eq hs), member_field (State.kind_eq hkinds) hcall]
  apply gives_exprNode hkinds' (hdepth'.trans hdepth)
  simp [he]

theorem gives_methodCall {method : String} (he : e.term? = some t)
    (hargs : Term.SpelledArgs args ks) (hrest : ∀ k ∈ rest, k.isPlain = true)
    (hread : ∀ arg ∈ args, ∀ ks, arg.Spelled ks → g.Reads setting s.depth 0 arg ks)
    (hs : s.kinds = .symbol .dot :: .ident method :: .symbol .leftParen :: (ks ++ rest)) :
    (continuation g e setting s).Gives rest s.depth
      fun e' => e'.term? = some (.methodCall t method args) := by
  obtain ⟨hkinds, hdepth⟩ := State.kinds_advance hs
  obtain ⟨hkinds', hdepth'⟩ := State.kinds_advance hkinds
  have hcall : s.advance.advance.kind.isSymbol .leftParen = true := by
    rw [State.kind_eq hkinds']
    rfl
  rw [continuation_dot (State.kind_eq hs), member_methodCall (State.kind_eq hkinds) hcall]
  rw [← hdepth, ← hdepth'] at hread ⊢
  apply Reply.Gives.bind (gives_args hargs hrest hread hkinds')
  intro es s' hes hkinds'' hdepth''
  apply gives_exprNode hkinds'' hdepth''
  simp [he, hes]

theorem gives_operation {op : OperatorToken} {right : Term} (he : e.term? = some t)
    (hread : g.Reads setting s.depth op.rightPower right ks) (hs : s.kinds = k :: (ks ++ rest))
    (hrest : Behind op.rightPower rest) :
    (operation g op e setting s).Gives rest s.depth
      fun e' => e'.term? = some (.operation op t right) := by
  obtain ⟨hkinds, hdepth⟩ := State.kinds_advance hs
  rw [operation, advance_bind]
  apply Reply.Gives.bind (hread _ _ hkinds hdepth hrest)
  intro r s₁ hr hkinds₁ hdepth₁
  refine ⟨?_, hkinds₁, hdepth₁⟩
  show (op.apply e r).term? = _
  rw [OperatorToken.term?_apply, he, hr]
  rfl

end Parser

end ActorFrontend
