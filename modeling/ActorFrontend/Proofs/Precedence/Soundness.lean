import ActorFrontend.Proofs.Precedence.Taking

/-!
# Only canonical terms are read

A term that is read is canonical, and the tokens read are those that spell it.  The repetition that
reads an expression keeps this of the term read so far, together with the tokens at hand leaving it
alone.
-/

namespace ActorFrontend

variable {setting : Setting} {s : State} {k : TokenKind} {ks rest : List TokenKind}

namespace Parser

variable {g : Rules} {levels m : Nat}

/-! ## Operators and continuations -/

/-- What an operator or a continuation makes of the term before it. -/
def Extends (levels m : Nat) (kinds : List TokenKind) (t? t'? : Option Term)
    (rest : List TokenKind) : Prop :=
  ∀ t', t'? = some t' → ∃ t, t? = some t ∧ (Unindexed kinds → ∀ whole,
    t.Taken levels m whole kinds → t'.Taken levels m whole rest ∧ rest.length < kinds.length)

variable {e : Expr}

theorem leads_exprNode {start : Nat} {kind : ExprKind}
    {holds : Option Term → List TokenKind → Prop} (h : holds kind.term? s.kinds) :
    (exprNode start kind setting s).Leads fun e rest => holds e.term? rest := h

/-- The term and some tokens behind it make up another term. -/
theorem taken_append {t t' : Term} {kinds whole : List TokenKind}
    (h : t.Taken levels m whole kinds) (hkinds : kinds = k :: (ks ++ rest))
    (hcanonical : t'.Canonical m) (hnesting : t'.nesting ≤ levels)
    (hspelled : ∀ ks₁, t.Spelled ks₁ → t'.Spelled (ks₁ ++ k :: ks)) (halone : t'.LeftAlone rest) :
    t'.Taken levels m whole rest ∧ rest.length < kinds.length := by
  obtain ⟨ks₁, hks₁, hsplit⟩ := h.spelled
  constructor
  · refine ⟨hcanonical, hnesting, ⟨_, hspelled ks₁ hks₁, ?_⟩, halone⟩
    rw [hsplit, hkinds, List.append_assoc, List.cons_append]
  · rw [hkinds, List.length_cons, List.length_append]
    omega

theorem leads_call (hg : g.Sound levels) (hk : s.kind = .symbol .leftParen) :
    (continuation g e setting s).Leads
      fun e' rest => Extends levels m s.kinds e.term? e'.term? rest := by
  rw [continuation, kind_bind, hk]
  apply (leads_args hg).bind
  rintro es s₁ ⟨ks, hkinds, hread⟩
  apply leads_exprNode
  intro t' ht'
  obtain ⟨t, ht, hmore⟩ := Option.bind_eq_some_iff.1 ht'
  obtain ⟨args, hargs, heq⟩ := Option.bind_eq_some_iff.1 hmore
  cases heq
  refine ⟨t, ht, ?_⟩
  rw [hkinds]
  intro hnames whole htaken
  have hlast := hread hnames.of_cons args hargs
  obtain ⟨ks', hks', hsplit⟩ := hlast.spelled
  -- the last operand of an operator would have taken the parenthesis
  have hclosed : t.isClosed = true := htaken.alone.isClosed rfl
  have hcanonical : (t.call args).Canonical m :=
    .call hclosed htaken.alone.isField_eq_false htaken.canonical hlast.canonical
  have hnesting : (t.call args).nesting ≤ levels := Nat.max_le.2 ⟨htaken.nesting, hlast.nesting⟩
  have hspelled : ∀ ks₁, t.Spelled ks₁ → (t.call args).Spelled (ks₁ ++ .symbol .leftParen :: ks') :=
    fun ks₁ hks₁ => .call hks₁ hks'
  rw [hsplit] at htaken ⊢
  exact taken_append htaken rfl hcanonical hnesting hspelled (.of_isClosed rfl rfl)

theorem leads_index (hg : g.Sound levels) (hk : s.kind = .symbol .leftBracket) :
    (continuation g e setting s).Leads
      fun e' rest => Extends levels m s.kinds e.term? e'.term? rest := by
  have hkinds : s.kinds = .symbol .leftBracket :: s.advance.kinds := State.kinds_eq hk (by simp)
  rw [continuation, kind_bind, hk]
  show ((advance >>= fun _ => _) setting s).Leads _
  rw [advance_bind]
  have hinner : (enclosed (expr g) setting s.advance).Leads fun i rest =>
      Unindexed s.advance.kinds → ∀ t, i.term? = some t → t.Read levels 0 s.advance.kinds rest := by
    apply leads_enclosed
    intro s₁ hkinds₁
    rw [← hkinds₁]
    exact hg 0 setting s₁
  apply hinner.bind
  intro i s₁ hi
  apply (leads_expect .rightBracket).bind
  intro _ s₂ hkinds₂
  apply leads_exprNode
  intro t' ht'
  obtain ⟨t, ht, hmore⟩ := Option.bind_eq_some_iff.1 ht'
  obtain ⟨index, hindex, heq⟩ := Option.bind_eq_some_iff.1 hmore
  cases heq
  refine ⟨t, ht, ?_⟩
  rw [hkinds]
  intro hnames whole htaken
  have hread := hi hnames.of_cons index hindex
  obtain ⟨ks, hks, hsplit⟩ := hread.spelled
  -- as for a call
  have hclosed : t.isClosed = true := htaken.alone.isClosed rfl
  have hnesting : (t.index index).nesting ≤ levels := Nat.max_le.2 ⟨htaken.nesting, hread.nesting⟩
  have hspelled : ∀ ks₁, t.Spelled ks₁ → (t.index index).Spelled
      (ks₁ ++ .symbol .leftBracket :: (ks ++ [.symbol .rightBracket])) :=
    fun ks₁ hks₁ => .index hks₁ hks
  have hsplit' : s.advance.kinds = ks ++ [.symbol .rightBracket] ++ s₂.kinds := by
    rw [hsplit, hkinds₂, List.append_assoc]
    rfl
  rw [hsplit'] at htaken ⊢
  exact taken_append htaken rfl (.index hclosed htaken.canonical hread.canonical) hnesting hspelled
    (.of_isClosed rfl rfl)

theorem leads_propagate (hk : s.kind = .symbol .question) :
    (continuation g e setting s).Leads
      fun e' rest => Extends levels m s.kinds e.term? e'.term? rest := by
  have hkinds : s.kinds = .symbol .question :: s.advance.kinds := State.kinds_eq hk (by simp)
  rw [continuation, kind_bind, hk]
  show ((advance >>= fun _ => _) setting s).Leads _
  rw [advance_bind]
  apply leads_exprNode
  intro t' ht'
  obtain ⟨t, ht, heq⟩ := Option.bind_eq_some_iff.1 ht'
  cases heq
  refine ⟨t, ht, ?_⟩
  rw [hkinds]
  intro _ whole htaken
  have hclosed : t.isClosed = true := htaken.alone.isClosed rfl
  have hspelled : ∀ ks₁, t.Spelled ks₁ → t.propagate.Spelled (ks₁ ++ .symbol .question :: []) :=
    fun ks₁ hks₁ => .propagate hks₁
  exact taken_append htaken rfl (.propagate hclosed htaken.canonical) htaken.nesting hspelled
    (.of_isClosed rfl rfl)

/-- Behind a dot stands a name: a field if no arguments follow. -/
theorem leads_field {name : String} (hk : s.kind = .symbol .dot)
    (hname : s.advance.kind = .ident name)
    (hcall : s.advance.advance.kind.isSymbol .leftParen = false) :
    (continuation g e setting s).Leads
      fun e' rest => Extends levels m s.kinds e.term? e'.term? rest := by
  have hkinds : s.kinds = .symbol .dot :: .ident name :: s.advance.advance.kinds := by
    rw [State.kinds_eq hk (by simp), State.kinds_eq hname (by simp)]
  rw [continuation_dot hk, member_field hname hcall]
  apply leads_exprNode
  intro t' ht'
  obtain ⟨t, ht, heq⟩ := Option.bind_eq_some_iff.1 ht'
  cases heq
  refine ⟨t, ht, ?_⟩
  rw [hkinds]
  intro _ whole htaken
  have hclosed : t.isClosed = true := htaken.alone.isClosed rfl
  have hspelled : ∀ ks₁, t.Spelled ks₁ →
      (t.field name).Spelled (ks₁ ++ .symbol .dot :: [.ident name]) :=
    fun ks₁ hks₁ => .field hks₁
  apply taken_append htaken rfl (.field hclosed htaken.canonical) htaken.nesting hspelled
  refine ⟨Term.stops_of_isClosed rfl, ?_⟩
  -- a parenthesis behind the name would have made it a method
  intro _ hhead
  rw [State.isSymbol_kind_iff.2 hhead] at hcall
  cases hcall

theorem leads_methodCall (hg : g.Sound levels) {name : String} (hk : s.kind = .symbol .dot)
    (hname : s.advance.kind = .ident name)
    (hcall : s.advance.advance.kind.isSymbol .leftParen = true) :
    (continuation g e setting s).Leads
      fun e' rest => Extends levels m s.kinds e.term? e'.term? rest := by
  have hkinds : s.kinds = .symbol .dot :: .ident name :: s.advance.advance.kinds := by
    rw [State.kinds_eq hk (by simp), State.kinds_eq hname (by simp)]
  rw [continuation_dot hk, member_methodCall hname hcall]
  apply (leads_args hg).bind
  rintro es s₁ ⟨ks, hkinds', hread⟩
  apply leads_exprNode
  intro t' ht'
  obtain ⟨t, ht, hmore⟩ := Option.bind_eq_some_iff.1 ht'
  obtain ⟨args, hargs, heq⟩ := Option.bind_eq_some_iff.1 hmore
  cases heq
  refine ⟨t, ht, ?_⟩
  rw [hkinds, hkinds']
  intro hnames whole htaken
  have hlast := hread hnames.of_cons.of_cons.of_cons args hargs
  obtain ⟨ks', hks', hsplit⟩ := hlast.spelled
  have hclosed : t.isClosed = true := htaken.alone.isClosed rfl
  have hnesting : (t.methodCall name args).nesting ≤ levels :=
    Nat.max_le.2 ⟨htaken.nesting, hlast.nesting⟩
  have hspelled : ∀ ks₁, t.Spelled ks₁ → (t.methodCall name args).Spelled
      (ks₁ ++ .symbol .dot :: (.ident name :: .symbol .leftParen :: ks')) :=
    fun ks₁ hks₁ => .methodCall hks₁ hks'
  rw [hsplit] at htaken ⊢
  exact taken_append htaken rfl (.methodCall hclosed htaken.canonical hlast.canonical) hnesting
    hspelled (.of_isClosed rfl rfl)

/-- Numbers behind a dot are out of the question. -/
theorem extends_of_isNumber {t? t'? : Option Term} (hk : s.kind = .symbol .dot)
    (hnumber : s.advance.kind.isNumber = true) (h : ∀ t', t'? = some t' → ∃ t, t? = some t) :
    Extends levels m s.kinds t? t'? rest := by
  -- the number stands behind the dot, which the tokens are not to hold
  have hne : s.advance.kind ≠ .endOfFile := by
    intro hend
    rw [hend] at hnumber
    cases hnumber
  intro t' ht'
  obtain ⟨t, ht⟩ := h t' ht'
  refine ⟨t, ht, ?_⟩
  intro hnames
  have hkinds : s.kinds = .symbol .dot :: s.advance.kind :: s.advance.advance.kinds := by
    rw [State.kinds_eq hk (by simp), State.kinds_eq rfl hne]
  rw [hkinds] at hnames
  have hname := hnames _ _ (List.suffix_refl _)
  rw [hnumber] at hname
  cases hname

theorem leads_dot (hg : g.Sound levels) (hk : s.kind = .symbol .dot) :
    (continuation g e setting s).Leads
      fun e' rest => Extends levels m s.kinds e.term? e'.term? rest := by
  cases hname : s.advance.kind with
  | ident name =>
    cases hcall : s.advance.advance.kind.isSymbol .leftParen with
    | true => exact leads_methodCall hg hk hname hcall
    | false => exact leads_field hk hname hcall
  | int value =>
    -- the two kinds of number read members, but of tuples
    rw [continuation_dot hk, member, kind_bind, hname]
    show (exprNode _ _ setting _).Leads _
    apply leads_exprNode
    apply extends_of_isNumber hk (by rw [hname]; rfl)
    intro t' ht'
    obtain ⟨t, ht, -⟩ := Option.bind_eq_some_iff.1 ht'
    exact ⟨t, ht⟩
  | float value =>
    rw [continuation_dot hk, member, kind_bind, hname]
    show (exprNode _ _ setting _).Leads _
    apply leads_exprNode
    apply extends_of_isNumber hk (by rw [hname]; rfl)
    intro t' ht'
    obtain ⟨inner, hinner, -⟩ := Option.bind_eq_some_iff.1 ht'
    obtain ⟨t, ht, -⟩ := Option.bind_eq_some_iff.1 hinner
    exact ⟨t, ht⟩
  | _ =>
    rw [continuation_dot hk, member, kind_bind, hname]
    trivial

theorem leads_continuation (hg : g.Sound levels) {power : Nat}
    (hk : continuationPower? s.kind = some power) : (continuation g e setting s).Leads
      fun e' rest => Extends levels m s.kinds e.term? e'.term? rest := by
  generalize hkind : s.kind = k at hk
  unfold continuationPower? at hk
  split at hk
  · exact leads_call hg hkind
  · exact leads_index hg hkind
  · exact leads_propagate hkind
  · exact leads_dot hg hkind
  · cases hk

theorem leads_operation (hg : g.Sound levels) {op : OperatorToken}
    (hk : OperatorToken.ofToken? s.kind = some op) (hm : m ≤ op.power) :
    (operation g op e setting s).Leads
      fun e' rest => Extends levels m s.kinds e.term? e'.term? rest := by
  have hne : s.kind ≠ .endOfFile := by
    intro hend
    rw [hend] at hk
    cases hk
  have hkinds : s.kinds = s.kind :: s.advance.kinds := State.kinds_eq rfl hne
  rw [operation, advance_bind]
  apply (hg op.rightPower setting s.advance).bind
  intro r s₁ hr
  show Extends levels m s.kinds e.term? (op.apply e r).term? s₁.kinds
  intro t' ht'
  rw [OperatorToken.term?_apply] at ht'
  obtain ⟨t, ht, hmore⟩ := Option.bind_eq_some_iff.1 ht'
  obtain ⟨right, hright, heq⟩ := Option.bind_eq_some_iff.1 hmore
  cases heq
  refine ⟨t, ht, ?_⟩
  rw [hkinds]
  intro hnames whole htaken
  have hread := hr hnames.of_cons right hright
  obtain ⟨ks, hks, hsplit⟩ := hread.spelled
  -- the term before the operator was left alone by it, so it is canonical on its left
  have hleft : t.Canonical op.leftPower := (htaken.canonical.leftAlone_iff hk).1 htaken.alone
  have hnesting : (Term.operation op t right).nesting ≤ levels :=
    Nat.max_le.2 ⟨htaken.nesting, hread.nesting⟩
  have hspelled : ∀ ks₁, t.Spelled ks₁ →
      (Term.operation op t right).Spelled (ks₁ ++ s.kind :: ks) :=
    fun ks₁ hks₁ => .operation hk hks₁ hks
  rw [hsplit] at htaken ⊢
  apply taken_append htaken rfl (.operation hm hleft hread.canonical) hnesting hspelled
  refine ⟨hread.stops, ?_⟩
  intro hfield
  cases hfield

theorem leads_extend (hg : g.Sound levels) : (extend g m e setting s).Leads fun r rest =>
    if r.1 = true then Extends levels m s.kinds e.term? r.2.term? rest
    else r.2 = e ∧ rest = s.kinds ∧ Stops m s.kinds := by
  rw [extend, kind_bind]
  cases hcontinuation : continuationPower? s.kind with
  | some power =>
    simp only
    split
    case isTrue hlt =>
      -- too little power: the token belongs to what is around the expression
      refine ⟨rfl, rfl, State.stops_iff.2 ?_⟩
      intro power' hpower
      rw [TokenKind.power?, hcontinuation] at hpower
      cases hpower
      exact hlt
    case isFalse =>
      apply (leads_continuation hg hcontinuation).bind
      intro e' s₁ he'
      exact he'
  | none =>
    simp only
    cases hoperator : OperatorToken.ofToken? s.kind with
    | some op =>
      simp only
      split
      case isTrue hlt =>
        refine ⟨rfl, rfl, State.stops_iff.2 ?_⟩
        intro power' hpower
        rw [OperatorToken.power?_eq hoperator] at hpower
        cases hpower
        exact hlt
      case isFalse hle =>
        apply (leads_operation hg hoperator (Nat.not_lt.1 hle)).bind
        intro e' s₁ he'
        exact he'
    | none =>
      refine ⟨rfl, rfl, State.stops_iff.2 ?_⟩
      intro power hpower
      rw [TokenKind.power?, hcontinuation, hoperator] at hpower
      cases hpower

/-! ## Expressions -/

theorem Takes.extend {kinds whole : List TokenKind} {t? t'? : Option Term}
    (h : Takes levels m whole t? kinds) (hextend : Extends levels m kinds t? t'? rest) :
    Unindexed whole → ∀ t', t'? = some t' →
      t'.Taken levels m whole rest ∧ rest.length < kinds.length := by
  intro hnames t' ht'
  obtain ⟨t, ht, hmore⟩ := hextend t' ht'
  have htaken := h hnames t ht
  obtain ⟨ks, -, hsplit⟩ := htaken.spelled
  rw [hsplit] at hnames
  exact hmore hnames.of_append whole htaken

/-- A turn keeps what has been taken.  If it asks for another one, it has read a token. -/
theorem leads_turn (hg : g.Sound levels) {whole : List TokenKind}
    (h : Takes levels m whole e.term? s.kinds) :
    (extend g m e setting s).Leads fun r rest => Unindexed whole → ∀ t', r.2.term? = some t' →
      (∃ t, e.term? = some t) ∧ t'.Taken levels m whole rest ∧
        if r.1 = true then rest.length < s.kinds.length else Stops m rest := by
  apply (leads_extend hg).imp
  intro r rest hextend hnames t' ht'
  by_cases hagain : r.1 = true
  · simp only [if_pos hagain] at hextend ⊢
    obtain ⟨t, ht, -⟩ := hextend t' ht'
    exact ⟨⟨t, ht⟩, h.extend hextend hnames t' ht'⟩
  · simp only [if_neg hagain] at hextend ⊢
    obtain ⟨rfl, rfl, hstops⟩ := hextend
    exact ⟨⟨t', ht'⟩, h hnames t' ht', hstops⟩

theorem leads_exprRule (hg : g.Sound levels) : (exprRule g m setting s).Leads fun e rest =>
    Unindexed s.kinds → ∀ t, e.term? = some t →
      t.Taken levels m s.kinds rest ∧ Stops m rest := by
  apply (leads_operand hg).bind
  intro first s₁ hfirst
  -- as many turns are left as there are tokens: the last turn cannot ask for another one
  apply ends_repeatAlong
    (fun n (e : Expr) s₂ => Unindexed s.kinds → ∀ t, e.term? = some t →
      t.Taken levels m s.kinds s₂.kinds ∧ s₂.kinds.length ≤ n)
    (fun (e : Expr) s₂ => Unindexed s.kinds → ∀ t, e.term? = some t →
      t.Taken levels m s.kinds s₂.kinds ∧ Stops m s₂.kinds)
  · intro n e s₂ he
    have htakes : Takes levels m s.kinds e.term? s₂.kinds := fun hnames t ht => (he hnames t ht).1
    apply Reply.Ends.imp (leads_turn hg htakes) _ fun _ h => h
    intro r s₃ hr
    by_cases hagain : r.1 = true
    · rw [if_pos hagain]
      intro hnames t' ht'
      obtain ⟨⟨t, ht⟩, htaken, hlt⟩ := hr hnames t' ht'
      rw [if_pos hagain] at hlt
      have hle := (he hnames t ht).2
      exact ⟨htaken, by omega⟩
    · rw [if_neg hagain]
      intro hnames t' ht'
      obtain ⟨-, htaken, hstops⟩ := hr hnames t' ht'
      rw [if_neg hagain] at hstops
      exact ⟨htaken, hstops⟩
  · intro e s₂ he
    have htakes : Takes levels m s.kinds e.term? s₂.kinds := fun hnames t ht => (he hnames t ht).1
    apply Reply.Ends.imp (leads_turn hg htakes) _ fun _ h => h
    intro r s₃ hr hnames t' ht'
    obtain ⟨⟨t, ht⟩, htaken, hmore⟩ := hr hnames t' ht'
    by_cases hagain : r.1 = true
    · rw [if_pos hagain] at hmore
      have hle := (he hnames t ht).2
      omega
    · rw [if_neg hagain] at hmore
      exact ⟨htaken, hmore⟩
  · intro hnames t ht
    exact ⟨hfirst hnames t ht, Nat.le_of_eq (State.kinds_length s₁).symm⟩

end Parser

theorem Rules.sound_within (levels : Nat) : (Rules.within levels).Sound levels := by
  induction levels with
  | zero => exact fun _ _ _ => trivial
  | succ levels ih =>
    intro m setting s
    apply Parser.leads_nested
    intro s₁ hkinds
    apply (Parser.leads_exprRule ih).imp
    intro e rest he hnames t ht
    rw [← hkinds] at hnames
    obtain ⟨htaken, hstops⟩ := he hnames t ht
    rw [← hkinds]
    exact ⟨htaken.canonical, Nat.lt_succ_of_le htaken.nesting, htaken.spelled, hstops⟩

end ActorFrontend
