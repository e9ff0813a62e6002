import ActorFrontend.Grammar.Statements
import ActorFrontend.Proofs.Precedence.Answers
import ActorFrontend.Proofs.Precedence.Level

/-!
# Operands and arguments that are read

If an operand is a term, it is canonical on every level, and the tokens read spell it.  So it is with
arguments, one after the other.
-/

namespace ActorFrontend

variable {α β : Type} {setting : Setting} {s : State} {k : TokenKind} {ks rest : List TokenKind}

/-! ## Terms that have been read -/

def TokenKind.isNumber : TokenKind → Bool
  | .int _ | .float _ => true
  | _ => false

/-- No number stands behind a dot, as it would to take a component of a tuple. -/
def Unindexed (ks : List TokenKind) : Prop :=
  ∀ k rest, (.symbol .dot :: k :: rest) <:+ ks → k.isNumber = false

theorem Unindexed.of_append (h : Unindexed (ks ++ rest)) : Unindexed rest := by
  intro k rest' hsuffix
  exact h k rest' (hsuffix.trans (List.suffix_append ks rest))

theorem Unindexed.of_cons (h : Unindexed (k :: rest)) : Unindexed rest := by
  intro k' rest' hsuffix
  exact h k' rest' (hsuffix.trans (List.suffix_cons k rest))

namespace Term

/-- The term has been read of the tokens as an expression of a level, with fewer than `levels`
levels below, and `rest` is left. -/
structure Read (levels m : Nat) (kinds : List TokenKind) (t : Term) (rest : List TokenKind) :
    Prop where
  canonical : t.Canonical m
  nesting : t.nesting < levels
  spelled : ∃ ks, t.Spelled ks ∧ kinds = ks ++ rest
  stops : Stops m rest

/-- The term has been read of the tokens in the course of an expression, and `rest` is left, which
leaves it alone. -/
structure Taken (levels m : Nat) (kinds : List TokenKind) (t : Term) (rest : List TokenKind) :
    Prop where
  canonical : t.Canonical m
  nesting : t.nesting ≤ levels
  spelled : ∃ ks, t.Spelled ks ∧ kinds = ks ++ rest
  alone : t.LeftAlone rest

end Term

/-- What the rules read, if it is a term, they read canonically. -/
def Rules.Sound (g : Rules) (levels : Nat) : Prop :=
  ∀ m setting s, (g.expr m setting s).Leads fun e rest =>
    Unindexed s.kinds → ∀ t, e.term? = some t → t.Read levels m s.kinds rest

namespace Parser

variable {g : Rules} {levels m : Nat}

/-- What an operand leads to. -/
def Takes (levels m : Nat) (kinds : List TokenKind) (t? : Option Term) (rest : List TokenKind) :
    Prop :=
  Unindexed kinds → ∀ t, t? = some t → t.Taken levels m kinds rest

theorem leads_asExpr {kind : Parser ExprKind} {holds : Option Term → List TokenKind → Prop}
    (h : (kind setting s).Leads fun k rest => holds k.term? rest) :
    (asExpr kind setting s).Leads fun e rest => holds e.term? rest := by
  rw [asExpr, start_bind]
  apply h.bind
  intro k s' hk
  exact hk

theorem leads_none {p : Parser α} {term? : α → Option Term} {kinds : List TokenKind}
    (h : p.Yields fun a => term? a = none) :
    (p setting s).Leads fun a rest => Takes levels m kinds (term? a) rest := by
  apply (h setting s).imp
  intro a rest ha _ t ht
  rw [ha] at ht
  cases ht

/-! ## Operands -/

theorem leads_integerOrDuration {value : UInt64} (hk : s.kind = .int value) :
    (integerOrDuration value setting s).Leads
      fun k rest => Takes levels m s.kinds k.term? rest := by
  have hunit : ∃ unit, durationUnit? setting s.advance = .ok unit s.advance := by
    unfold durationUnit?
    split
    · split
      · exact ⟨_, rfl⟩
      · exact ⟨none, rfl⟩
    · exact ⟨none, rfl⟩
  obtain ⟨unit, hunit⟩ := hunit
  rw [integerOrDuration, advance_bind, bind_ok hunit]
  cases unit with
  | some unit =>
    intro _ t ht
    cases ht
  | none =>
    intro _ t ht
    cases ht
    exact ⟨.int, Nat.zero_le levels, ⟨_, .int, State.kinds_eq hk (by simp)⟩, .of_isClosed rfl rfl⟩

/-- A repetition that finds nothing reads nothing, if that is so of its turns. -/
theorem leads_collect {step : Parser (Bool × List α)}
    (hstep : ∀ s, (step setting s).Leads fun r rest => r.2 = [] → rest = s.kinds) :
    (collect step setting s).Leads fun found rest => found = [] → rest = s.kinds := by
  have hturns : (loop (collectTurn step) [] setting s).Leads
      fun turns rest => turns.flatten = [] → rest = s.kinds := by
    apply ends_loop fun (turns : List (List α)) s' => turns.flatten = [] → s'.kinds = s.kinds
    · intro turns s₁ hturns
      apply Reply.Ends.bind (hstep s₁)
      intro r s₂ hr hflatten
      obtain ⟨hfound, hbefore⟩ := List.append_eq_nil_iff.1 hflatten
      rw [hr hfound, hturns hbefore]
    · intro _
      rfl
  apply hturns.bind
  intro turns s₁ hturns hfound
  apply hturns
  simpa using hfound

theorem leads_path : (path setting s).Leads
    fun names rest => ∀ name, names = [name] → s.kinds = .ident name :: rest := by
  apply leads_name.bind
  intro first s₁ hfirst
  apply Reply.Leads.bind (leads_collect _)
  · intro more s₂ hmore name hname
    cases hname
    rw [hfirst, hmore rfl]
  · intro s
    rw [query_bind]
    split
    · have hfound : (advance >>= fun _ => Parser.name >>= fun part =>
          pure (true, [part])).Yields fun r => r.2 ≠ [] :=
        yields_bind fun _ => yields_bind fun part => yields_pure (by simp)
      apply (hfound setting s).imp
      intro r rest hr hnil
      exact absurd hnil hr
    · intro _
      rfl

theorem leads_pathExpr : (pathExpr g setting s).Leads
    fun k rest => Takes levels m s.kinds k.term? rest := by
  apply leads_path.bind
  intro names s₁ hnames
  rw [query_bind]
  split
  · -- a structure, whose fields follow
    apply leads_none
    apply yields_bind
    intro _
    apply yields_bind
    intro fields
    exact yields_pure rfl
  · cases names with
    | nil =>
      intro _ t ht
      cases ht
    | cons name names =>
      -- a path of one name is a name, a longer one is no term
      cases names with
      | nil =>
        intro _ t ht
        cases ht
        exact ⟨.name, Nat.zero_le levels, ⟨_, .name, hnames name rfl⟩, .of_isClosed rfl rfl⟩
      | cons name' names =>
        intro _ t ht
        cases ht

theorem leads_parenOrTuple (hg : g.Sound levels) (hk : s.kind = .symbol .leftParen) :
    (parenOrTuple g setting s).Leads fun k rest => Takes levels m s.kinds k.term? rest := by
  have hkinds : s.kinds = .symbol .leftParen :: s.advance.kinds := State.kinds_eq hk (by simp)
  rw [parenOrTuple, advance_bind]
  apply leads_enclosed
  intro s₁ hkinds₁
  rw [← hkinds₁] at hkinds
  apply (leads_accept .rightParen).bind
  intro found s₂ hfound
  cases found with
  | true => exact leads_none (yields_pure rfl)
  | false =>
    -- only where a single expression is closed by a parenthesis is there a term
    have hkinds₂ : s₂.kinds = s₁.kinds := hfound
    apply (hg 0 setting s₂).bind
    intro e s₃ he
    apply (leads_accept .comma).bind
    intro found s₄ hfound
    cases found with
    | true =>
      apply leads_none
      exact yields_bind fun _ => yields_pure rfl
    | false =>
      have hkinds₄ : s₄.kinds = s₃.kinds := hfound
      apply (leads_expect .rightParen).bind
      intro _ s₅ hkinds₅ hnames t ht
      obtain ⟨inner, hinner, heq⟩ := Option.bind_eq_some_iff.1 ht
      cases heq
      rw [hkinds, ← hkinds₂] at hnames
      have hread := he hnames.of_cons inner hinner
      obtain ⟨ks, hks, hsplit⟩ := hread.spelled
      refine ⟨.paren hread.canonical, hread.nesting, ⟨_, .paren hks, ?_⟩, .of_isClosed rfl rfl⟩
      rw [hkinds, ← hkinds₂, hsplit, ← hkinds₄, hkinds₅]
      simp

theorem leads_parenOrLambda (hg : g.Sound levels) (hk : s.kind = .symbol .leftParen) :
    (parenOrLambda g setting s).Leads fun k rest => Takes levels m s.kinds k.term? rest := by
  have hkinds : s.kinds = .symbol .leftParen :: s.advance.kinds := State.kinds_eq hk (by simp)
  rw [parenOrLambda, query_bind]
  split
  · apply leads_attempt.bind
    intro head s₁ hhead
    cases head with
    | some head =>
      apply leads_none
      exact yields_bind fun _ => yields_pure rfl
    | none =>
      -- no lambda: the parenthesis is read once more
      have hkinds₁ : s₁.kinds = s.kinds := hhead rfl
      rw [← hkinds₁]
      exact leads_parenOrTuple hg (State.kind_eq (hkinds₁.trans hkinds))
  · exact leads_parenOrTuple hg hk

theorem leads_applied (hg : g.Sound levels) (op : PrefixOp) (hk : s.kind = op.token) :
    (applied (g.expr unaryPower) op.apply setting s).Leads
      fun k rest => Takes levels m s.kinds k.term? rest := by
  have hne : op.token ≠ .endOfFile := by cases op <;> simp [PrefixOp.token]
  have hkinds : s.kinds = op.token :: s.advance.kinds := State.kinds_eq hk hne
  rw [applied, advance_bind]
  apply (hg unaryPower setting s.advance).bind
  intro e s₁ he hnames t ht
  rw [PrefixOp.term?_apply] at ht
  obtain ⟨t', ht', heq⟩ := Option.bind_eq_some_iff.1 ht
  cases heq
  rw [hkinds] at hnames
  have hread := he hnames.of_cons t' ht'
  obtain ⟨ks, hks, hsplit⟩ := hread.spelled
  refine ⟨.prefixed hread.canonical, hread.nesting, ⟨_, .prefixed hks, ?_⟩, ⟨hread.stops, ?_⟩⟩
  · rw [hkinds, hsplit, List.cons_append]
  · intro hfield
    cases hfield

/-! ## Operands that are no terms -/

/-- What the parser reads is not a term. -/
abbrev NoTerm (p : Parser ExprKind) : Prop := p.Yields fun k => k.term? = none

theorem noTerm_applied {operand : Parser Expr} {make : Expr → ExprKind}
    (h : ∀ e, (make e).term? = none) : NoTerm (applied operand make) :=
  yields_bind fun _ => yields_bind fun e => yields_pure (h e)

theorem noTerm_arrayExpr (g : Rules) : NoTerm (arrayExpr g) := by
  apply yields_bind
  intro _
  apply yields_enclosed
  apply yields_bind
  intro found
  apply yields_ite
  · exact yields_pure rfl
  · apply yields_bind
    intro first
    apply yields_bind
    intro found
    apply yields_ite
    · exact yields_bind fun _ => yields_bind fun _ => yields_pure rfl
    · exact yields_bind fun _ => yields_pure rfl

theorem noTerm_matchExpr (g : Rules) : NoTerm (matchExpr g) :=
  yields_bind fun _ => yields_bind fun _ => yields_bind fun _ => yields_bind fun _ =>
    yields_bind fun _ => yields_pure rfl

theorem noTerm_tryExpr (g : Rules) : NoTerm (tryExpr g) := by
  apply yields_bind
  intro _
  apply yields_bind
  intro body
  apply yields_bind
  intro found
  apply yields_ite
  · exact yields_bind fun _ => yields_bind fun _ => yields_bind fun _ => yields_bind fun _ =>
      yields_bind fun _ => yields_pure rfl
  · exact yields_pure rfl

theorem noTerm_spawnExpr (g : Rules) : NoTerm (spawnExpr g) := by
  apply yields_bind
  intro _
  apply yields_bind
  intro found
  apply yields_ite
  · exact yields_bind fun _ => yields_pure rfl
  · exact yields_bind fun _ => yields_bind fun _ => yields_bind fun _ => yields_pure rfl

theorem noTerm_selectExpr (g : Rules) (kind : SelectKind) : NoTerm (selectExpr g kind) := by
  apply yields_bind
  intro _
  apply yields_bind
  intro _
  apply yields_bind
  rintro ⟨arms, timeout⟩
  exact yields_bind fun _ => yields_pure rfl

theorem noTerm_joinExpr (g : Rules) : NoTerm (joinExpr g) :=
  yields_bind fun _ => yields_bind fun _ => yields_bind fun _ => yields_pure rfl

theorem noTerm_scopeExpr (g : Rules) : NoTerm (scopeExpr g) := by
  apply yields_bind
  intro _
  apply yields_bind
  intro found
  apply yields_ite
  · exact yields_bind fun _ => yields_pure rfl
  apply yields_bind
  intro found
  apply yields_ite
  · apply yields_bind
    intro found
    apply yields_ite
    · exact yields_bind fun _ => yields_pure rfl
    apply yields_bind
    intro found
    apply yields_ite
    · exact yields_bind fun _ => yields_bind fun _ => yields_pure rfl
    apply yields_bind
    intro found
    apply yields_ite
    · exact yields_bind fun _ => yields_bind fun _ => yields_pure rfl
    · exact yields_expected
  · exact yields_expected

theorem yields_ifExpr (g : Rules) : (ifExpr g).Yields fun e => e.term? = none := by
  apply yields_bind
  intro first
  apply yields_bind
  rintro ⟨heads, elseBranch⟩
  apply yields_bind
  intro inner
  exact yields_bind fun _ => yields_bind fun _ => yields_pure rfl

theorem leads_operand (hg : g.Sound levels) : (operand g setting s).Leads
    fun e rest => Takes levels m s.kinds e.term? rest := by
  rw [operand, kind_bind]
  generalize hk : s.kind = k
  split
  case h_1 => exact leads_asExpr (leads_integerOrDuration hk)
  case h_4 =>
    exact leads_asExpr (leads_none (yields_bind fun _ => yields_bind fun _ => yields_pure rfl))
  case h_9 => exact leads_asExpr leads_pathExpr
  case h_10 => exact leads_asExpr (leads_parenOrLambda hg hk)
  -- from here on only prefix operators make terms
  case h_11 => exact leads_asExpr (leads_none (noTerm_arrayExpr g))
  case h_12 => exact leads_asExpr (leads_none (yields_bind fun _ => yields_pure rfl))
  case h_13 => exact leads_asExpr (leads_applied hg .neg hk)
  case h_14 => exact leads_asExpr (leads_applied hg .not hk)
  case h_15 => exact leads_asExpr (leads_applied hg .await hk)
  case h_16 => exact leads_asExpr (leads_none (noTerm_applied fun _ => rfl))
  case h_17 => exact leads_none (yields_ifExpr g)
  case h_18 => exact leads_asExpr (leads_none (noTerm_matchExpr g))
  case h_19 => exact leads_asExpr (leads_none (yields_bind fun _ => yields_pure rfl))
  case h_20 => exact leads_asExpr (leads_none (noTerm_spawnExpr g))
  case h_21 => exact leads_asExpr (leads_none (noTerm_selectExpr g _))
  case h_22 => exact leads_asExpr (leads_none (noTerm_selectExpr g _))
  case h_23 => exact leads_asExpr (leads_none (noTerm_joinExpr g))
  case h_24 => exact leads_asExpr (leads_none (noTerm_scopeExpr g))
  case h_25 => exact leads_asExpr (leads_none (noTerm_tryExpr g))
  case h_26 =>
    exact leads_asExpr (leads_none (yields_bind fun _ => yields_bind fun _ => yields_pure rfl))
  case h_27 => trivial
  all_goals exact leads_asExpr (leads_none (yields_bind fun _ => yields_pure rfl))

end Parser

/-! ## Arguments -/

namespace Term

/-- The tokens spell the arguments as far as a closing parenthesis may follow. -/
def Closable (args : List Term) (ks : List TokenKind) : Prop :=
  SpelledArgs args (ks ++ [.symbol .rightParen])

/-- The tokens spell the arguments as far as more arguments may follow. -/
def Continuable (args : List Term) (ks : List TokenKind) : Prop :=
  ∀ more ks', SpelledArgs more ks' → SpelledArgs (args ++ more) (ks ++ ks')

theorem Continuable.nil : Continuable [] [] := fun _ _ h => h

theorem Continuable.closable {args : List Term} (h : Continuable args ks) : Closable args ks := by
  have hnone := h [] _ .nil
  rw [List.append_nil] at hnone
  exact hnone

theorem Continuable.last {args : List Term} {arg : Term} {ks' : List TokenKind}
    (h : Continuable args ks) (harg : arg.Spelled ks') : Closable (args ++ [arg]) (ks ++ ks') := by
  have hone := h [arg] _ (.last harg)
  rw [← List.append_assoc] at hone
  exact hone

theorem Continuable.cons {args : List Term} {arg : Term} {ks' : List TokenKind}
    (h : Continuable args ks) (harg : arg.Spelled ks') :
    Continuable (args ++ [arg]) (ks ++ ks' ++ [.symbol .comma]) := by
  intro more ks'' hmore
  have hnext := h (arg :: more) _ (.cons harg hmore)
  simpa using hnext

/-- The arguments have been read of the tokens, and `rest` is left. -/
structure ReadArgs (spells : List Term → List TokenKind → Prop) (levels : Nat)
    (kinds : List TokenKind) (args : List Term) (rest : List TokenKind) : Prop where
  canonical : ∀ arg ∈ args, arg.Canonical 0
  nesting : nestingOf args ≤ levels
  spelled : ∃ ks, spells args ks ∧ kinds = ks ++ rest

theorem nestingOf_append (args : List Term) (arg : Term) :
    nestingOf (args ++ [arg]) = max (nestingOf args) (arg.nesting + 1) := by
  induction args with
  | nil => simp [nestingOf]
  | cons arg' args ih =>
    rw [List.cons_append, nestingOf, nestingOf, ih]
    omega

end Term

theorem terms?_append {es : List Expr} {e : Expr} {args : List Term}
    (h : terms? (es ++ [e]) = some args) :
    ∃ before arg, terms? es = some before ∧ e.term? = some arg ∧ args = before ++ [arg] := by
  induction es generalizing args with
  | nil =>
    obtain ⟨arg, harg, heq⟩ := Option.bind_eq_some_iff.1 h
    cases heq
    exact ⟨[], arg, rfl, harg, rfl⟩
  | cons e' es ih =>
    obtain ⟨first, hfirst, hmore⟩ := Option.bind_eq_some_iff.1 h
    obtain ⟨more, hargs, heq⟩ := Option.bind_eq_some_iff.1 hmore
    cases heq
    obtain ⟨before, arg, hbefore, harg, rfl⟩ := ih hargs
    refine ⟨first :: before, arg, ?_, harg, rfl⟩
    simp [hfirst, hbefore]

namespace Parser

variable {g : Rules} {levels m : Nat}

/-- What a list of arguments leads to. -/
def TakesArgs (spells : List Term → List TokenKind → Prop) (levels : Nat) (kinds : List TokenKind)
    (es : List Expr) (rest : List TokenKind) : Prop :=
  Unindexed kinds → ∀ args, terms? es = some args → Term.ReadArgs spells levels kinds args rest

theorem TakesArgs.imp {spells spells' : List Term → List TokenKind → Prop}
    {kinds : List TokenKind} {es : List Expr} (h : TakesArgs spells levels kinds es rest)
    (himp : ∀ args ks, spells args ks → spells' args ks) :
    TakesArgs spells' levels kinds es rest := by
  intro hnames args hargs
  have hread := h hnames args hargs
  obtain ⟨ks, hks, hsplit⟩ := hread.spelled
  exact ⟨hread.canonical, hread.nesting, ks, himp args ks hks, hsplit⟩

/-- One argument more. -/
theorem TakesArgs.append {spells : List Term → List TokenKind → Prop}
    {kinds between : List TokenKind} {es : List Expr} {e : Expr}
    (h : TakesArgs Term.Continuable levels kinds es between)
    (he : Unindexed between → ∀ t, e.term? = some t → t.Read levels 0 between ks)
    (hspells : ∀ args arg ks₁ ks₂, Term.Continuable args ks₁ → arg.Spelled ks₂ →
      ∃ ks₃, spells (args ++ [arg]) ks₃ ∧ ks₁ ++ (ks₂ ++ ks) = ks₃ ++ rest) :
    TakesArgs spells levels kinds (es ++ [e]) rest := by
  intro hnames args hargs
  obtain ⟨before, arg, hbefore, harg, rfl⟩ := terms?_append hargs
  have hread := h hnames before hbefore
  obtain ⟨ks₁, hks₁, hsplit⟩ := hread.spelled
  -- what was read before leaves tokens without indices behind it
  have hlast := he (hsplit ▸ hnames).of_append arg harg
  obtain ⟨ks₂, hks₂, hsplit'⟩ := hlast.spelled
  obtain ⟨ks₃, hks₃, heq⟩ := hspells before arg ks₁ ks₂ hks₁ hks₂
  refine ⟨?_, ?_, ks₃, hks₃, ?_⟩
  · intro arg' harg'
    cases List.mem_append.1 harg' with
    | inl hmem => exact hread.canonical arg' hmem
    | inr hmem =>
      rw [List.mem_singleton.1 hmem]
      exact hlast.canonical
  · have hbelow := hread.nesting
    have habove := hlast.nesting
    rw [Term.nestingOf_append]
    omega
  · rw [hsplit, hsplit', heq]

theorem leads_commaTurn (hg : g.Sound levels) {kinds : List TokenKind} {es : List Expr}
    (h : TakesArgs Term.Continuable levels kinds es s.kinds) :
    (commaTurn .rightParen (expr g) setting s).Leads fun r rest =>
      if r.1 = true then TakesArgs Term.Continuable levels kinds (es ++ r.2) rest
      else TakesArgs Term.Closable levels kinds (es ++ r.2) rest := by
  rw [commaTurn, sees, query_bind]
  split
  · show TakesArgs Term.Closable levels kinds (es ++ []) s.kinds
    rw [List.append_nil]
    exact h.imp fun args ks hargs => hargs.closable
  · apply (hg 0 setting s).bind
    intro e s₁ he
    apply (leads_accept .comma).bind
    intro found s₂ hfound
    cases found with
    -- behind a comma more arguments may follow, or none
    | true =>
      have hkinds : s₁.kinds = .symbol .comma :: s₂.kinds := hfound
      show TakesArgs Term.Continuable levels kinds (es ++ [e]) s₂.kinds
      apply h.append he
      intro args arg ks₁ ks₂ hargs harg
      refine ⟨_, hargs.cons harg, ?_⟩
      rw [hkinds]
      simp
    | false =>
      have hkinds : s₂.kinds = s₁.kinds := hfound
      show TakesArgs Term.Closable levels kinds (es ++ [e]) s₂.kinds
      apply h.append he
      intro args arg ks₁ ks₂ hargs harg
      refine ⟨_, hargs.last harg, ?_⟩
      rw [hkinds, List.append_assoc]

/-- Turn by turn, what has been read can be continued or closed. -/
theorem leads_turns (hg : g.Sound levels) :
    (collect (commaTurn .rightParen (expr g)) setting s).Leads fun es rest =>
      TakesArgs Term.Closable levels s.kinds es rest := by
  have hturn : ∀ (turns : List (List Expr)) (s₁ : State),
      TakesArgs Term.Continuable levels s.kinds turns.reverse.flatten s₁.kinds →
      (collectTurn (commaTurn .rightParen (expr g)) turns setting s₁).Leads fun r rest =>
        if r.1 = true then TakesArgs Term.Continuable levels s.kinds r.2.reverse.flatten rest
        else TakesArgs Term.Closable levels s.kinds r.2.reverse.flatten rest := by
    intro turns s₁ h
    apply (leads_commaTurn hg h).bind
    rintro ⟨again, found⟩ s₂ hr
    have hflatten : (found :: turns).reverse.flatten = turns.reverse.flatten ++ found := by simp
    rw [← hflatten] at hr
    exact hr
  have hloop : (loop (collectTurn (commaTurn .rightParen (expr g))) [] setting s).Leads
      fun turns rest => TakesArgs Term.Closable levels s.kinds turns.reverse.flatten rest := by
    apply ends_repeatAlong
      (fun _ (turns : List (List Expr)) s₁ =>
        TakesArgs Term.Continuable levels s.kinds turns.reverse.flatten s₁.kinds)
      (fun turns s₁ => TakesArgs Term.Closable levels s.kinds turns.reverse.flatten s₁.kinds)
    · intro n turns s₁ h
      exact hturn turns s₁ h
    · intro turns s₁ h
      -- the fuel is used up: what could be continued can be closed
      apply (hturn turns s₁ h).imp
      intro r rest hr
      split at hr
      · exact hr.imp fun args ks hargs => hargs.closable
      · exact hr
    · intro hnames args hargs
      cases hargs
      exact ⟨by simp, Nat.zero_le levels, [], .nil, rfl⟩
  apply hloop.bind
  intro turns s₁ h
  exact h

theorem leads_args (hg : g.Sound levels) : (Parser.args g setting s).Leads fun es rest =>
    ∃ ks, s.kinds = .symbol .leftParen :: ks ∧ TakesArgs Term.SpelledArgs levels ks es rest := by
  apply (leads_expect .leftParen).bind
  intro _ s₁ hkinds₁
  apply leads_enclosed
  intro s₂ hkinds₂
  apply (leads_turns hg).bind
  intro es s₃ hes
  apply (leads_expect .rightParen).bind
  intro _ s₄ hkinds₄
  refine ⟨s₂.kinds, hkinds₁.trans (by rw [hkinds₂]), ?_⟩
  intro hnames args hargs
  have hread := hes hnames args hargs
  obtain ⟨ks, hks, hsplit⟩ := hread.spelled
  refine ⟨hread.canonical, hread.nesting, _, hks, ?_⟩
  rw [hsplit, hkinds₄, List.append_assoc]
  rfl

end Parser

end ActorFrontend
