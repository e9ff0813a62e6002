import ActorFrontend.Grammar.Statements
import ActorFrontend.Proofs.Precedence.Answers

/-!
# Plain tokens

The tokens that spell terms announce nothing else: no path, no struct literal, no type and no lambda.
-/

namespace ActorFrontend

variable {α β : Type} {setting : Setting} {s : State} {k : TokenKind} {ks rest : List TokenKind}

/-- No token that announces a path, a struct literal, a type or a lambda. -/
def TokenKind.isPlain : TokenKind → Bool
  | .symbol .colon | .symbol .colonColon | .symbol .leftBrace | .symbol .arrow
  | .symbol .fatArrow => false
  | _ => true

theorem TokenKind.isSymbol_eq_false {symbol : Symbol} (hk : k.isPlain = true)
    (hsymbol : (TokenKind.symbol symbol).isPlain = false) : k.isSymbol symbol = false := by
  rw [← Bool.not_eq_true]
  intro h
  rw [TokenKind.eq_of_isSymbol h, hsymbol] at hk
  cases hk

theorem State.isPlain_kind (h : ∀ k ∈ s.kinds, k.isPlain = true) : s.kind.isPlain = true := by
  cases hkinds : s.kinds with
  | nil =>
    rw [State.kind_eq_endOfFile hkinds]
    rfl
  | cons k ks =>
    rw [State.kind_eq hkinds]
    exact h k (by simp [hkinds])

namespace Parser

/-! ## Lambdas

A lambda has an arrow behind its parameters.  Where no colon and no arrow is left, its head is read
without reading any type, and it fails at the latest where the arrow would have to be.
-/

/-- Only plain tokens are left after the parser, if it succeeds. -/
def LeavesPlain (p : Parser α) : Prop :=
  ∀ setting s, (∀ k ∈ s.kinds, k.isPlain = true) →
    (p setting s).Ends (fun _ s' => ∀ k ∈ s'.kinds, k.isPlain = true) fun _ => True

theorem plain_advance (h : ∀ k ∈ s.kinds, k.isPlain = true) :
    ∀ k ∈ s.advance.kinds, k.isPlain = true := by
  intro k hk
  apply h
  rw [State.kinds, State.rest_advance, List.map_drop] at hk
  exact List.mem_of_mem_drop hk

theorem leavesPlain_bind {p : Parser α} {q : α → Parser β} (hp : LeavesPlain p)
    (hq : ∀ a, LeavesPlain (q a)) : LeavesPlain (p >>= q) := fun setting s hs =>
  Reply.Ends.bind (hp setting s hs) fun a s' hs' => hq a setting s' hs'

theorem leavesPlain_pure (a : α) : LeavesPlain (pure a) := fun _ _ hs => hs

theorem leavesPlain_query (f : State → α) : LeavesPlain (query f) := fun _ _ hs => hs

theorem leavesPlain_acceptIf (test : TokenKind → Bool) : LeavesPlain (acceptIf test) := by
  intro setting s hs
  rw [acceptIf_eq]
  split
  · exact plain_advance hs
  · exact hs

theorem leavesPlain_require (test : TokenKind → Bool) (wanted : Expected) :
    LeavesPlain (require test wanted) := by
  intro setting s hs
  rw [require_eq]
  split
  · exact plain_advance hs
  · trivial

theorem leavesPlain_valueOf (value? : TokenKind → Option α) (wanted : Expected) :
    LeavesPlain (valueOf value? wanted) := by
  intro setting s hs
  rw [valueOf_eq]
  split
  · exact plain_advance hs
  · trivial

theorem leavesPlain_optional {symbol : Symbol} (p : Parser α)
    (hsymbol : (TokenKind.symbol symbol).isPlain = false) :
    LeavesPlain (optional (accept symbol) p) := by
  intro setting s hs
  have hkind := TokenKind.isSymbol_eq_false (State.isPlain_kind hs) hsymbol
  change (bind (acceptIf _) _ setting s).Ends _ _
  rw [bind, acceptIf_eq, hkind]
  exact hs

theorem leavesPlain_collect {step : Parser (Bool × List α)} (hstep : LeavesPlain step) :
    LeavesPlain (collect step) := by
  refine leavesPlain_bind (fun setting s hs => ?_) fun turns => leavesPlain_pure _
  apply ends_loop fun _ s' => ∀ k ∈ s'.kinds, k.isPlain = true
  · intro turns s hs
    exact leavesPlain_bind hstep (fun r => leavesPlain_pure _) setting s hs
  · exact hs

theorem leavesPlain_lambdaParam (g : Rules) : LeavesPlain (lambdaParam g) := by
  refine leavesPlain_bind (fun _ _ hs => hs) fun start => ?_
  apply leavesPlain_bind (leavesPlain_valueOf _ _)
  intro name
  apply leavesPlain_bind (leavesPlain_optional _ rfl)
  intro type
  exact leavesPlain_bind (leavesPlain_query _) fun span => leavesPlain_pure _

theorem leavesPlain_commaList {close : Symbol} {elem : Parser α} (helem : LeavesPlain elem) :
    LeavesPlain (commaList close elem) := by
  refine leavesPlain_bind (leavesPlain_collect ?_) fun elems => ?_
  · apply leavesPlain_bind (leavesPlain_query _)
    intro closed
    split
    · exact leavesPlain_pure _
    · apply leavesPlain_bind helem
      intro a
      exact leavesPlain_bind (leavesPlain_acceptIf _) fun again => leavesPlain_pure _
  · exact leavesPlain_bind (leavesPlain_require _ _) fun _ => leavesPlain_pure _

theorem ends_lambdaHead (g : Rules) (hplain : ∀ k ∈ s.kinds, k.isPlain = true) :
    (lambdaHead g setting s).Ends (fun _ _ => False) fun _ => True := by
  apply Reply.Ends.bind (leavesPlain_require _ _ setting s hplain)
  intro _ s₁ hplain
  apply Reply.Ends.bind (leavesPlain_commaList (leavesPlain_lambdaParam g) setting s₁ hplain)
  intro params s₂ hplain
  apply Reply.Ends.bind (leavesPlain_optional _ rfl setting s₂ hplain)
  intro ret s₃ hplain
  have harrow : s₃.kind.isSymbol .fatArrow = false :=
    TokenKind.isSymbol_eq_false (State.isPlain_kind hplain) rfl
  change (bind (require _ _) _ setting s₃).Ends _ _
  rw [bind, require_eq, harrow]
  trivial

end Parser

/-! ## What stands behind a term -/

/-- Tokens that make nothing else of what they follow. -/
structure Clear (rest : List TokenKind) : Prop where
  plain : ∀ k ∈ rest, k.isPlain = true
  unnamed : ∀ name, rest.head? ≠ some (.ident name)

/-- Tokens that may stand behind an expression of a level. -/
structure Behind (m : Nat) (rest : List TokenKind) : Prop extends Clear rest where
  stops : Stops m rest

theorem Clear.cons (hk : k.isPlain = true) (hname : k.isName = false)
    (hplain : ∀ k ∈ rest, k.isPlain = true) : Clear (k :: rest) where
  plain := List.forall_mem_cons.2 ⟨hk, hplain⟩
  unnamed := by
    rintro name heq
    cases heq
    cases hname

namespace Behind

variable {m : Nat}

theorem nil (m : Nat) : Behind m [] := ⟨⟨by simp, by simp⟩, Stops.nil m⟩

/-- A token without a power ends expressions of every level. -/
theorem cons (hpower : k.power? = none) (hk : k.isPlain = true) (hname : k.isName = false)
    (hplain : ∀ k ∈ rest, k.isPlain = true) : Behind m (k :: rest) where
  toClear := .cons hk hname hplain
  stops := by
    rw [Stops.cons_iff, hpower]
    simp

end Behind

theorem OperatorToken.isPlain {op : OperatorToken} (h : OperatorToken.ofToken? k = some op) :
    k.isPlain = true ∧ k.isName = false := by
  unfold OperatorToken.ofToken? at h
  split at h <;> first | exact ⟨rfl, rfl⟩ | cases h

namespace Term

/-- No term starts with the token that ends a list of arguments. -/
theorem Spelled.head : ∀ {t : Term} {ks : List TokenKind}, t.Spelled ks →
    ∃ k ks', ks = k :: ks' ∧ k.isSymbol .rightParen = false
  | _, _, .int => ⟨_, _, rfl, rfl⟩
  | _, _, .name => ⟨_, _, rfl, rfl⟩
  | _, _, .paren _ => ⟨_, _, rfl, rfl⟩
  | _, _, @Spelled.prefixed op _ _ _ => ⟨_, _, rfl, by cases op <;> rfl⟩
  | _, _, .call h _ | _, _, .index h _ | _, _, .field h | _, _, .methodCall h _
  | _, _, .propagate h | _, _, .operation _ h _ => by
      obtain ⟨k, ks', rfl, hk⟩ := h.head
      exact ⟨k, _, rfl, hk⟩

mutual

/-- The tokens that spell a term announce nothing else. -/
theorem Spelled.plain {t : Term} {ks : List TokenKind} (h : t.Spelled ks) :
    ∀ k ∈ ks, k.isPlain = true := by
  cases h with
  | int => simp [TokenKind.isPlain]
  | name => simp [TokenKind.isPlain]
  | paren hinner =>
    have hplain := hinner.plain
    simpa [TokenKind.isPlain, or_imp, forall_and] using hplain
  | call hcallee hargs =>
    have hplain := hcallee.plain
    have hplain' := hargs.plain
    simpa [TokenKind.isPlain, or_imp, forall_and] using ⟨hplain, hplain'⟩
  | index hobject hindex =>
    have hplain := hobject.plain
    have hplain' := hindex.plain
    simpa [TokenKind.isPlain, or_imp, forall_and] using ⟨hplain, hplain'⟩
  | field hobject =>
    have hplain := hobject.plain
    simpa [TokenKind.isPlain, or_imp, forall_and] using hplain
  | methodCall hobject hargs =>
    have hplain := hobject.plain
    have hplain' := hargs.plain
    simpa [TokenKind.isPlain, or_imp, forall_and] using ⟨hplain, hplain'⟩
  | propagate hoperand =>
    have hplain := hoperand.plain
    simpa [TokenKind.isPlain, or_imp, forall_and] using hplain
  | @prefixed op _ _ hoperand =>
    have hplain := hoperand.plain
    have hop : op.token.isPlain = true := by cases op <;> rfl
    simpa [hop] using hplain
  | operation hk hleft hright =>
    have hplain := hleft.plain
    have hplain' := hright.plain
    simpa [(OperatorToken.isPlain hk).1, or_imp, forall_and] using ⟨hplain, hplain'⟩

theorem SpelledArgs.plain {args : List Term} {ks : List TokenKind} (h : SpelledArgs args ks) :
    ∀ k ∈ ks, k.isPlain = true := by
  cases h with
  | nil => simp [TokenKind.isPlain]
  | last harg =>
    have hplain := harg.plain
    simpa [TokenKind.isPlain, or_imp, forall_and] using hplain
  | cons harg hargs =>
    have hplain := harg.plain
    have hplain' := hargs.plain
    simpa [TokenKind.isPlain, or_imp, forall_and] using ⟨hplain, hplain'⟩

end

end Term

end ActorFrontend
