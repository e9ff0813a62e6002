import ActorFrontend.Grammar.Expressions
import ActorFrontend.Proofs.Precedence.Level
import ActorFrontend.Proofs.Replies

/-!
# Answers and the tokens that are left

Where the kinds of the next tokens are known, so are the answer of a parser and the kinds of the
tokens that are left.  Where they are not, the answer still tells what they were.
-/

namespace ActorFrontend

variable {α β σ : Type} {setting : Setting} {s : State} {k : TokenKind} {ks rest : List TokenKind}

/-! ## Kinds of tokens -/

/-- The kinds of the tokens still to be read. -/
def State.kinds (s : State) : List TokenKind := s.rest.map fun lexeme => lexeme.token.kind

theorem State.kind_eq (h : s.kinds = k :: ks) : s.kind = k := by
  unfold State.kinds at h
  unfold State.kind
  cases hrest : s.rest with
  | nil => simp [hrest] at h
  | cons lexeme rest =>
    rw [hrest] at h
    exact (List.cons.inj h).1

theorem State.kind_eq_endOfFile (h : s.kinds = []) : s.kind = .endOfFile := by
  have hrest : s.rest = [] := List.map_eq_nil_iff.1 h
  simp only [State.kind, hrest]

theorem State.kinds_advance (h : s.kinds = k :: ks) :
    s.advance.kinds = ks ∧ s.advance.depth = s.depth := by
  unfold State.kinds at h
  unfold State.kinds State.advance
  cases hrest : s.rest with
  | nil => simp [hrest] at h
  | cons lexeme rest =>
    rw [hrest] at h
    exact ⟨(List.cons.inj h).2, rfl⟩

theorem State.isSymbol_kind_iff {symbol : Symbol} :
    s.kind.isSymbol symbol = true ↔ s.kinds.head? = some (.symbol symbol) := by
  cases hkinds : s.kinds with
  | nil =>
    rw [State.kind_eq_endOfFile hkinds]
    simp [TokenKind.isSymbol]
  | cons k ks =>
    rw [State.kind_eq hkinds, List.head?_cons, Option.some_inj]
    constructor
    · exact TokenKind.eq_of_isSymbol
    · rintro rfl
      simp [TokenKind.isSymbol]

theorem State.kinds_length (s : State) : s.rest.length = s.kinds.length := by
  rw [State.kinds, List.length_map]

theorem State.stops_iff {m : Nat} :
    Stops m s.kinds ↔ ∀ power, s.kind.power? = some power → power < m := by
  cases hkinds : s.kinds with
  | nil =>
    rw [State.kind_eq_endOfFile hkinds]
    simp [Stops, TokenKind.power?, continuationPower?, OperatorToken.ofToken?]
  | cons k ks => rw [State.kind_eq hkinds, Stops.cons_iff]

theorem State.kinds_eq (hk : s.kind = k) (hne : k ≠ .endOfFile) :
    s.kinds = k :: s.advance.kinds := by
  cases hkinds : s.kinds with
  | nil => exact absurd ((State.kind_eq_endOfFile hkinds).symm.trans hk).symm hne
  | cons k' ks =>
    rw [(State.kinds_advance hkinds).1, ← hk, State.kind_eq hkinds]

/-! ## Given tokens -/

/-- The answer is a value; `ks` are left then, on the same nesting level. -/
def Reply.Gives (ks : List TokenKind) (depth : Nat) (holds : α → Prop) (r : Reply α) : Prop :=
  r.Ends (fun a s => holds a ∧ s.kinds = ks ∧ s.depth = depth) fun _ => False

namespace Reply.Gives

variable {ks' : List TokenKind} {depth depth' : Nat} {holds : α → Prop} {holds' : β → Prop}

theorem bind {p : Parser α} {q : α → Parser β} (hp : (p setting s).Gives ks depth holds)
    (hq : ∀ a s', holds a → s'.kinds = ks → s'.depth = depth →
      (q a setting s').Gives ks' depth' holds') :
    ((p >>= q) setting s).Gives ks' depth' holds' :=
  Ends.bind hp fun a s' h => hq a s' h.1 h.2.1 h.2.2

theorem exists_eq {r : Reply α} (h : r.Gives ks depth holds) :
    ∃ a s', r = .ok a s' ∧ holds a ∧ s'.kinds = ks ∧ s'.depth = depth := by
  cases r with
  | ok a s' => exact ⟨a, s', rfl, h⟩
  | fail e s' => exact h.elim

end Reply.Gives

namespace Parser

/-! ## Single tokens -/

theorem gives_require {test : TokenKind → Bool} {wanted : Expected} (h : s.kinds = k :: ks)
    (htest : test k = true) : (require test wanted setting s).Gives ks s.depth fun _ => True := by
  rw [require_eq, State.kind_eq h, if_pos htest]
  exact ⟨trivial, State.kinds_advance h⟩

theorem gives_unaccepted {test : TokenKind → Bool} (htest : test s.kind = false) :
    (acceptIf test setting s).Gives s.kinds s.depth fun found => found = false := by
  rw [acceptIf_eq, htest]
  exact ⟨rfl, rfl, rfl⟩

/-! ## Repetition -/

theorem repeatAlong_last {step : σ → Parser (Bool × σ)} {fuel : List Lexeme} {a b : σ} {s' : State}
    (h : step a setting s = .ok (false, b) s') :
    repeatAlong step fuel a setting s = .ok b s' := by
  cases fuel with
  | nil =>
    rw [repeatAlong, bind_ok h]
    rfl
  | cons lexeme fuel =>
    rw [repeatAlong, bind_ok h]
    rfl

theorem repeatAlong_again {step : σ → Parser (Bool × σ)} {lexeme : Lexeme} {fuel : List Lexeme}
    {a b : σ} {s' : State} (h : step a setting s = .ok (true, b) s') :
    repeatAlong step (lexeme :: fuel) a setting s = repeatAlong step fuel b setting s' := by
  rw [repeatAlong, bind_ok h]
  rfl

/-- A repetition that finds nothing more. -/
theorem collect_eq {step : Parser (Bool × List α)} {found : List α} {s' : State}
    (h : step setting s = .ok (false, found) s') : collect step setting s = .ok found s' := by
  have hturns : loop (collectTurn step) [] setting s = .ok [found] s' :=
    repeatAlong_last (collectTurn_eq h [])
  refine (bind_ok hturns).trans ?_
  show Reply.ok ([found].reverse.flatten) s' = _
  simp

/-! ## Context and nesting -/

theorem gives_enclosed {p : Parser α} {holds : α → Prop} {depth : Nat}
    (h : ∀ s' : State, s'.kinds = s.kinds → s'.depth = s.depth →
      (p setting s').Gives ks depth holds) :
    (enclosed p setting s).Gives ks depth holds := by
  have hrun := h { s with context := .anything } rfl rfl
  unfold enclosed withContext
  cases hreply : p setting { s with context := .anything } with
  | ok a after =>
    rw [hreply] at hrun
    exact hrun
  | fail e after =>
    rw [hreply] at hrun
    exact hrun

theorem gives_nested {p : Parser α} {holds : α → Prop} (hdepth : s.depth < setting.limits.maxDepth)
    (h : ∀ s' : State, s'.kinds = s.kinds → s'.depth = s.depth + 1 →
      (p setting s').Gives ks (s.depth + 1) holds) :
    (nested p setting s).Gives ks s.depth holds := by
  have hrun := h { s with depth := s.depth + 1 } rfl rfl
  unfold nested
  rw [if_neg (Nat.not_le.2 hdepth)]
  cases hreply : p setting { s with depth := s.depth + 1 } with
  | ok a after =>
    rw [hreply] at hrun
    obtain ⟨ha, hks, hafter⟩ := hrun
    refine ⟨ha, hks, ?_⟩
    show after.depth - 1 = s.depth
    omega
  | fail e after =>
    rw [hreply] at hrun
    exact hrun

end Parser

/-! ## Whatever the tokens -/

/-- Of the value that is answered, if any is, and of the tokens left something holds. -/
def Reply.Leads (holds : α → List TokenKind → Prop) (r : Reply α) : Prop :=
  r.Ends (fun a s => holds a s.kinds) fun _ => True

namespace Reply.Leads

variable {holds : α → List TokenKind → Prop} {holds' : β → List TokenKind → Prop}

theorem bind {p : Parser α} {q : α → Parser β} (hp : (p setting s).Leads holds)
    (hq : ∀ a s', holds a s'.kinds → (q a setting s').Leads holds') :
    ((p >>= q) setting s).Leads holds' :=
  Ends.bind hp hq

theorem imp {r : Reply α} {holds' : α → List TokenKind → Prop} (h : r.Leads holds)
    (himp : ∀ a ks, holds a ks → holds' a ks) : r.Leads holds' :=
  Ends.imp h (fun a s => himp a s.kinds) fun _ h => h

theorem mapState {r : Reply α} {f : State → State} (h : r.Leads holds)
    (hf : ∀ s, (f s).kinds = s.kinds) : (r.mapState f).Leads holds := by
  cases r with
  | ok a s =>
    show holds a (f s).kinds
    rw [hf]
    exact h
  | fail e s => trivial

end Reply.Leads

namespace Parser

/-- Whatever the parser reads, something holds of it. -/
def Yields (p : Parser α) (holds : α → Prop) : Prop :=
  ∀ setting s, (p setting s).Leads fun a _ => holds a

theorem yields_pure {holds : α → Prop} {a : α} (h : holds a) : (pure a : Parser α).Yields holds :=
  fun _ _ => h

theorem yields_bind {holds : β → Prop} {p : Parser α} {q : α → Parser β}
    (h : ∀ a, (q a).Yields holds) : (p >>= q).Yields holds := by
  intro setting s
  have hp : (p setting s).Leads fun _ _ => True := by
    cases p setting s <;> trivial
  apply hp.bind
  intro a s' _
  exact h a setting s'

theorem yields_ite {holds : α → Prop} {c : Prop} [Decidable c] {p q : Parser α}
    (hp : p.Yields holds) (hq : q.Yields holds) : (if c then p else q).Yields holds := by
  split
  · exact hp
  · exact hq

theorem yields_expected {holds : α → Prop} {wanted : Expected} :
    (expected wanted : Parser α).Yields holds := fun _ _ => trivial

theorem yields_enclosed {holds : α → Prop} {p : Parser α} (h : p.Yields holds) :
    (enclosed p).Yields holds := fun setting s =>
  (h setting { s with context := .anything }).mapState fun _ => rfl

/-! ## Single tokens -/

theorem leads_expect (symbol : Symbol) : (expect symbol setting s).Leads
    fun _ rest => s.kinds = .symbol symbol :: rest := by
  rw [expect, require_eq]
  by_cases h : s.kind.isSymbol symbol = true
  · rw [if_pos h]
    exact State.kinds_eq (TokenKind.eq_of_isSymbol h) (by simp)
  · rw [if_neg h]
    trivial

theorem leads_accept (symbol : Symbol) : (accept symbol setting s).Leads
    fun found rest => if found = true then s.kinds = .symbol symbol :: rest else rest = s.kinds := by
  rw [accept, acceptIf_eq]
  by_cases h : s.kind.isSymbol symbol = true
  · rw [if_pos h]
    exact State.kinds_eq (TokenKind.eq_of_isSymbol h) (by simp)
  · rw [if_neg h]
    exact (rfl : s.kinds = s.kinds)

theorem leads_name : (Parser.name setting s).Leads fun name rest => s.kinds = .ident name :: rest := by
  rw [Parser.name, valueOf_eq]
  cases hk : s.kind with
  | ident name => exact State.kinds_eq hk (by simp)
  | _ => trivial

/-! ## Context and nesting -/

theorem leads_enclosed {p : Parser α} {holds : α → List TokenKind → Prop}
    (h : ∀ s' : State, s'.kinds = s.kinds → (p setting s').Leads holds) :
    (enclosed p setting s).Leads holds :=
  (h { s with context := .anything } rfl).mapState fun _ => rfl

theorem leads_nested {p : Parser α} {holds : α → List TokenKind → Prop}
    (h : ∀ s' : State, s'.kinds = s.kinds → (p setting s').Leads holds) :
    (nested p setting s).Leads holds := by
  unfold nested
  split
  · trivial
  · exact (h { s with depth := s.depth + 1 } rfl).mapState fun _ => rfl

/-- What is tried and fails reads nothing. -/
theorem leads_attempt {p : Parser α} : (attempt p setting s).Leads
    fun a? rest => a? = none → rest = s.kinds := by
  unfold attempt
  cases p setting s with
  | ok a after =>
    intro h
    cases h
  | fail e after => exact fun _ => rfl

/-! ## Members -/

section

variable {g : Rules} {e : Expr} {name : String}

theorem continuation_dot (hk : s.kind = .symbol .dot) :
    continuation g e setting s = member g e setting s.advance := by
  rw [continuation, kind_bind, hk]
  rfl

theorem member_field (hk : s.kind = .ident name)
    (hcall : s.advance.kind.isSymbol .leftParen = false) :
    member g e setting s = exprNode e.span.start (.field e name) setting s.advance := by
  rw [member, kind_bind, hk]
  show (if s.advance.kind.isSymbol .leftParen = true then _ else _ : Parser Expr) setting s.advance = _
  rw [hcall]
  rfl

theorem member_methodCall (hk : s.kind = .ident name)
    (hcall : s.advance.kind.isSymbol .leftParen = true) :
    member g e setting s =
      (args g >>= fun args => exprNode e.span.start (.methodCall e name args)) setting s.advance := by
  rw [member, kind_bind, hk]
  show (if s.advance.kind.isSymbol .leftParen = true then _ else _ : Parser Expr) setting s.advance = _
  rw [hcall]
  rfl

end

end Parser

end ActorFrontend
