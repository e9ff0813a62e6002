import ActorFrontend.Proofs.Forms.Combinators
import ActorFrontend.Proofs.Indices.Expressions
import ActorFrontend.Proofs.Precedence.Answers

/-!
# Where the ways meet again

What continues an expression is taken in turn by turn.  At the dot where the ways part the turns that
follow lead to the same place on both of them, provided that the expression to the left started no later
than the dot.  It did: it starts where its first token does.
-/

namespace ActorFrontend

open ActorFrontend.Parser

variable {k : TokenKind} {g : Rules} {setting : Setting} {s t : State}

namespace Parser

/-! ## Where expressions start -/

/-- What the parser reads starts where the token at hand does. -/
def StartsHere (p : Parser Expr) : Prop :=
  ∀ (setting : Setting) (s : State) (e : Expr) (t : State), p setting s = .ok e t →
    e.span.start = (s.span setting).start

theorem start_exprNode (start : Nat) (kind : ExprKind) :
    Always (fun e : Expr => e.span.start = start) (exprNode start kind) := by
  rintro e ⟨setting, s, after, hreply⟩
  obtain ⟨rfl, -⟩ := Reply.ok.inj hreply
  rfl

namespace StartsHere

theorem asExpr (kind : Parser ExprKind) : StartsHere (Parser.asExpr kind) := by
  intro setting s e t h
  rw [Parser.asExpr, start_bind] at h
  have hnode (start : Nat) : Always (fun e : Expr => e.span.start = start)
      (kind >>= fun kind => exprNode start kind) :=
    .last fun kind => start_exprNode start kind
  exact hnode _ e ⟨setting, s, t, h⟩

theorem ifExpr : StartsHere (Parser.ifExpr g) := by
  intro setting s e t h
  obtain ⟨first, s₁, hfirst, hthen⟩ := bind_eq_ok_iff.1 h
  rw [ifHead, start_bind] at hfirst
  have hhead (start : Nat) : Always (fun head : OpenIf => head.start = start) (do
      expectKeyword .ifKw
      let cond ← condition g
      let thenBranch ← g.block
      pure ⟨start, cond, thenBranch⟩) :=
    .last fun _ => .last fun cond => .last fun thenBranch => .value rfl
  obtain ⟨⟨heads, elseBranch⟩, s₂, -, hchain⟩ := bind_eq_ok_iff.1 hthen
  obtain ⟨inner, s₃, -, hnode⟩ := bind_eq_ok_iff.1 hchain
  rw [start_exprNode _ _ e ⟨setting, s₃, t, hnode⟩, hhead _ first ⟨setting, s, s₁, hfirst⟩]

theorem expected (wanted : Expected) : StartsHere (Parser.expected wanted) :=
  fun _ _ _ _ h => nomatch h

theorem operand : StartsHere (Parser.operand g) := by
  have hkind {q : TokenKind → Parser Expr} (hq : ∀ k, StartsHere (q k)) : StartsHere (Parser.kind >>= q) :=
    fun setting s => hq s.kind setting s
  refine hkind fun k => ?_
  split
  case h_17 => exact ifExpr
  case h_27 => exact expected _
  all_goals exact asExpr _

end StartsHere

theorem start_member (object : Expr) :
    Always (fun e : Expr => e.span.start = object.span.start) (member g object) := by
  refine .last fun k => ?_
  split
  · refine .last fun _ => .last fun call => ?_
    split
    · exact .last fun args => start_exprNode _ _
    · exact start_exprNode _ _
  · exact .last fun field => .last fun _ => start_exprNode _ _
  · exact .last fun token => .last fun text => .last fun _ => .last fun id => start_exprNode _ _
  · exact .expected _

/-- What continues an expression starts where that does. -/
theorem start_continuation (left : Expr) :
    Always (fun e : Expr => e.span.start = left.span.start) (continuation g left) := by
  refine .last fun k => ?_
  split
  · exact .last fun args => start_exprNode _ _
  · exact .last fun _ => .last fun index => .last fun _ => start_exprNode _ _
  · exact .last fun _ => start_exprNode _ _
  · exact .last fun _ => start_member left
  · exact .expected _

/-- An operation starts no later than its left operand. -/
theorem start_extend (minPower : Nat) (left : Expr) :
    Always (fun r : Bool × Expr => r.2.span.start ≤ left.span.start) (extend g minPower left) := by
  have hstays : Always (fun r : Bool × Expr => r.2.span.start ≤ left.span.start) (pure (false, left)) :=
    .value (Nat.le_refl _)
  have hoperation (op : OperatorToken) :
      Always (fun e : Expr => e.span.start ≤ left.span.start) (operation g op left) :=
    .last fun _ => .last fun right => .last fun id => .value (Nat.min_le_left _ _)
  refine .last fun k => ?_
  split
  · split
    · exact hstays
    · exact .bind (start_continuation left) fun e he => .value (Nat.le_of_eq he)
  · split
    · split
      · exact hstays
      · exact .bind (hoperation _) fun e he => .value he
    · exact hstays

/-! ## Turns before the ways part -/

theorem rejoins_indexPair (object : Expr) (hk : k ≠ .symbol .dot) : (indexPair object).Rejoins k := by
  refine .span fun token => .query (fun d s s' _ hs => hs.text_eq) fun text => ?_
  exact .bind (.advance hk) fun _ k => .bind .freshId fun id k => rejoins_exprNode _ _

section

variable (hg : g.Rejoin)
include hg

theorem rejoins_member (object : Expr) : (member g object).Rejoins k := by
  refine .kind fun k => ?_
  split
  · refine .bind (.advance nofun) fun _ k => .test (·.isSymbol .leftParen) fun call => ?_
    split
    · exact .bind (rejoins_args hg) fun args _ => rejoins_exprNode _ _
    · exact rejoins_exprNode _ _
  · refine .query (fun d s s' _ hs => hs.text_eq) fun field => ?_
    exact .bind (.advance nofun) fun _ _ => rejoins_exprNode _ _
  · exact rejoins_indexPair object nofun
  · exact .expected _

/-- Anywhere but at a dot. -/
theorem rejoins_continuation (left : Expr) (hk : k ≠ .symbol .dot) : (continuation g left).Rejoins k := by
  have hcarries : (continuation g left).Carries .endOfFile true := carries_continuation hg.carry left
  refine .kindAt hcarries.keeps ?_
  split
  · exact .bind (rejoins_args hg) fun args _ => rejoins_exprNode _ _
  · refine .bind (.advance nofun) fun _ k => .bind (.enclosed (rejoins_expr hg)) fun index k => ?_
    exact .bind (.expect nofun) fun _ _ => rejoins_exprNode _ _
  · exact .bind (.advance nofun) fun _ _ => rejoins_exprNode _ _
  · exact absurd rfl hk
  · exact .expected _

theorem rejoins_operation (op : OperatorToken) (left : Expr) (hk : k ≠ .symbol .dot) :
    (operation g op left).Rejoins k := by
  refine .bind (.advance hk) fun _ k => .bind (hg.expr _ k) fun right k => ?_
  exact .bind .freshId fun id _ => .value _

theorem rejoins_extend (minPower : Nat) (left : Expr) (hk : k ≠ .symbol .dot) :
    (extend g minPower left).Rejoins k := by
  have hcarries : (extend g minPower left).Carries .endOfFile true :=
    carries_extend hg.carry minPower left
  refine .kindAt hcarries.keeps ?_
  split
  · split
    · exact .value _
    · exact .bind (rejoins_continuation hg left hk) fun e _ => .value _
  · split
    · split
      · exact .value _
      · exact .bind (rejoins_operation hg _ left hk) fun e _ => .value _
    · exact .value _

/-! ## The turn behind which the ways meet -/

omit hg in
/-- A dot is passed over in the first turn, and the turns go on behind what follows it. -/
theorem loop_extend_dot (hg : g.Follow) {minPower : Nat} (left : Expr) (hs : s.kind = .symbol .dot)
    (hpower : ∀ power ∈ continuationPower? (.symbol .dot), minPower ≤ power) :
    loop (extend g minPower) left setting s =
      (member g left >>= loop (extend g minPower)) setting s.advance := by
  have hturn : extend g minPower left setting s =
      (continuation g left >>= fun e => pure (true, e)) setting s := by
    rw [extend, kind_bind, hs]
    simp only [continuationPower?, if_neg (Nat.not_lt.2 (hpower _ rfl))]
  have hcontinuation : continuation g left setting s = member g left setting s.advance :=
    continuation_dot hs
  rw [loop_eq (progresses (follows_extend hg minPower)), hturn]
  cases hmember : member g left setting s.advance with
  | ok e after =>
    rw [bind_ok (hcontinuation.trans hmember), bind_ok hmember]
    rfl
  | fail error after =>
    rw [bind_fail (hcontinuation.trans hmember), bind_fail hmember]

/-- Turn by turn an expression is continued alike, past the dot where the ways part. -/
theorem rejoins_turns (minPower : Nat) {d : Detour} {s s' : State} {left e : Expr} (hs : d.Before s s')
    (hstart : left.span.start ≤ d.dot.token.span.start)
    (hreply : loop (extend g minPower) left d.setting s = .ok e t) (herrors : t.errors = []) :
    ∃ t', loop (extend g minPower) left d.setting s' = .ok e t' ∧ d.Joined t t' := by
  have hprogresses := progresses (follows_extend hg.follow minPower)
  have hkeeps (left : Expr) : (loop (extend g minPower) left).Keeps true :=
    .loop (fun left => (rejoins_extend hg (k := .endOfFile) minPower left nofun).keeps) left
  generalize hn : s.rest.length = n
  induction n using Nat.strongRecOn generalizing left s s' with
  | _ n ih =>
    subst hn
    by_cases hdot : s.kind = .symbol .dot
    · have hdot' : s'.kind = .symbol .dot := hs.kind_eq.symm.trans hdot
      have hlt : s.advance.rest.length < s.rest.length := s.rest_advance_lt (by simp [hdot])
      by_cases hpower : ∀ power ∈ continuationPower? (.symbol .dot), minPower ≤ power
      · rw [loop_extend_dot hg.follow left hdot hpower] at hreply
        rw [loop_extend_dot hg.follow left hdot' hpower]
        obtain ⟨hrest, hrest'⟩ | hinside := hs.parts_or_inside
        · -- here the ways part, and behind what follows they have met
          have hadvance : s'.advance = { s.advance with rest := d.right } := by
            unfold State.advance
            rw [hrest, hrest', hs.same]
          have hleft : s.advance.rest = d.left := by rw [State.rest_advance, hrest]; rfl
          rw [hadvance, ← d.meets g minPower left s.advance hg.follow hleft hstart hpower]
          exact ⟨t, hreply, .inr rfl⟩
        · obtain ⟨e₁, t₁, hmember, hthen⟩ := bind_eq_ok_iff.1 hreply
          have hmembers := rejoins_member hg (k := s.advance.kind) left
          have hkept := hmembers.keeps.kept hmember
          obtain ⟨t₁', hmember', hbefore | rfl⟩ := hmembers.rejoins d _ _ e₁ t₁ rfl hinside hmember
            (((hkeeps e₁).kept hthen).errors_eq_nil herrors)
          · rw [bind_ok hmember']
            refine ih _ (Nat.lt_of_le_of_lt hkept.rest.length_le hlt) hbefore ?_ hthen rfl
            rw [start_member left e₁ ⟨_, _, _, hmember⟩]
            exact hstart
          · rw [bind_ok hmember']
            exact ⟨t, hthen, .inr rfl⟩
      · -- the dot binds too loosely
        have hstops {s : State} (hs : s.kind = .symbol .dot) :
            extend g minPower left d.setting s = .ok (false, left) s := by
          simp only [continuationPower?, Option.mem_def, Option.some.injEq, forall_eq'] at hpower
          rw [extend, kind_bind, hs]
          simp only [continuationPower?, if_pos (Nat.lt_of_not_le hpower)]
          rfl
        rw [loop_eq hprogresses, hstops hdot] at hreply
        obtain ⟨rfl, rfl⟩ := Reply.ok.inj hreply
        exact ⟨s', by rw [loop_eq hprogresses, hstops hdot'], .inl hs⟩
    · rw [loop_eq hprogresses] at hreply
      rw [loop_eq hprogresses]
      have hextends := rejoins_extend hg minPower left hdot
      cases hturn : extend g minPower left d.setting s with
      | fail error t₁ =>
        rw [hturn] at hreply
        cases hreply
      | ok r t₁ =>
        obtain ⟨again, e₁⟩ := r
        rw [hturn] at hreply
        cases again with
        | false =>
          obtain ⟨rfl, rfl⟩ := Reply.ok.inj hreply
          obtain ⟨t₁', hturn', ht₁⟩ := hextends.rejoins d s s' _ t₁ rfl hs hturn herrors
          rw [hturn']
          exact ⟨t₁', rfl, ht₁⟩
        | true =>
          obtain ⟨t₁', hturn', hbefore | rfl⟩ := hextends.rejoins d s s' _ t₁ rfl hs hturn
            (((hkeeps e₁).kept hreply).errors_eq_nil herrors)
          · rw [hturn']
            refine ih _ (hprogresses _ _ _ _ _ hturn) hbefore ?_ hreply rfl
            exact Nat.le_trans (start_extend minPower left _ ⟨_, _, _, hturn⟩) hstart
          · rw [hturn']
            exact ⟨t, hreply, .inr rfl⟩

theorem rejoins_exprRule (minPower : Nat) : (exprRule g minPower).Rejoins k := by
  have hoperand := rejoins_operand hg (k := k)
  have hcarries : (exprRule g minPower).Carries .endOfFile true := carries_exprRule hg.carry minPower
  refine ⟨hcarries.keeps, fun d s s' e t hk hs hreply herrors => ?_⟩
  obtain ⟨first, t₁, hfirst, hthen⟩ := bind_eq_ok_iff.1 hreply
  have hturns : (loop (extend g minPower) first).Keeps true :=
    .loop (fun left => (rejoins_extend hg (k := .endOfFile) minPower left nofun).keeps) first
  obtain ⟨t₁', hfirst', hbefore | rfl⟩ := hoperand.rejoins d s s' first t₁ hk hs hfirst
    ((hturns.kept hthen).errors_eq_nil herrors)
  · change ∃ t', (operand g >>= loop (extend g minPower)) d.setting s' = .ok e t' ∧ _
    rw [bind_ok hfirst']
    refine rejoins_turns hg minPower hbefore ?_ hthen herrors
    rw [StartsHere.operand _ _ _ _ hfirst]
    exact hs.start_le
  · exact ⟨t, bind_eq_ok_iff.2 ⟨first, t₁', hfirst', hthen⟩, .inr rfl⟩

end

end Parser

end ActorFrontend
