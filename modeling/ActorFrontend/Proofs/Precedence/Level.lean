import ActorFrontend.Proofs.Precedence.Term

/-!
# Levels

A token that stands behind a term goes to the last operand of the term, to the term, or to what is
around it.  Which of them it is depends on its power alone.
-/

namespace ActorFrontend

/-- The power of a token that continues or joins expressions. -/
def TokenKind.power? (k : TokenKind) : Option Nat :=
  match continuationPower? k with
  | some power => some power
  | none => (OperatorToken.ofToken? k).map OperatorToken.power

/-- The next token ends an expression whose operators have the power `m` at least. -/
def Stops (m : Nat) (ks : List TokenKind) : Prop :=
  ∀ k ∈ ks.head?, ∀ power ∈ k.power?, power < m

namespace OperatorToken

theorem power_le (op : OperatorToken) : op.power ≤ 15 := by
  cases op with
  | binary op => cases op <;> decide
  | range _ => exact Nat.le_of_ble_eq_true rfl

theorem groupsRight_iff (op : OperatorToken) :
    op.groupsRight = true ↔ op.power = 1 ∨ op.power = 11 := by
  cases op with
  | binary op => cases op <;> decide
  | range _ => exact ⟨fun _ => .inr rfl, fun _ => rfl⟩

theorem rightPower_le (op : OperatorToken) : op.rightPower ≤ 16 := by
  have hpower := op.power_le
  unfold rightPower
  split <;> omega

theorem power_le_leftPower (op : OperatorToken) : op.power ≤ op.leftPower := by
  unfold leftPower
  split <;> omega

theorem power_le_rightPower (op : OperatorToken) : op.power ≤ op.rightPower := by
  unfold rightPower
  split <;> omega

/-- An operator may be applied first, left of another one, if and only if it leaves the other one
alone: on a level all operators group in the same direction. -/
theorem leftPower_le_iff (op op' : OperatorToken) :
    op.leftPower ≤ op'.power ↔ op.power < op'.rightPower := by
  -- operators of one power group in one direction: only those of the powers 1 and 11 to the right
  have hright := op.groupsRight_iff
  have hright' := op'.groupsRight_iff
  unfold leftPower rightPower
  by_cases h : op.groupsRight = true
  · by_cases h' : op'.groupsRight = true
    · rw [if_pos h, if_pos h']
      omega
    · rw [if_pos h, if_neg h']
      have hpower := hright.1 h
      have hpower' : ¬(op'.power = 1 ∨ op'.power = 11) := fun hor => h' (hright'.2 hor)
      omega
  · by_cases h' : op'.groupsRight = true
    · rw [if_neg h, if_pos h']
      have hpower := hright'.1 h'
      have hpower' : ¬(op.power = 1 ∨ op.power = 11) := fun hor => h (hright.2 hor)
      omega
    · rw [if_neg h, if_neg h']
      omega

theorem continuationPower?_eq_none {k : TokenKind} {op : OperatorToken}
    (h : ofToken? k = some op) : continuationPower? k = none := by
  unfold ofToken? at h
  split at h <;> first | rfl | cases h

theorem power?_eq {k : TokenKind} {op : OperatorToken} (h : ofToken? k = some op) :
    k.power? = some op.power := by
  rw [TokenKind.power?, continuationPower?_eq_none h, h]
  rfl

end OperatorToken

theorem continuationPower?_eq {k : TokenKind} {power : Nat}
    (h : continuationPower? k = some power) : power = 19 ∨ power = 20 := by
  unfold continuationPower? at h
  split at h <;> simp_all

theorem TokenKind.power?_cases {k : TokenKind} {power : Nat} (h : k.power? = some power) :
    power ≤ 15 ∨ power = 19 ∨ power = 20 := by
  unfold TokenKind.power? at h
  split at h
  case h_1 hpower =>
    cases h
    exact .inr (continuationPower?_eq hpower)
  case h_2 =>
    obtain ⟨op, -, rfl⟩ := Option.map_eq_some_iff.1 h
    exact .inl op.power_le

namespace Stops

variable {m m' : Nat} {k : TokenKind} {ks : List TokenKind}

theorem nil (m : Nat) : Stops m [] := by
  intro k hk
  cases hk

theorem mono (h : Stops m ks) (hle : m ≤ m') : Stops m' ks := fun k hk power hpower =>
  Nat.lt_of_lt_of_le (h k hk power hpower) hle

theorem cons_iff : Stops m (k :: ks) ↔ ∀ power, k.power? = some power → power < m := by
  simp [Stops]

/-- Between the operators and what continues an expression no token has a power. -/
theorem of_le (h : Stops m ks) (hm : m ≤ 19) : Stops 16 ks := by
  intro k hk power hpower
  have hlt := h k hk power hpower
  have hcases := TokenKind.power?_cases hpower
  omega

end Stops

namespace Term

/-- The power that the next token must have for the last operand of the term to take it; there is no
such power if the term ends in itself. -/
def reach : Term → Nat
  | .operation op _ _ => op.rightPower
  | .prefixed .. => unaryPower
  | _ => 21

/-- The next token goes neither to the last operand of the term nor to the name of a field. -/
structure LeftAlone (t : Term) (ks : List TokenKind) : Prop where
  stops : Stops t.reach ks
  uncalled : t.isField = true → ks.head? ≠ some (.symbol .leftParen)

variable {t : Term} {m m' : Nat} {k : TokenKind} {ks : List TokenKind}

theorem reach_of_isClosed (h : t.isClosed = true) : t.reach = 21 := by
  cases t <;> first | rfl | cases h

theorem stops_of_isClosed (h : t.isClosed = true) : Stops t.reach ks := by
  intro k _ power hpower
  have hcases := TokenKind.power?_cases hpower
  rw [reach_of_isClosed h]
  omega

theorem LeftAlone.of_isClosed (h : t.isClosed = true) (hfield : t.isField = false) :
    t.LeftAlone ks where
  stops := stops_of_isClosed h
  uncalled := by simp [hfield]

theorem LeftAlone.isField_eq_false (h : t.LeftAlone (.symbol .leftParen :: ks)) :
    t.isField = false :=
  Bool.eq_false_iff.2 fun hfield => h.uncalled hfield rfl

/-- What ends in itself has no level. -/
theorem Canonical.of_isClosed (h : t.Canonical m) (ht : t.isClosed = true) : t.Canonical m' := by
  induction h with
  | int => exact .int
  | name => exact .name
  | paren hinner => exact .paren hinner
  | call hclosed hfield _ hargs ih => exact .call hclosed hfield (ih hclosed) hargs
  | index hclosed _ hindex ih => exact .index hclosed (ih hclosed) hindex
  | field hclosed _ ih => exact .field hclosed (ih hclosed)
  | methodCall hclosed _ hargs ih => exact .methodCall hclosed (ih hclosed) hargs
  | propagate hclosed _ ih => exact .propagate hclosed (ih hclosed)
  | prefixed => cases ht
  | operation => cases ht

theorem Canonical.mono (h : t.Canonical m) (hle : m' ≤ m) : t.Canonical m' := by
  by_cases ht : t.isClosed = true
  · exact h.of_isClosed ht
  · cases h with
    | prefixed hoperand => exact .prefixed hoperand
    | operation hpower hleft hright => exact .operation (Nat.le_trans hle hpower) hleft hright
    | _ => exact absurd rfl ht

/-- What ends an expression leaves it alone. -/
theorem Canonical.leftAlone (h : t.Canonical m) (hm : m ≤ 19) (hks : Stops m ks) :
    t.LeftAlone ks := by
  constructor
  case stops =>
    by_cases ht : t.isClosed = true
    · exact stops_of_isClosed ht
    · cases h with
      | prefixed hoperand => exact (hks.of_le hm).mono (Nat.le_succ 16)
      | operation hpower hleft hright =>
        exact hks.mono (Nat.le_trans hpower (OperatorToken.power_le_rightPower _))
      | _ => exact absurd rfl ht
  case uncalled =>
    intro _ hhead
    -- a parenthesis has the power 19 and would continue the expression
    have hlt : 19 < m := hks _ hhead 19 rfl
    omega

/-- Before an operator stands what is canonical on the level of its left operand, and nothing
else. -/
theorem Canonical.leftAlone_iff {op : OperatorToken} (h : t.Canonical m)
    (hk : OperatorToken.ofToken? k = some op) :
    t.LeftAlone (k :: ks) ↔ t.Canonical op.leftPower := by
  have hstops : ∀ reach, Stops reach (k :: ks) ↔ op.power < reach := by
    intro reach
    rw [Stops.cons_iff, OperatorToken.power?_eq hk]
    simp
  -- an operator calls nothing
  have huncalled : (k :: ks).head? ≠ some (.symbol .leftParen) := by
    rintro heq
    cases heq
    cases hk
  have hpower := op.power_le
  constructor
  · intro halone
    by_cases ht : t.isClosed = true
    · exact h.of_isClosed ht
    · cases h with
      | prefixed hoperand => exact .prefixed hoperand
      | operation _ hleft hright =>
        exact .operation ((op.leftPower_le_iff _).2 ((hstops _).1 halone.stops)) hleft hright
      | _ => exact absurd rfl ht
  · intro hlevel
    refine ⟨(hstops _).2 ?_, fun _ => huncalled⟩
    by_cases ht : t.isClosed = true
    · rw [reach_of_isClosed ht]
      omega
    · cases hlevel with
      | prefixed =>
        show op.power < 17
        omega
      | operation hle => exact (op.leftPower_le_iff _).1 hle
      | _ => exact absurd rfl ht

/-- Only what ends in itself is continued. -/
theorem LeftAlone.isClosed {power : Nat} (h : t.LeftAlone (k :: ks))
    (hk : continuationPower? k = some power) : t.isClosed = true := by
  have hpower : k.power? = some power := by rw [TokenKind.power?, hk]
  have hlt := Stops.cons_iff.1 h.stops power hpower
  have hcases := continuationPower?_eq hk
  -- the powers of continuations lie above the reach of every term that takes operands
  cases t with
  | prefixed op operand =>
    have hreach : (Term.prefixed op operand).reach = 17 := rfl
    omega
  | operation op left right =>
    have hreach : (Term.operation op left right).reach ≤ 16 := op.rightPower_le
    omega
  | _ => rfl

end Term

end ActorFrontend
