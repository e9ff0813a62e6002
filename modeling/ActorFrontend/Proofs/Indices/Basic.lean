import ActorFrontend.Proofs.Alike.Kept
import ActorFrontend.Proofs.Course.Items

/-!
# Two ways on from a dot

Behind a dot two indices may be written as one number or apart.  Two inputs are compared that are the
same up to a dot, behind which each of them goes its own way; what takes an expression to its left along
comes to the same place on both of them.
-/

namespace ActorFrontend

open ActorFrontend.Parser

/-- Two inputs that go different ways behind a dot. -/
structure Detour where
  setting : Setting
  dot : Lexeme
  left : List Lexeme
  right : List Lexeme
  isDot : dot.token.kind = .symbol .dot
  left_number : ∃ lexeme rest, left = lexeme :: rest ∧ isNumber lexeme.token.kind = true
  right_number : ∃ lexeme rest, right = lexeme :: rest ∧ isNumber lexeme.token.kind = true
  /-- An expression that started no later than the dot is continued alike on both ways. -/
  meets : ∀ (g : Rules) (minPower : Nat) (object : Expr) (s : State), g.Follow → s.rest = left →
    object.span.start ≤ dot.token.span.start →
    (∀ power ∈ continuationPower? (.symbol .dot), minPower ≤ power) →
      (member g object >>= loop (extend g minPower)) setting s =
        (member g object >>= loop (extend g minPower)) setting { s with rest := right }

namespace Detour

/-- The ways the other way round. -/
def swap (d : Detour) : Detour :=
  { d with
    left := d.right
    right := d.left
    left_number := d.right_number
    right_number := d.left_number
    meets := fun g minPower object s hg hrest hstart hpower =>
      (congrArg _ (by rw [← hrest])).trans
        (d.meets g minPower object { s with rest := d.left } hg rfl hstart hpower).symm }

/-- Two states at the dot or before it that differ only in what follows the dot. -/
structure Before (d : Detour) (s s' : State) : Prop where
  rest : ∃ ts, (∀ lexeme ∈ ts, lexeme.token.span.start ≤ d.dot.token.span.start) ∧
    s.rest = ts ++ d.dot :: d.left ∧ s'.rest = ts ++ d.dot :: d.right
  same : s' = { s with rest := s'.rest }
  errors : s.errors = []
  running : s.halted = false

/-- The ways have not parted yet, or they have met again. -/
def Joined (d : Detour) (s s' : State) : Prop := d.Before s s' ∨ s' = s

namespace Before

variable {d : Detour} {s s' t t' : State}

theorem swap (h : d.Before s s') : d.swap.Before s' s where
  rest := by
    obtain ⟨ts, hts, hrest, hrest'⟩ := h.rest
    exact ⟨ts, hts, hrest', hrest⟩
  same := by rw [h.same]
  errors := by
    rw [h.same]
    exact h.errors
  running := by
    rw [h.same]
    exact h.running

/-- A change that does not concern the tokens, nor the errors. -/
theorem congr (h : d.Before s s') (hrest : t.rest = s.rest) (hrest' : t'.rest = s'.rest)
    (hsame : t' = { t with rest := t'.rest }) (herrors : t.errors = s.errors)
    (hhalted : t.halted = s.halted) : d.Before t t' :=
  ⟨by rw [hrest, hrest']; exact h.rest, hsame, herrors.trans h.errors, hhalted.trans h.running⟩

/-- The first token that is left is the same in both states. -/
theorem exists_head (h : d.Before s s') : ∃ lexeme ts ts', s.rest = lexeme :: ts ∧
    s'.rest = lexeme :: ts' ∧ lexeme.token.span.start ≤ d.dot.token.span.start := by
  obtain ⟨ts, hts, hrest, hrest'⟩ := h.rest
  cases ts with
  | nil => exact ⟨_, _, _, hrest, hrest', Nat.le_refl _⟩
  | cons lexeme ts => exact ⟨_, _, _, hrest, hrest', hts lexeme List.mem_cons_self⟩

theorem kind_eq (h : d.Before s s') : s.kind = s'.kind := by
  obtain ⟨lexeme, ts, ts', hrest, hrest', -⟩ := h.exists_head
  rw [State.kind, State.kind, hrest, hrest']

theorem span_eq (h : d.Before s s') : s.span d.setting = s'.span d.setting := by
  obtain ⟨lexeme, ts, ts', hrest, hrest', -⟩ := h.exists_head
  rw [State.span, State.span, hrest, hrest']

theorem text_eq (h : d.Before s s') : s.text = s'.text := by
  obtain ⟨lexeme, ts, ts', hrest, hrest', -⟩ := h.exists_head
  rw [State.text, State.text, hrest, hrest']

theorem atEnd_eq (h : d.Before s s') : s.atEnd = s'.atEnd := by
  obtain ⟨lexeme, ts, ts', hrest, hrest', -⟩ := h.exists_head
  rw [State.atEnd, State.atEnd, hrest, hrest']
  rfl

theorem attachedUnit?_eq (h : d.Before s s') : s.attachedUnit? = s'.attachedUnit? := by
  obtain ⟨lexeme, ts, ts', hrest, hrest', -⟩ := h.exists_head
  have hprevious : s'.previousEnd = s.previousEnd := by rw [h.same]
  rw [State.attachedUnit?, State.attachedUnit?, hrest, hrest', hprevious]

theorem start_le (h : d.Before s s') : (s.span d.setting).start ≤ d.dot.token.span.start := by
  obtain ⟨lexeme, ts, ts', hrest, -, hstart⟩ := h.exists_head
  rw [State.span, hrest]
  exact hstart

/-- The tokens at hand are the last ones before the ways part, or the same token that stands before
them. -/
theorem parts_or_inside (h : d.Before s s') :
    (s.rest = d.dot :: d.left ∧ s'.rest = d.dot :: d.right) ∨ d.Before s.advance s'.advance := by
  obtain ⟨ts, hts, hrest, hrest'⟩ := h.rest
  cases ts with
  | nil => exact .inl ⟨hrest, hrest'⟩
  | cons lexeme ts =>
    have hadvance : s.advance =
        { s with rest := ts ++ d.dot :: d.left, previousEnd := lexeme.token.span.stop } := by
      unfold State.advance
      rw [hrest]
      rfl
    have hadvance' : s'.advance =
        { s with rest := ts ++ d.dot :: d.right, previousEnd := lexeme.token.span.stop } := by
      unfold State.advance
      rw [hrest', h.same]
      rfl
    rw [hadvance, hadvance']
    exact .inr ⟨⟨ts, fun l hl => hts l (List.mem_cons_of_mem _ hl), rfl, rfl⟩, rfl, h.errors, h.running⟩

theorem advance (h : d.Before s s') (hkind : s.kind ≠ .symbol .dot) : d.Before s.advance s'.advance := by
  obtain ⟨hrest, -⟩ | hinside := h.parts_or_inside
  · rw [State.kind, hrest] at hkind
    exact absurd d.isDot hkind
  · exact hinside

/-- The kind of the next token is the same in both states, if that token does not stand behind the dot. -/
theorem peek_eq (h : d.Before s s') (hkind : s.kind ≠ .symbol .dot) : s.peek 1 = s'.peek 1 := by
  rw [← kind_advance, ← kind_advance, (h.advance hkind).kind_eq]

/-- What holds of no number does not tell the tokens behind the dot apart. -/
theorem next_eq (h : d.Before s s') {f : TokenKind → Bool}
    (hf : ∀ k, isNumber k = true → f k = false) : f s.advance.kind = f s'.advance.kind := by
  obtain ⟨hrest, hrest'⟩ | hinside := h.parts_or_inside
  · obtain ⟨lexeme, more, hleft, hnumber⟩ := d.left_number
    obtain ⟨lexeme', more', hright, hnumber'⟩ := d.right_number
    rw [kind_advance, kind_advance, State.peek, State.peek, hrest, hrest', hleft, hright]
    exact (hf _ hnumber).trans (hf _ hnumber').symm
  · rw [hinside.kind_eq]

end Before

end Detour

end ActorFrontend
