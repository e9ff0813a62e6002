import ActorFrontend.Proofs.Course.Steps

/-!
# Up to a closing parenthesis

The text of an argument is read up to its end, or up to the parenthesis that closes it.  Two inputs are
compared that are the same up to such a place: a reading that stops there in the one, without an error,
stops there in the other one with the same answer.

What is in the midst of something must find it closed further on, so most readings need only be compared
where they stop before that place.
-/

namespace ActorFrontend

variable {α : Type}

/-! ## Where inputs part -/

/-- What follows goes on with nothing that ends in a closing parenthesis: it starts with a name, or with a
semicolon that stands before no number. -/
inductive EndsGroup : List TokenKind → Prop where
  | name (name : String) (ks : List TokenKind) : EndsGroup (.ident name :: ks)
  | semicolon {ks : List TokenKind} (h : ∀ value, ks.head? ≠ some (.int value)) :
      EndsGroup (.symbol .semicolon :: ks)

/-- The end of the input, or a closing parenthesis where that would be. -/
inductive Closing (setting : Setting) (place : Span) : List Lexeme → Prop where
  | nothing (h : setting.endOfInput = place) : Closing setting place []
  | paren {paren : Lexeme} {more : List Lexeme} (hkind : paren.token.kind = .symbol .rightParen)
      (hspan : paren.token.span = place)
      (hmore : EndsGroup (more.map fun lexeme => lexeme.token.kind)) :
      Closing setting place (paren :: more)

/-- Two inputs that are the same up to where each of them ends or is closed. -/
structure Parting where
  setting : Setting
  setting' : Setting
  place : Span
  left : List Lexeme
  right : List Lexeme
  limits : setting.limits = setting'.limits
  left_closing : Closing setting place left
  right_closing : Closing setting' place right

theorem Closing.kind {setting : Setting} {place : Span} {rest : List Lexeme} {s : State}
    (h : Closing setting place rest) (hs : s.rest = rest) :
    s.kind = .endOfFile ∨ s.kind = .symbol .rightParen := by
  rw [State.kind, hs]
  cases h with
  | nothing => exact .inl rfl
  | paren hkind => exact .inr hkind

theorem Closing.span {setting : Setting} {place : Span} {rest : List Lexeme} {s : State}
    (h : Closing setting place rest) (hs : s.rest = rest) : s.span setting = place := by
  rw [State.span, hs]
  cases h with
  | nothing hplace => exact hplace
  | paren _ hspan => exact hspan

namespace Parting

/-- The inputs the other way round. -/
def swap (parting : Parting) : Parting :=
  { parting with
    setting := parting.setting'
    setting' := parting.setting
    left := parting.right
    right := parting.left
    limits := parting.limits.symm
    left_closing := parting.right_closing
    right_closing := parting.left_closing }

/-- Two states before the place where the inputs part, or at it, that differ only in what follows. -/
structure Before (parting : Parting) (s s' : State) : Prop where
  rest : ∃ ts, s.rest = ts ++ parting.left ∧ s'.rest = ts ++ parting.right
  same : s' = { s with rest := s'.rest }
  errors : s.errors = []
  running : s.halted = false

/-- The first run has not got beyond the place where the inputs part, and stands before it if it has to go
on. -/
def Stays (parting : Parting) (final : Bool) (s : State) : Prop :=
  parting.left.length + (bif final then 0 else 1) ≤ s.rest.length

variable {parting : Parting} {s s' t t' : State} {final : Bool}

theorem Stays.of_suffix (h : parting.Stays final t) (hrest : t.rest <:+ s.rest) :
    parting.Stays final s :=
  Nat.le_trans h hrest.length_le

theorem Stays.length_le (h : parting.Stays final s) : parting.left.length ≤ s.rest.length := by
  unfold Stays at h
  omega

theorem stays_false_iff : parting.Stays false s ↔ parting.left.length < s.rest.length := Iff.rfl

theorem stays_true_iff : parting.Stays true s ↔ parting.left.length ≤ s.rest.length := Iff.rfl

namespace Before

theorem swap (h : parting.Before s s') : parting.swap.Before s' s where
  rest := by
    obtain ⟨ts, hrest, hrest'⟩ := h.rest
    exact ⟨ts, hrest', hrest⟩
  same := by rw [h.same]
  errors := by
    rw [h.same]
    exact h.errors
  running := by
    rw [h.same]
    exact h.running

/-- A change that does not concern the tokens, nor the errors. -/
theorem congr (h : parting.Before s s') (hrest : t.rest = s.rest) (hrest' : t'.rest = s'.rest)
    (hsame : t' = { t with rest := t'.rest }) (herrors : t.errors = s.errors)
    (hhalted : t.halted = s.halted) : parting.Before t t' :=
  ⟨by rw [hrest, hrest']; exact h.rest, hsame, herrors.trans h.errors, hhalted.trans h.running⟩

/-- Both states stand where the inputs part, or before the same token. -/
theorem parted_or_inside (h : parting.Before s s') :
    (s.rest = parting.left ∧ s'.rest = parting.right) ∨
      ∃ lexeme ts, s.rest = lexeme :: ts ++ parting.left ∧ s'.rest = lexeme :: ts ++ parting.right := by
  obtain ⟨ts, hrest, hrest'⟩ := h.rest
  cases ts with
  | nil => exact .inl ⟨hrest, hrest'⟩
  | cons lexeme ts => exact .inr ⟨lexeme, ts, hrest, hrest'⟩

theorem inside (h : parting.Before s s') (hstays : parting.Stays false s) :
    ∃ lexeme ts, s.rest = lexeme :: ts ++ parting.left ∧ s'.rest = lexeme :: ts ++ parting.right := by
  obtain ⟨hleft, -⟩ | hinside := h.parted_or_inside
  · have hlt := stays_false_iff.1 hstays
    rw [hleft] at hlt
    exact absurd hlt (Nat.lt_irrefl _)
  · exact hinside

theorem span_eq (h : parting.Before s s') : s.span parting.setting = s'.span parting.setting' := by
  obtain ⟨hleft, hright⟩ | ⟨lexeme, ts, hrest, hrest'⟩ := h.parted_or_inside
  · rw [parting.left_closing.span hleft, parting.right_closing.span hright]
  · rw [State.span, State.span, hrest, hrest']
    rfl

/-- The tokens at hand are the same, or both are such as an argument can end before. -/
theorem kind_eq_or (h : parting.Before s s') (hstays : parting.Stays final s) :
    s.kind = s'.kind ∨ final = true ∧
      (s.kind = .endOfFile ∨ s.kind = .symbol .rightParen) ∧
      (s'.kind = .endOfFile ∨ s'.kind = .symbol .rightParen) := by
  obtain ⟨hleft, hright⟩ | ⟨lexeme, ts, hrest, hrest'⟩ := h.parted_or_inside
  · refine .inr ⟨?_, parting.left_closing.kind hleft, parting.right_closing.kind hright⟩
    cases final with
    | true => rfl
    | false =>
      rw [stays_false_iff, hleft] at hstays
      exact absurd hstays (Nat.lt_irrefl _)
  · rw [State.kind, State.kind, hrest, hrest']
    exact .inl rfl

theorem kind_eq (h : parting.Before s s') (hstays : parting.Stays false s) : s.kind = s'.kind := by
  obtain heq | ⟨hfinal, -⟩ := h.kind_eq_or hstays
  · exact heq
  · cases hfinal

/-- What does not tell the end of the input from a closing parenthesis is the same in both states. -/
theorem test_eq (h : parting.Before s s') (hstays : parting.Stays final s) {f : TokenKind → α}
    (hf : final = true → f .endOfFile = f (.symbol .rightParen)) : f s.kind = f s'.kind := by
  obtain heq | ⟨hfinal, hkind, hkind'⟩ := h.kind_eq_or hstays
  · rw [heq]
  · have hf := hf hfinal
    obtain hs | hs := hkind <;> obtain hs' | hs' := hkind' <;> simp only [hs, hs', hf]

/-- No argument ends before such a token, so the inputs have not parted. -/
theorem stays_of_kind (h : parting.Before s s') (hend : s.kind ≠ .endOfFile)
    (hclose : s.kind ≠ .symbol .rightParen) : parting.Stays false s := by
  obtain ⟨hleft, -⟩ | ⟨lexeme, ts, hrest, -⟩ := h.parted_or_inside
  · obtain hs | hs := parting.left_closing.kind hleft
    · exact absurd hs hend
    · exact absurd hs hclose
  · rw [stays_false_iff, hrest, List.length_append, List.length_cons]
    omega

theorem stays (h : parting.Before s s') : parting.Stays true s := by
  obtain ⟨ts, hrest, -⟩ := h.rest
  rw [stays_true_iff, hrest, List.length_append]
  omega

/-- Where a token has been passed over the inputs have not parted before it. -/
theorem stays_of_advance (hend : s.kind ≠ .endOfFile) (hstays : parting.Stays final s.advance) :
    parting.Stays false s :=
  Nat.lt_of_le_of_lt hstays.length_le (s.rest_advance_lt hend)

theorem advance (h : parting.Before s s') (hstays : parting.Stays false s) :
    parting.Before s.advance s'.advance := by
  obtain ⟨lexeme, ts, hrest, hrest'⟩ := h.inside hstays
  have hadvance : s.advance =
      { s with rest := ts ++ parting.left, previousEnd := lexeme.token.span.stop } := by
    unfold State.advance
    rw [hrest]
    rfl
  have hadvance' : s'.advance =
      { s with rest := ts ++ parting.right, previousEnd := lexeme.token.span.stop } := by
    unfold State.advance
    rw [hrest', h.same]
    rfl
  rw [hadvance, hadvance']
  exact ⟨⟨ts, rfl, rfl⟩, rfl, h.errors, h.running⟩

/-- What does not tell the end of the input from a closing parenthesis does not tell what follows the token
at hand apart. -/
theorem next_eq (h : parting.Before s s') (hstays : parting.Stays false s) {f : TokenKind → α}
    (hf : f .endOfFile = f (.symbol .rightParen)) : f s.advance.kind = f s'.advance.kind :=
  (h.advance hstays).test_eq (h.advance hstays).stays fun _ => hf

end Before

end Parting

end ActorFrontend
