import ActorFrontend.Proofs.Alike.Astray
import ActorFrontend.Proofs.Alike.HeadText

/-!
# Readings that have passed a place

A semicolon that has been left out is assumed where the token read last ends.  So nothing is mended at
a place any more once the token that ends there has been passed over and another one has been read,
or is going to be read first.
-/

namespace ActorFrontend

open ActorFrontend.Parser ActorFrontend.Recovery

variable {α β σ : Type} {p depth : Nat} {setting : Setting} {φ ψ χ : Footing} {s s' : State}
  {rest rest' stop behind : List Lexeme} {parts : Parts}

/-! ## Places -/

/-- The error says that a semicolon has been assumed at `p`. -/
def ParseError.MendsAt (p : Nat) (e : ParseError) : Prop :=
  (∃ k, e.cause = .missingSemicolon k) ∧ e.span.start = p

theorem ParseError.not_mendsAt {e : ParseError} (h : e.cause.stops = true) : ¬ e.MendsAt p := by
  rintro ⟨⟨k, hcause⟩, -⟩
  rw [hcause] at h
  cases h

/-- Nothing has been mended at `p`. -/
def NoMend (p : Nat) (errors : List ParseError) : Prop := ∀ e ∈ errors, ¬ e.MendsAt p

theorem NoMend.nil : NoMend p [] := nofun

theorem NoMend.append {errors errors' : List ParseError} (h : NoMend p errors)
    (h' : NoMend p errors') : NoMend p (errors ++ errors') := fun e he =>
  (List.mem_append.1 he).elim (h e) (h' e)

theorem NoMend.concat {errors : List ParseError} {e : ParseError} (h : NoMend p errors)
    (he : ¬ e.MendsAt p) : NoMend p (errors ++ [e]) :=
  h.append (by simpa [NoMend] using he)

/-- Neither the token nor one that is spliced into it ends at `p`. -/
inductive Token.Avoids (p : Nat) : Token → Prop where
  | mk {t : Token} (hstop : t.span.stop ≠ p)
      (hsplices : ∀ fragments tokens span, t.kind = .interpolated fragments →
        .splice tokens span ∈ fragments →
          ∀ lexeme ∈ Lexeme.significant false tokens, Avoids p lexeme.token) : Avoids p t

/-- No token ends at `p`, nor does one that is spliced into another. -/
def Avoiding (p : Nat) (rest : List Lexeme) : Prop := ∀ lexeme ∈ rest, lexeme.token.Avoids p

theorem Avoiding.suffix (h : Avoiding p rest) (hsuffix : rest' <:+ rest) : Avoiding p rest' :=
  fun lexeme hl => h lexeme (hsuffix.subset hl)

/-! ## In the head of a lambda -/

namespace Lexeme.HeadText

/-- Some tokens further on one is still in the head of the lambda, or behind it. -/
theorem drop (h : HeadText stop depth rest) (k : Nat) :
    rest.drop k <:+ stop ∨
      stop.length < (rest.drop k).length ∧ ∃ depth', HeadText stop depth' (rest.drop k) := by
  induction h generalizing k with
  | stop => exact .inl (List.drop_suffix _ _)
  | symbol hkind hin hsemicolon h ih =>
    cases k with
    | zero => exact .inr ⟨Nat.lt_succ_of_le h.suffix.length_le, _, .symbol hkind hin hsemicolon h⟩
    | succ k => exact ih k
  | other hkind hin h ih =>
    cases k with
    | zero => exact .inr ⟨Nat.lt_succ_of_le h.suffix.length_le, _, .other hkind hin h⟩
    | succ k => exact ih k

end Lexeme.HeadText

/-- In the head of a lambda no brace stands. -/
theorem Lexeme.InHead.symbol_ne {lexeme : Lexeme} {symbol : Symbol} (h : lexeme.InHead rest)
    (hkind : lexeme.token.kind = .symbol symbol) :
    symbol ≠ .rightBrace ∧ symbol ≠ .leftBrace := by
  have hin := h.kind
  rw [hkind] at hin
  constructor <;> rintro rfl <;> cases hin

theorem Lexeme.InHead.keyword_cases {lexeme : Lexeme} {k : Keyword} (h : lexeme.InHead rest)
    (hkind : lexeme.token.kind = .keyword k) : k = .fnKw ∨ k = .constKw ∨ k = .dynKw := by
  have hin := h.kind
  rw [hkind] at hin
  simpa [TokenKind.inHead, or_assoc] using hin

theorem Recovery.toStatement_symbol {lexeme : Lexeme} {symbol : Symbol}
    (hkind : lexeme.token.kind = .symbol symbol) (hsemicolon : symbol = .semicolon → depth ≠ 0)
    (hbrace : symbol ≠ .rightBrace) :
    toStatement depth (lexeme :: rest) = toStatement (depthAfter symbol depth) rest + 1 := by
  conv => lhs; unfold toStatement
  split <;> simp_all

theorem Recovery.toStatement_other {lexeme : Lexeme} (hkind : ∀ s, lexeme.token.kind ≠ .symbol s)
    (hkeyword : ∀ k, lexeme.token.kind = .keyword k → k.startsStatement = false) :
    toStatement depth (lexeme :: rest) = toStatement depth rest + 1 := by
  conv => lhs; unfold toStatement
  split <;> simp_all

theorem Recovery.toMember_symbol {lexeme : Lexeme} {symbol : Symbol}
    (hkind : lexeme.token.kind = .symbol symbol) (hsemicolon : symbol = .semicolon → depth ≠ 0)
    (hbrace : symbol ≠ .rightBrace) :
    toMember depth (lexeme :: rest) = toMember (depthAfter symbol depth) rest + 1 := by
  conv => lhs; unfold toMember
  split <;> simp_all

theorem Recovery.toMember_other {lexeme : Lexeme} (hkind : ∀ s, lexeme.token.kind ≠ .symbol s)
    (hkeyword : ∀ k, lexeme.token.kind = .keyword k → k.startsMember = true → depth ≠ 0) :
    toMember depth (lexeme :: rest) = toMember depth rest + 1 := by
  conv => lhs; unfold toMember
  split <;> simp_all

/-- The next statement does not start in the head of a lambda. -/
theorem Lexeme.HeadText.drop_toStatement (h : HeadText stop depth rest) :
    rest.drop (toStatement depth rest) <:+ stop := by
  induction h with
  | stop => exact List.drop_suffix _ _
  | symbol hkind hin hsemicolon _ ih =>
    rw [toStatement_symbol hkind hsemicolon (hin.symbol_ne hkind).1]
    exact ih
  | other hkind hin _ ih =>
    rw [toStatement_other hkind]
    · exact ih
    · intro k hk
      obtain rfl | rfl | rfl := hin.keyword_cases hk <;> rfl

/-- The next member starts in the head of a lambda only where the type of a function does. -/
theorem Lexeme.HeadText.drop_toMember (h : HeadText stop depth rest) :
    rest.drop (toMember depth rest) <:+ stop ∨
      stop.length < (rest.drop (toMember depth rest)).length ∧
        firstKind (rest.drop (toMember depth rest)) = .keyword .fnKw ∧
          HeadText stop 0 (rest.drop (toMember depth rest)) := by
  induction h with
  | stop => exact .inl (List.drop_suffix _ _)
  | symbol hkind hin hsemicolon _ ih =>
    rw [toMember_symbol hkind hsemicolon (hin.symbol_ne hkind).1]
    exact ih
  | @other lexeme rest depth hkind hin h ih =>
    by_cases hstart : lexeme.token.kind = .keyword .fnKw ∧ depth = 0
    · obtain ⟨hfn, rfl⟩ := hstart
      have hzero : toMember 0 (lexeme :: rest) = 0 := by simp [toMember, hfn, Keyword.startsMember]
      rw [hzero]
      exact .inr ⟨Nat.lt_succ_of_le h.suffix.length_le, hfn, .other hkind hin h⟩
    · rw [toMember_other hkind]
      · exact ih
      · intro k hk hstarts
        obtain rfl | rfl | rfl := hin.keyword_cases hk
        · exact fun hdepth => hstart ⟨hk, hdepth⟩
        · cases hstarts
        · cases hstarts

/-- The tokens up to others that avoid `p` are from the head of a lambda. -/
def InHeadBefore (p : Nat) (parts : Parts) (rest : List Lexeme) : Prop :=
  ∃ behind depth, Lexeme.HeadText behind depth rest ∧ (parts ≠ .items → depth = 0) ∧
    behind.length < rest.length ∧ Avoiding p behind

namespace InHeadBefore

theorem ofStatements (h : InHeadBefore p .statements rest) : InHeadBefore p parts rest := by
  obtain ⟨behind, depth, htext, hdepth, hlt, havoid⟩ := h
  exact ⟨behind, depth, htext, fun _ => hdepth nofun, hlt, havoid⟩

theorem dropItems (h : InHeadBefore p .items rest) (k : Nat) :
    Avoiding p (rest.drop k) ∨ InHeadBefore p .items (rest.drop k) := by
  obtain ⟨behind, depth, htext, -, -, havoid⟩ := h
  obtain hsuffix | ⟨hlt, depth', htext⟩ := htext.drop k
  · exact .inl (havoid.suffix hsuffix)
  · exact .inr ⟨behind, depth', htext, fun h => absurd rfl h, hlt, havoid⟩

/-- A token that changes nothing about the brackets is passed over. -/
theorem tail {lexeme : Lexeme} (h : InHeadBefore p parts (lexeme :: rest))
    (hkind : ∀ s, lexeme.token.kind ≠ .symbol s) : Avoiding p rest ∨ InHeadBefore p parts rest := by
  obtain ⟨behind, depth, htext, hdepth, hlt, havoid⟩ := h
  cases htext with
  | stop => exact absurd hlt (Nat.lt_irrefl _)
  | symbol hsymbol => exact absurd hsymbol (hkind _)
  | other _ _ htext =>
    obtain hlt | heq := Nat.lt_or_eq_of_le htext.suffix.length_le
    · exact .inr ⟨behind, depth, htext, hdepth, hlt, havoid⟩
    · exact .inl (htext.suffix.eq_of_length heq ▸ havoid)

/-- Where a recovery in the head of a lambda leads: beyond it, or to a place from which nothing is
read. -/
theorem resume (h : InHeadBefore p parts rest) :
    Avoiding p (rest.drop (parts.recovery.resume rest)) ∨
      InHeadBefore p parts (rest.drop (parts.recovery.resume rest)) ∧
        parts.Mistaken (rest.drop (parts.recovery.resume rest)) ∧
        (parts = .members → Lexeme.firstKind (rest.drop (parts.recovery.resume rest)) =
          .keyword .fnKw) := by
  cases parts with
  | statements =>
    obtain ⟨behind, depth, htext, hdepth, -, havoid⟩ := h
    obtain rfl := hdepth nofun
    exact .inl (havoid.suffix htext.drop_toStatement)
  | members =>
    obtain ⟨behind, depth, htext, hdepth, -, havoid⟩ := h
    obtain rfl := hdepth nofun
    obtain hsuffix | ⟨hlt, hkind, htext⟩ := htext.drop_toMember
    · exact .inl (havoid.suffix hsuffix)
    · refine .inr ⟨⟨behind, 0, htext, fun _ => rfl, hlt, havoid⟩, ?_, fun _ => hkind⟩
      change Parts.Mistaken .members (rest.drop (toMember 0 rest))
      generalize rest.drop (toMember 0 rest) = ts at *
      cases ts with
      | nil => cases hkind
      | cons lexeme ts =>
        obtain ⟨hin, -⟩ := htext.uncons (Nat.le_of_lt_succ hlt)
        exact .function hkind (hin.function hkind)
  | items =>
    refine (h.dropItems _).imp_right fun h => ⟨h, ?_, nofun⟩
    obtain ⟨behind, depth, htext, -, hlt, -⟩ := h
    generalize rest.drop _ = ts at *
    cases ts with
    | nil => exact absurd hlt (Nat.not_lt_zero _)
    | cons lexeme ts => exact .token (htext.uncons (Nat.le_of_lt_succ hlt)).1

/-- The first token of a part that has read nothing is passed over. -/
theorem tail_mistaken {lexeme : Lexeme} (h : InHeadBefore p parts (lexeme :: rest))
    (hmistaken : parts.Mistaken (lexeme :: rest))
    (hfn : parts = .members → lexeme.token.kind = .keyword .fnKw) :
    Avoiding p rest ∨ InHeadBefore p parts rest ∧ parts.Mistaken rest := by
  cases parts with
  | statements => cases hmistaken
  | items =>
    refine (h.dropItems 1).imp_right fun h => ⟨h, ?_⟩
    obtain ⟨behind, depth, htext, -, hlt, -⟩ := h
    change behind.length < rest.length at hlt
    cases rest with
    | nil => exact absurd hlt (Nat.not_lt_zero _)
    | cons next rest => exact .token (htext.uncons (Nat.le_of_lt_succ hlt)).1
  | members =>
    have hkind := hfn rfl
    refine (h.tail (by simp [hkind])).imp_right fun h => ⟨h, ?_⟩
    cases hmistaken with
    | paren hparen => simp [hkind] at hparen
    | function _ hnext =>
      cases rest with
      | nil => cases hnext
      | cons next rest => exact .paren hnext

end InHeadBefore

/-! ## States -/

namespace State

/-- No more errors are recorded. -/
structure Over (setting : Setting) (s : State) : Prop where
  halted : s.halted = true
  spent : setting.limits.maxErrors ≤ s.errors.length

/-- Behind such a state nothing is mended at `p`: no more errors are recorded, or all tokens that end
there have been passed over, or the tokens up to there are from the head of a lambda. -/
inductive Strays (p : Nat) (setting : Setting) (φ : Footing) (s : State) : Prop where
  | spent (h : s.Over setting)
  | lost (hrunning : s.halted = false) (herrors : NoMend p s.errors) (hrest : Avoiding p s.rest)
      (hend : φ.ended = true ∨ φ.stale = true ∨ s.previousEnd ≠ p)
  | stuck (hrunning : s.halted = false) (herrors : NoMend p s.errors)
      (hφ : φ.ended = true ∨ φ.blocked = true) (hkind : s.kind = .symbol .arrow)
      (hlambdas : s.context.lambdas = true) (hend : s.previousEnd ≠ p)
      (hhead : InHeadBefore p .statements s.rest)

/-- The same where a construct has been given up. -/
inductive Fades (p : Nat) (setting : Setting) (parts : Parts) (s : State) : Prop where
  | spent (h : s.Over setting)
  | lost (hrunning : s.halted = false) (herrors : NoMend p s.errors) (hrest : Avoiding p s.rest)
  | inHead (hrunning : s.halted = false) (herrors : NoMend p s.errors)
      (hhead : InHeadBefore p parts s.rest)

/-- A state between the parts of a construct behind which nothing is mended at `p`. -/
inductive Wanders (p : Nat) (setting : Setting) (parts : Parts) (s : State) : Prop where
  | strays (h : s.Strays p setting .unread)
  | mistaken (hrunning : s.halted = false) (herrors : NoMend p s.errors)
      (hmistaken : parts.Mistaken s.rest) (hhead : InHeadBefore p parts s.rest)

namespace Over

theorem kept {loud : Bool} (h : s.Over setting) (hkept : s.Kept loud s') : s'.Over setting :=
  ⟨hkept.stays_halted h.halted, Nat.le_trans h.spent hkept.errors.length_le⟩

end Over

theorem record_of_lt (e : ParseError) (hrunning : s.halted = false)
    (hlt : s.errors.length + 1 < setting.limits.maxErrors) :
    s.record setting e = { s with errors := s.errors ++ [e] } := by
  have hspent : ¬ setting.limits.maxErrors ≤ (s.errors ++ [e]).length := by
    simp only [List.length_append, List.length_singleton]
    omega
  rw [State.record, if_neg (by simp [hrunning])]
  simp only [hspent, decide_false, hrunning]

/-- An error is recorded, or it uses up what the limits allow. -/
theorem record_cases (setting : Setting) (e : ParseError) (hrunning : s.halted = false) :
    (s.record setting e).Over setting ∨ s.errors.length + 1 < setting.limits.maxErrors ∧
      s.record setting e = { s with errors := s.errors ++ [e] } := by
  by_cases hlt : s.errors.length + 1 < setting.limits.maxErrors
  · exact .inr ⟨hlt, record_of_lt e hrunning hlt⟩
  · have hspent : setting.limits.maxErrors ≤ (s.errors ++ [e]).length := by
      simp only [List.length_append, List.length_singleton]
      omega
    rw [State.record, if_neg (by simp [hrunning])]
    exact .inl ⟨decide_eq_true hspent, hspent⟩


namespace Strays

theorem mono (h : s.Strays p setting φ) (hφ : φ ≤ ψ) : s.Strays p setting ψ := by
  obtain ⟨hended, -, hstale, hblocked⟩ := hφ
  cases h with
  | spent h => exact .spent h
  | lost hrunning herrors hrest hend =>
    exact .lost hrunning herrors hrest (hend.imp hended (·.imp_left hstale))
  | stuck hrunning herrors hφ hkind hlambdas hend hhead =>
    exact .stuck hrunning herrors (hφ.imp hended hblocked) hkind hlambdas hend hhead

/-- Before another part it does not matter how the last one ended. -/
theorem unread (h : s.Strays p setting φ) : s.Strays p setting .unread := by
  cases h with
  | spent h => exact .spent h
  | lost hrunning herrors hrest _ => exact .lost hrunning herrors hrest (.inr (.inl rfl))
  | stuck hrunning herrors _ hkind hlambdas hend hhead =>
    exact .stuck hrunning herrors (.inr rfl) hkind hlambdas hend hhead

theorem fades (h : s.Strays p setting φ) : s.Fades p setting .statements := by
  cases h with
  | spent h => exact .spent h
  | lost hrunning herrors hrest _ => exact .lost hrunning herrors hrest
  | stuck hrunning herrors _ _ _ _ hhead => exact .inHead hrunning herrors hhead

/-- The depth and the numbers do not matter. -/
theorem congr (h : s.Strays p setting φ) (hrest : s'.rest = s.rest)
    (hend : s'.previousEnd = s.previousEnd) (herrors : s'.errors = s.errors)
    (hhalted : s'.halted = s.halted)
    (hlambdas : s.halted = false → φ.ended = true ∨ φ.blocked = true → s.kind = .symbol .arrow →
      s.context.lambdas = true →
      (ψ.ended = true ∨ ψ.blocked = true) ∧ s'.context.lambdas = true)
    (hφ : φ.ended = true ∨ φ.stale = true → ψ.ended = true ∨ ψ.stale = true) :
    s'.Strays p setting ψ := by
  cases h with
  | spent h => exact .spent ⟨hhalted ▸ h.halted, herrors ▸ h.spent⟩
  | lost hrunning h havoid h' =>
    refine .lost (hhalted ▸ hrunning) (herrors ▸ h) (hrest ▸ havoid) ?_
    rw [← or_assoc] at h' ⊢
    exact h'.imp hφ fun h => hend ▸ h
  | stuck hrunning h hblocked hkind hlambdas' hend' hhead =>
    obtain ⟨hblocked, hlambdas⟩ := hlambdas hrunning hblocked hkind hlambdas'
    refine .stuck (hhalted ▸ hrunning) (herrors ▸ h) hblocked ?_ hlambdas (hend ▸ hend') (hrest ▸ hhead)
    unfold State.kind at hkind ⊢
    rwa [hrest]

/-- A token that is passed over. -/
theorem advance (h : s.Strays p setting φ) (hkind : s.kind ≠ .endOfFile)
    (hended : φ.ended = false) (harrow : s.kind.isArrow = true → φ.blocked = false) :
    s.advance.Strays p setting ψ := by
  cases h with
  | spent h => exact .spent (h.kept (@Kept.advance true s))
  | lost hrunning herrors havoid _ =>
    cases hrest : s.rest with
    | nil => exact absurd (by rw [State.kind, hrest]) hkind
    | cons lexeme rest =>
      have hadvance : s.advance = { s with rest, previousEnd := lexeme.token.span.stop } := by
        rw [State.advance, hrest]
      rw [hadvance]
      obtain ⟨hstop, -⟩ := havoid lexeme (by simp [hrest])
      exact .lost hrunning herrors (havoid.suffix (hrest ▸ List.suffix_cons _ _)) (.inr (.inr hstop))
  | stuck _ _ hφ hkind _ _ _ =>
    obtain hφ | hφ := hφ
    · exact absurd (hended.symm.trans hφ) Bool.false_ne_true
    · exact absurd ((harrow (by rw [hkind]; rfl)).symm.trans hφ) Bool.false_ne_true

/-- An error that mends nothing at `p`. -/
theorem record {e : ParseError} (h : s.Strays p setting φ) (he : s.halted = false → ¬ e.MendsAt p) :
    (s.record setting e).Strays p setting φ := by
  cases hrunning : s.halted with
  | true =>
    rw [State.record, if_pos hrunning]
    exact h
  | false =>
    obtain hover | ⟨-, hrecord⟩ := record_cases setting e hrunning
    · exact .spent hover
    rw [hrecord]
    cases h with
    | spent h => exact absurd (hrunning.symm.trans h.halted) Bool.false_ne_true
    | lost _ herrors hrest hend => exact .lost hrunning (herrors.concat (he hrunning)) hrest hend
    | stuck _ herrors hφ hkind hlambdas hend hhead =>
      exact .stuck hrunning (herrors.concat (he hrunning)) hφ hkind hlambdas hend hhead

end Strays

namespace Fades

theorem ofStatements (h : s.Fades p setting .statements) : s.Fades p setting parts := by
  cases h with
  | spent h => exact .spent h
  | lost hrunning herrors hrest => exact .lost hrunning herrors hrest
  | inHead hrunning herrors hhead => exact .inHead hrunning herrors hhead.ofStatements

theorem congr (h : s.Fades p setting parts) (hrest : s'.rest = s.rest)
    (herrors : s'.errors = s.errors) (hhalted : s'.halted = s.halted) :
    s'.Fades p setting parts := by
  cases h with
  | spent h => exact .spent ⟨hhalted ▸ h.halted, herrors ▸ h.spent⟩
  | lost h h' h'' => exact .lost (hhalted ▸ h) (herrors ▸ h') (hrest ▸ h'')
  | inHead h h' h'' => exact .inHead (hhalted ▸ h) (herrors ▸ h') (hrest ▸ h'')

theorem record {e : ParseError} (h : s.Fades p setting parts)
    (he : s.halted = false → ¬ e.MendsAt p) : (s.record setting e).Fades p setting parts := by
  cases hrunning : s.halted with
  | true =>
    rw [State.record, if_pos hrunning]
    exact h
  | false =>
    obtain hover | ⟨-, hrecord⟩ := record_cases setting e hrunning
    · exact .spent hover
    rw [hrecord]
    cases h with
    | spent h => exact absurd (hrunning.symm.trans h.halted) Bool.false_ne_true
    | lost _ herrors hrest => exact .lost hrunning (herrors.concat (he hrunning)) hrest
    | inHead _ herrors hhead => exact .inHead hrunning (herrors.concat (he hrunning)) hhead

theorem over_or_running (h : s.Fades p setting parts) : s.Over setting ∨
    s.halted = false ∧ NoMend p s.errors ∧ (Avoiding p s.rest ∨ InHeadBefore p parts s.rest) := by
  cases h with
  | spent h => exact .inl h
  | lost hrunning herrors hrest => exact .inr ⟨hrunning, herrors, .inl hrest⟩
  | inHead hrunning herrors hhead => exact .inr ⟨hrunning, herrors, .inr hhead⟩

end Fades

end State

end ActorFrontend
