import ActorFrontend.Grammar.Source
import ActorFrontend.Proofs.Course.Items
import ActorFrontend.Proofs.Placement.Outline

/-!
# Enclosure

A construct in braces ends at a closing brace.  If nothing in it broke off, that is the brace which
matches its opening one.  If something did, the braces that were open at that point count no longer:
the construct may take the closing brace of one of them for its own, but it never runs past the one
that matches.
-/

namespace ActorFrontend

open ActorFrontend.Parser

variable {loud : Bool} {setting : Setting} {α σ : Type} {s s' : State} {n n' k : Nat}
  {opened inner outer : List Symbol} {lexeme : Lexeme} {ts ts' rest : List Lexeme}

/-! ## Brackets -/

/-- The symbol that closes what the symbol opens. -/
def Symbol.closer? : Symbol → Option Symbol
  | .leftBrace => some .rightBrace
  | .leftParen => some .rightParen
  | .leftBracket => some .rightBracket
  | _ => none

/-- Whether the brackets are properly nested behind those that are still open, the one opened last
given first. -/
def nested : List Symbol → List Lexeme → Bool
  | opened, [] => opened.isEmpty
  | opened, lexeme :: rest =>
      match lexeme.token.kind with
      | .symbol symbol =>
          if symbol.opens then nested (symbol :: opened) rest
          else if symbol.closes then
            match opened with
            | [] => false
            | bracket :: opened => bracket.closer? == some symbol && nested opened rest
          else nested opened rest
      | _ => nested opened rest

/-- How many braces are open behind a token, if it closes none that is not open. -/
def TokenKind.bracesAfter (kind : TokenKind) (n : Nat) : Option Nat :=
  match kind with
  | .symbol .leftBrace => some (n + 1)
  | .symbol .rightBrace => if n = 0 then none else some (n - 1)
  | _ => some n

/-- How many braces are open behind the tokens, if so many were before them and none is closed that
is not open. -/
def braceDepth (n : Nat) (ts : List Lexeme) : Option Nat :=
  ts.foldlM (fun n lexeme => lexeme.token.kind.bracesAfter n) n

/-- One more brace open before the token is one more behind it. -/
theorem TokenKind.bracesAfter_add {kind : TokenKind} (h : kind.bracesAfter n = some k) (m : Nat) :
    kind.bracesAfter (n + m) = some (k + m) := by
  unfold bracesAfter at h ⊢
  split at h
  · cases h
    simp only [Option.some.injEq]
    omega
  · split at h
    · cases h
    · cases h
      rw [if_neg (by omega), show n + m - 1 = n - 1 + m by omega]
  · cases h
    rfl

theorem braceDepth_cons (n : Nat) :
    braceDepth n (lexeme :: rest) =
      (lexeme.token.kind.bracesAfter n).bind fun k => braceDepth k rest :=
  List.foldlM_cons

theorem braceDepth_append (n : Nat) :
    braceDepth n (ts ++ ts') = (braceDepth n ts).bind fun k => braceDepth k ts' :=
  List.foldlM_append

/-- More open braces before the tokens are more open braces behind them. -/
theorem braceDepth_add (h : braceDepth n ts = some k) (m : Nat) :
    braceDepth (n + m) ts = some (k + m) := by
  induction ts generalizing n with
  | nil =>
    cases h
    rfl
  | cons lexeme ts ih =>
    rw [braceDepth_cons] at h ⊢
    obtain ⟨next, hnext, hrest⟩ := Option.bind_eq_some_iff.1 h
    rw [TokenKind.bracesAfter_add hnext m]
    exact ih hrest

/-- Behind tokens of a properly nested sequence the brackets are properly nested, too. -/
theorem exists_nested_append (h : nested opened (ts ++ rest) = true) :
    ∃ opened', nested opened' rest = true := by
  induction ts generalizing opened with
  | nil => exact ⟨opened, h⟩
  | cons lexeme ts ih =>
    rw [List.cons_append, nested] at h
    split at h
    · split at h
      · exact ih h
      · split at h
        · split at h
          · cases h
          · exact ih (Bool.and_eq_true_iff.1 h).2
        · exact ih h
    · exact ih h

/-! ## Recovery -/

/-- How many of the brackets are braces. -/
def braces (opened : List Symbol) : Nat := opened.count .leftBrace

/-- Passing over the tokens closes none of the braces that were open, apart from the inner ones. -/
def Covers (n : Nat) (inner : List Symbol) (ts : List Lexeme) : Prop :=
  ∃ k, braceDepth (n + braces inner) ts = some k ∧ n ≤ k

namespace Covers

theorem nil : Covers n inner [] := ⟨n + braces inner, rfl, Nat.le_add_right ..⟩

theorem cons {inner' : List Symbol}
    (hafter : lexeme.token.kind.bracesAfter (n + braces inner) = some (n + braces inner'))
    (h : Covers n inner' ts) : Covers n inner (lexeme :: ts) := by
  obtain ⟨k, hk, hle⟩ := h
  refine ⟨k, ?_, hle⟩
  rw [braceDepth_cons, hafter]
  exact hk

end Covers

/-- No error has been recorded that broke something off, and every error found has been recorded. -/
structure State.Sound (s : State) : Prop where
  running : s.halted = false
  unbroken : ∀ e ∈ s.errors, e.cause.stops = false

namespace State

theorem Sound.of_record {e : ParseError} (h : (s.record setting e).Sound) : s.Sound := by
  unfold record at h
  split at h
  · exact h
  case isFalse hhalted =>
    exact ⟨Bool.eq_false_iff.2 hhalted, fun e he => h.unbroken e (List.mem_append_left _ he)⟩

theorem Sound.of_leaveSplice {inner : State} (h : (leaveSplice setting s inner).Sound) :
    s.Sound := by
  have hfold : ∀ (errors : List ParseError) (s : State),
      (errors.foldl (fun s error => s.record setting error) s).Sound → s.Sound := by
    intro errors
    induction errors with
    | nil => exact fun _ h => h
    | cons e errors ih => exact fun s h => (ih _ h).of_record
  have hs := hfold inner.errors { s with nextId := inner.nextId } h
  exact ⟨hs.running, hs.unbroken⟩

theorem advance_errors (s : State) : s.advance.errors = s.errors ∧ s.advance.halted = s.halted := by
  unfold advance
  split <;> exact ⟨rfl, rfl⟩

theorem Sound.congr (h : s'.Sound) (herrors : s'.errors = s.errors)
    (hhalted : s'.halted = s.halted) : s.Sound :=
  ⟨hhalted ▸ h.running, herrors ▸ h.unbroken⟩

end State

/-- The tokens passed over from one state to a later one: those that are really open in the end are
as many as the reading counts if it is sound, and more at most if the brackets are nested. -/
structure Passed (s : State) (n : Nat) (s' : State) (n' : Nat) (ts : List Lexeme) : Prop where
  rest_eq : s.rest = ts ++ s'.rest
  covers : (∃ opened, nested opened s.rest = true) → ∃ k, braceDepth n ts = some k ∧ n' ≤ k
  exact : s'.Sound → s.Sound ∧ braceDepth n ts = some n'

namespace Passed

theorem none (hrest : s'.rest = s.rest) (hsound : s'.Sound → s.Sound) : Passed s n s' n [] :=
  ⟨hrest.symm, fun _ => ⟨n, rfl, Nat.le_refl n⟩, fun h => ⟨hsound h, rfl⟩⟩

theorem trans {s'' : State} {n'' : Nat} (h : Passed s n s' n' ts)
    (h' : Passed s' n' s'' n'' ts') : Passed s n s'' n'' (ts ++ ts') where
  rest_eq := by rw [h.rest_eq, h'.rest_eq, List.append_assoc]
  covers hnested := by
    obtain ⟨k, hk, hle⟩ := h.covers hnested
    obtain ⟨opened, hopened⟩ := hnested
    rw [h.rest_eq] at hopened
    obtain ⟨k', hk', hle'⟩ := h'.covers (exists_nested_append hopened)
    -- what the first tokens leave open on top of the count stays open
    refine ⟨k' + (k - n'), ?_, by omega⟩
    have hmore := braceDepth_add hk' (k - n')
    rw [show n' + (k - n') = k by omega] at hmore
    rw [braceDepth_append, hk]
    exact hmore
  exact hsound := by
    obtain ⟨hsound', hk'⟩ := h'.exact hsound
    obtain ⟨hsound, hk⟩ := h.exact hsound'
    refine ⟨hsound, ?_⟩
    rw [braceDepth_append, hk]
    exact hk'

/-- A token that is passed over. -/
theorem token (hkind : s.kind.bracesAfter n = some n')
    (hend : s.kind = .endOfFile → n' = n) : ∃ ts, Passed s n s.advance n' ts := by
  have hsound : s.advance.Sound → s.Sound := fun h =>
    h.congr s.advance_errors.1 s.advance_errors.2
  cases hrest : s.rest with
  | nil =>
    have hadvance : s.advance = s := by
      unfold State.advance
      rw [hrest]
    rw [hend (by rw [State.kind, hrest]), hadvance]
    exact ⟨[], none rfl id⟩
  | cons lexeme rest =>
    have hdepth : braceDepth n [lexeme] = some n' := by
      rw [State.kind, hrest] at hkind
      rw [braceDepth_cons, hkind]
      rfl
    refine ⟨[lexeme], ?_, fun _ => ⟨n', hdepth, Nat.le_refl n'⟩, fun h => ⟨hsound h, hdepth⟩⟩
    rw [State.rest_advance, hrest]
    rfl

end Passed

/-- From `s` to `s'` a construct has been read that ends in a pair of braces.  No brace between the
two closes one that was opened before them; if nothing has broken off, every brace between them has
its counterpart there, so the two match each other. -/
def Encloses (s s' : State) : Prop :=
  ∃ before opening body closing, s.rest = before ++ opening :: body ++ closing :: s'.rest ∧
    opening.token.kind = .symbol .leftBrace ∧ closing.token.kind = .symbol .rightBrace ∧
    ((∃ opened, nested opened s.rest = true) → ∃ k, braceDepth 0 body = some k) ∧
    (s'.Sound → braceDepth 0 body = some 0)

/-- If the parser succeeds, it has read a construct that ends in a pair of braces. -/
abbrev Reply.Closes (s : State) (r : Reply α) : Prop := r.Ends (fun _ s' => Encloses s s') fun _ => True

/-- What stands before a construct belongs to it. -/
theorem Encloses.after {s₁ : State} (h : Encloses s₁ s') (hsuffix : s₁.rest <:+ s.rest) :
    Encloses s s' := by
  obtain ⟨before, opening, body, closing, hrest, hopening, hclosing, hcovers, hexact⟩ := h
  obtain ⟨front, hfront⟩ := hsuffix
  refine ⟨front ++ before, opening, body, closing, ?_, hopening, hclosing, fun hnested => ?_,
    hexact⟩
  · rw [← hfront, hrest]
    simp
  · obtain ⟨opened, hopened⟩ := hnested
    rw [← hfront] at hopened
    exact hcovers (exists_nested_append hopened)

namespace Parser

variable {g : Rules}

end Parser

end ActorFrontend
