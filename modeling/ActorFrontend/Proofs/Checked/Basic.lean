import Mathlib.Data.List.Basic

/-!
# Checked arithmetic

Sums and differences of machine words: a sum that is too large, and a difference that would be
negative, have no answer.
-/

namespace ActorFrontend.Checked

/-- The difference, unless it is negative. -/
def sub? (a b : Nat) : Option Nat := if b ≤ a then some (a - b) else none

/-- The sum, if it is below the bound. -/
def add? (bound a b : Nat) : Option Nat := if a + b < bound then some (a + b) else none

/-- Lengths, columns and numbers of lines are counted in 64 bits. -/
def wordModulus : Nat := UInt64.size

variable {bound a b : Nat}

theorem sub?_of_le (h : b ≤ a) : sub? a b = some (a - b) := if_pos h

theorem add?_of_lt (h : a + b < bound) : add? bound a b = some (a + b) := if_pos h

/-- If no element is without an answer the list is not. -/
theorem mapM_eq_map {α β : Type} {f : α → Option β} {g : α → β} {as : List α}
    (h : ∀ a ∈ as, f a = some (g a)) : as.mapM f = some (as.map g) := by
  induction as with
  | nil => rfl
  | cons a as ih =>
    obtain ⟨ha, has⟩ := List.forall_mem_cons.1 h
    rw [List.mapM_cons, ha, ih has]
    rfl

theorem mapM_option {α β : Type} {f : α → Option β} {g : α → β} {a : Option α}
    (h : ∀ x ∈ a, f x = some (g x)) : a.mapM f = some (a.map g) := by
  cases a with
  | none => rfl
  | some a =>
    rw [Option.mapM_some, h a rfl]
    rfl

end ActorFrontend.Checked
