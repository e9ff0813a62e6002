import Mathlib.Order.Bounds.Basic
import ActorFrontend.Grammar.Suggestion

/-!
# Changing one word into another

A word is changed by inserting, deleting or replacing one character at a time.  The least number of
changes that turns one word into another is worked out from its first characters: `gap` says how,
and that no sequence of changes is shorter.
-/

namespace ActorFrontend.Suggestion

/-- One character of a word is inserted, deleted or replaced. -/
inductive Edit : List Char → List Char → Prop where
  | insert (before after : List Char) (c : Char) : Edit (before ++ after) (before ++ c :: after)
  | delete (before after : List Char) (c : Char) : Edit (before ++ c :: after) (before ++ after)
  | replace (before after : List Char) (c d : Char) :
      Edit (before ++ c :: after) (before ++ d :: after)

/-- So many changes, one after the other, turn one word into another. -/
inductive Edits : Nat → List Char → List Char → Prop where
  | nil (a : List Char) : Edits 0 a a
  | cons {n : Nat} {a b c : List Char} (h : Edit a b) (hs : Edits n b c) : Edits (n + 1) a c

/-- The number of changes between two words, by their first characters. -/
def gap : List Char → List Char → Nat
  | [], b => b.length
  | c :: a, [] => (c :: a).length
  | c :: a, d :: b =>
      min (min (gap a (d :: b) + 1) (gap (c :: a) b + 1)) (gap a b + if c = d then 0 else 1)
termination_by a b => a.length + b.length

variable {a b u v : List Char} {n : Nat}

@[simp] theorem gap_nil_left (b : List Char) : gap [] b = b.length := by rw [gap]

@[simp] theorem gap_nil_right (a : List Char) : gap a [] = a.length := by
  cases a with
  | nil => rw [gap]
  | cons c a => rw [gap]

theorem gap_cons_cons (c d : Char) (a b : List Char) :
    gap (c :: a) (d :: b) =
      min (min (gap a (d :: b) + 1) (gap (c :: a) b + 1)) (gap a b + if c = d then 0 else 1) := by
  rw [gap]

/-! ## So many changes suffice -/

theorem Edit.cons (c : Char) (h : Edit a b) : Edit (c :: a) (c :: b) := by
  cases h with
  | insert before after d => exact .insert (c :: before) after d
  | delete before after d => exact .delete (c :: before) after d
  | replace before after d e => exact .replace (c :: before) after d e

theorem Edits.keep (c : Char) (h : Edits n a b) : Edits n (c :: a) (c :: b) := by
  induction h with
  | nil a => exact .nil (c :: a)
  | cons h _ ih => exact .cons (h.cons c) ih

theorem Edits.delete (c : Char) (h : Edits n a b) : Edits (n + 1) (c :: a) b :=
  .cons (.delete [] a c) h

theorem Edits.replace (c d : Char) (h : Edits n a b) : Edits (n + 1) (c :: a) (d :: b) :=
  .cons (.replace [] a c d) (h.keep d)

theorem Edits.insert (d : Char) (h : Edits n a b) : Edits (n + 1) a (d :: b) :=
  .cons (.insert [] a d) (h.keep d)

theorem Edits.min {m n : Nat} (h : Edits m a b) (h' : Edits n a b) : Edits (min m n) a b := by
  rcases Nat.le_total m n with hle | hle
  · rwa [Nat.min_eq_left hle]
  · rwa [Nat.min_eq_right hle]

theorem edits_gap (a b : List Char) : Edits (gap a b) a b := by
  fun_induction gap a b with
  | case1 b =>
    induction b with
    | nil => exact .nil []
    | cons d b ih => exact ih.insert d
  | case2 c a =>
    induction a generalizing c with
    | nil => exact .delete c (.nil [])
    | cons d a ih => exact (ih d).delete c
  | case3 c a d b ihdelete ihinsert ihkeep =>
    have hreplace : Edits (gap a b + if c = d then 0 else 1) (c :: a) (d :: b) := by
      by_cases h : c = d
      · rw [if_pos h, h]
        exact ihkeep.keep d
      · rw [if_neg h]
        exact ihkeep.replace c d
    exact ((ihdelete.delete c).min (ihinsert.insert d)).min hreplace

/-! ## No fewer changes do -/

theorem gap_self (a : List Char) : gap a a = 0 := by
  induction a with
  | nil => rw [gap_nil_left, List.length_nil]
  | cons c a ih => simp [gap_cons_cons, ih]

/-- From the first word any other one is at most one change further away than from the second. -/
def Near (u v : List Char) : Prop := ∀ b, gap u b ≤ gap v b + 1

theorem near_cons_self (c : Char) (u : List Char) : Near (c :: u) u := by
  intro b
  cases b with
  | nil => simp
  | cons d b =>
    rw [gap_cons_cons]
    omega

theorem near_self_cons (c : Char) (u : List Char) : Near u (c :: u) := by
  intro b
  induction b with
  | nil =>
    rw [gap_nil_right, gap_nil_right, List.length_cons]
    omega
  | cons d b ih =>
    have hinsert : gap u (d :: b) ≤ gap u b + 1 := by
      cases u with
      | nil => simp
      | cons e u =>
        rw [gap_cons_cons]
        omega
    rw [gap_cons_cons]
    omega

theorem near_replace (c d : Char) (u : List Char) : Near (c :: u) (d :: u) := by
  intro b
  induction b with
  | nil => simp
  | cons e b ih =>
    rw [gap_cons_cons, gap_cons_cons]
    split <;> split <;> omega

/-- A change behind the first character counts as much as it does alone. -/
theorem Near.cons (h : Near u v) (c : Char) : Near (c :: u) (c :: v) := by
  intro b
  induction b with
  | nil =>
    have hlength := h []
    simpa using hlength
  | cons d b ih =>
    have hdelete := h (d :: b)
    have hkeep := h b
    rw [gap_cons_cons, gap_cons_cons]
    omega

theorem Near.append (h : Near u v) (before : List Char) : Near (before ++ u) (before ++ v) := by
  induction before with
  | nil => exact h
  | cons c before ih => exact ih.cons c

theorem Edit.near (h : Edit a b) : Near a b := by
  cases h with
  | insert before after c => exact (near_self_cons c after).append before
  | delete before after c => exact (near_cons_self c after).append before
  | replace before after c d => exact (near_replace c d after).append before

theorem Edits.gap_le (h : Edits n a b) : gap a b ≤ n := by
  induction h with
  | nil a => rw [gap_self]
  | @cons n a b c h _ ih =>
    have hnear := h.near c
    omega

/-! ## Words read backwards -/

theorem Edit.reverse (h : Edit a b) : Edit a.reverse b.reverse := by
  cases h with
  | insert before after c =>
    rw [List.reverse_append, List.reverse_append, List.reverse_cons, List.append_assoc]
    exact .insert after.reverse before.reverse c
  | delete before after c =>
    rw [List.reverse_append, List.reverse_append, List.reverse_cons, List.append_assoc]
    exact .delete after.reverse before.reverse c
  | replace before after c d =>
    rw [List.reverse_append, List.reverse_append, List.reverse_cons, List.reverse_cons,
      List.append_assoc, List.append_assoc]
    exact .replace after.reverse before.reverse c d

theorem Edits.reverse (h : Edits n a b) : Edits n a.reverse b.reverse := by
  induction h with
  | nil a => exact .nil a.reverse
  | cons h _ ih => exact .cons h.reverse ih

/-- The changes may as well be counted from the ends of the words. -/
theorem isLeast_gap_reverse (a b : List Char) :
    IsLeast {n | Edits n a b} (gap a.reverse b.reverse) := by
  constructor
  · have h := (edits_gap a.reverse b.reverse).reverse
    rwa [List.reverse_reverse, List.reverse_reverse] at h
  · intro n h
    exact Edits.gap_le (Edits.reverse h)

end ActorFrontend.Suggestion
