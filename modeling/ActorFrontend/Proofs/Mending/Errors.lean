import ActorFrontend.Grammar.Source
import ActorFrontend.Proofs.Mending.Paired
import Mathlib.Data.List.Sort

/-!
# Errors in order

The errors of a source are put in the order of the places where they start.  One that is left out does
not change the order of the others, nor do places that move and keep their order.
-/

namespace ActorFrontend

/-! ## Sorting -/

section

variable {α β : Type} {r : α → α → Prop} [DecidableRel r] {a e : α} {before behind : List α}

theorem List.orderedInsert_append (hbefore : ∀ b ∈ before, ¬ r a b) (hbehind : ∀ b ∈ behind, r a b) :
    (before ++ behind).orderedInsert r a = before ++ a :: behind := by
  induction before with
  | nil =>
    cases behind with
    | nil => rfl
    | cons b behind => exact List.orderedInsert_cons_of_le r behind (hbehind b List.mem_cons_self)
  | cons b before ih =>
    obtain ⟨hb, hbefore⟩ := List.forall_mem_cons.1 hbefore
    rw [List.cons_append, List.orderedInsert_of_not_le r _ hb, ih hbefore, List.cons_append]

/-- An element that is inserted does not change its place among the others if one of them is left
out. -/
theorem List.exists_orderedInsert (htrans : ∀ a b c, r a b → r b c → r a c)
    (hbehind : ∀ b ∈ behind, r e b) :
    ∃ before' behind', (before ++ e :: behind).orderedInsert r a = before' ++ e :: behind' ∧
      (before ++ behind).orderedInsert r a = before' ++ behind' := by
  induction before with
  | nil =>
    by_cases hae : r a e
    · refine ⟨[a], behind, List.orderedInsert_cons_of_le r behind hae, ?_⟩
      exact List.orderedInsert_append (fun _ hb => absurd hb List.not_mem_nil)
        fun b hb => htrans _ _ _ hae (hbehind b hb)
    · exact ⟨[], behind.orderedInsert r a, List.orderedInsert_of_not_le r behind hae, rfl⟩
  | cons b before ih =>
    by_cases hab : r a b
    · exact ⟨a :: b :: before, behind, List.orderedInsert_cons_of_le r _ hab,
        List.orderedInsert_cons_of_le r _ hab⟩
    · obtain ⟨before', behind', hwith, hwithout⟩ := ih
      refine ⟨b :: before', behind', ?_, ?_⟩
      · rw [List.cons_append, List.orderedInsert_of_not_le r _ hab, hwith, List.cons_append]
      · rw [List.cons_append, List.orderedInsert_of_not_le r _ hab, hwithout, List.cons_append]

variable {le : α → α → Bool} {le' : β → β → Bool}
  (htrans : ∀ a b c, le a b = true → le b c = true → le a c = true)
  (htotal : ∀ a b, (le a b || le b a) = true)

include htrans htotal

theorem List.mergeSort_cons_eq (a : α) (as : List α) :
    (a :: as).mergeSort le = (as.mergeSort le).orderedInsert (fun a b => le a b = true) a := by
  obtain ⟨before, behind, hcons, has, hbefore⟩ := List.mergeSort_cons htrans htotal a as
  have hsorted := List.pairwise_mergeSort htrans htotal (a :: as)
  rw [hcons] at hsorted ⊢
  have hbehind := (List.pairwise_cons.1 (List.pairwise_append.1 hsorted).2.1).1
  rw [has, List.orderedInsert_append (fun b hb => by simpa using hbefore b hb) hbehind]

variable (le) in
/-- An element that is left out does not change the order of the others. -/
theorem List.exists_mergeSort_append (before behind : List α) (e : α) :
    ∃ before' behind', (before ++ e :: behind).mergeSort le = before' ++ e :: behind' ∧
      (before ++ behind).mergeSort le = before' ++ behind' := by
  induction before with
  | nil =>
    obtain ⟨before', behind', hwith, hwithout, -⟩ := List.mergeSort_cons htrans htotal e behind
    exact ⟨before', behind', hwith, hwithout⟩
  | cons a before ih =>
    obtain ⟨before', behind', hwith, hwithout⟩ := ih
    have hsorted := List.pairwise_mergeSort htrans htotal (before ++ e :: behind)
    rw [hwith] at hsorted
    have hbehind := (List.pairwise_cons.1 (List.pairwise_append.1 hsorted).2.1).1
    rw [List.cons_append, List.cons_append, List.mergeSort_cons_eq htrans htotal,
      List.mergeSort_cons_eq htrans htotal, hwith, hwithout]
    exact List.exists_orderedInsert htrans hbehind

omit htrans htotal

/-- Lists whose elements compare alike are put in the same order. -/
theorem List.forall₂_mergeSort {R : α → β → Prop} {as : List α} {bs : List β}
    (h : List.Forall₂ R as bs)
    (hle : ∀ a a' b b', R a b → R a' b' → le a a' = le' b b') :
    List.Forall₂ R (as.mergeSort le) (bs.mergeSort le') := by
  obtain ⟨hlength, hzip⟩ := List.forall₂_iff_zip.1 h
  -- the pairs are sorted, by what either part of them says
  let sorted := (as.zip bs).mergeSort fun x y => le x.1 y.1
  have hleft : as.mergeSort le = sorted.map Prod.fst := by
    rw [List.map_mergeSort (s := le) fun _ _ _ _ => rfl, List.map_fst_zip (Nat.le_of_eq hlength)]
  have hright : bs.mergeSort le' = sorted.map Prod.snd := by
    rw [List.map_mergeSort (s := le') fun x hx y hy => hle _ _ _ _ (hzip hx) (hzip hy),
      List.map_snd_zip (Nat.le_of_eq hlength.symm)]
  rw [hleft, hright, List.forall₂_map_left_iff, List.forall₂_map_right_iff, List.forall₂_same]
  exact fun x hx => hzip (List.mem_mergeSort.1 hx)

end

/-! ## The errors of a source -/

variable {p : Nat} {errors errors' : List ParseError} {e : ParseError}

/-- The errors by the places where they start. -/
def ParseError.inOrder (errors : List ParseError) : List ParseError :=
  errors.mergeSort fun a b => decide (a.span.start ≤ b.span.start)

/-- Without lexical errors, the errors of a source are those of the grammar in order. -/
theorem SyntaxError.merge_nil (errors : List ParseError) (limit : Nat) :
    merge [] errors limit = ((ParseError.inOrder errors).take limit).map .parse := by
  have hmap := List.map_mergeSort (f := SyntaxError.parse) (l := errors)
    (r := fun a b => decide (a.span.start ≤ b.span.start))
    (s := fun a b => decide (a.span.start ≤ b.span.start)) fun _ _ _ _ => rfl
  rw [merge, ParseError.inOrder, List.map_take, List.map_nil, List.nil_append, hmap]

/-- Without the error that says that the semicolon is missing, the others are in the same order. -/
theorem ParseError.MendedAll.inOrder (h : MendedAll p errors errors') (he : e ∈ errors)
    (hmends : e.MendsAt p) :
    ∃ before behind, inOrder errors = before ++ e :: behind ∧
      List.Forall₂ (Moved p) (before ++ behind) (inOrder errors') := by
  have hle (a a' b b' : ParseError) (h : a.Moved p b) (h' : a'.Moved p b') :
      decide (a.span.start ≤ a'.span.start) = decide (b.span.start ≤ b'.span.start) := by
    rw [h.span, h'.span, Span.insertAt_start, Span.insertAt_start]
    split <;> split <;> simp <;> omega
  cases h with
  | same _ hno => exact absurd hmends (hno e he)
  | @mended before before' after after' e' _ hbefore hafter hno hno' =>
    -- no other error says so
    obtain rfl : e = e' := by
      obtain he | he := List.mem_append.1 he
      · exact absurd hmends (hno e he)
      · exact (List.mem_cons.1 he).resolve_right fun he => hno' e he hmends
    obtain ⟨front, behind, hwith, hwithout⟩ := List.exists_mergeSort_append
      (fun a b : ParseError => decide (a.span.start ≤ b.span.start))
      (fun a b c hab hbc => by simp only [decide_eq_true_eq] at *; omega)
      (fun a b => by simp only [Bool.or_eq_true, decide_eq_true_eq]; omega) before after e
    refine ⟨front, behind, hwith, ?_⟩
    rw [← hwithout]
    exact List.forall₂_mergeSort (List.rel_append hbefore hafter) hle

end ActorFrontend
