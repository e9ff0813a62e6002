import Mathlib.Data.List.Basic
import ActorFrontend.Proofs.Suggestions.Edits

/-!
# The closest keyword

The rows that a distance is computed from hold the least numbers of changes, so the distance between
two words is the length of a shortest sequence of changes.  The suggestion for a word is the first
of the keywords that are closest to it.
-/

namespace ActorFrontend

theorem Keyword.mem_all (k : Keyword) : k ∈ Keyword.all := by
  cases k <;> decide

/-- In the table every keyword stands behind those before it. -/
theorem Keyword.pairwise_all : all.Pairwise fun k k' => all.idxOf k < all.idxOf k' := by
  have hnodup : all.Nodup := by decide
  rw [List.pairwise_iff_getElem]
  intro i j hi hj hij
  rwa [hnodup.idxOf_getElem, hnodup.idxOf_getElem]

namespace Suggestion

/-! ## Rows -/

/-- The distances from a word to the beginnings of `p` followed by `bs` that are longer than `p`,
shortest first.  Both the word and `p` are given backwards. -/
def rowBeyond (a p : List Char) : List Char → List Nat
  | [] => []
  | b :: bs => gap a (b :: p) :: rowBeyond a (b :: p) bs

/-- The distances from a word, given backwards, to all beginnings of `b`. -/
def row (a b : List Char) : List Nat := gap a [] :: rowBeyond a [] b

/-- One turn of the inner repetition: an entry of the row is the least of three numbers. -/
theorem extendRow_rowBeyond (c : Char) (a p bs : List Char) :
    extendRow c (gap a p) (gap (c :: a) p) bs (rowBeyond a p bs) = rowBeyond (c :: a) p bs := by
  induction bs generalizing p with
  | nil => rfl
  | cons b bs ih =>
    simp only [rowBeyond, extendRow, ← gap_cons_cons]
    rw [ih (b :: p)]

/-- One turn of the outer repetition: a row gives the row of the word that is longer by one. -/
theorem nextRow_row (a b : List Char) (c : Char) : nextRow b (row a b) c = row (c :: a) b := by
  have hfirst : gap a [] + 1 = gap (c :: a) [] := by simp
  rw [row, nextRow, hfirst, extendRow_rowBeyond, row]

theorem foldl_nextRow (a as b : List Char) :
    as.foldl (nextRow b) (row a b) = row (as.reverse ++ a) b := by
  induction as generalizing a with
  | nil => rfl
  | cons c as ih =>
    rw [List.foldl_cons, nextRow_row, ih, List.reverse_cons, List.append_assoc,
      List.singleton_append]

theorem rowBeyond_nil_left (p bs : List Char) :
    rowBeyond [] p bs = List.range' (p.length + 1) bs.length := by
  induction bs generalizing p with
  | nil => rfl
  | cons b bs ih =>
    rw [rowBeyond, ih, gap_nil_left, List.length_cons, List.length_cons, List.range'_succ]

/-- The row of the empty word. -/
theorem row_nil_left (b : List Char) : row [] b = List.range (b.length + 1) := by
  rw [row, rowBeyond_nil_left, gap_nil_left, List.range_eq_range', List.range'_succ]
  rfl

theorem getLastD_rowBeyond (a p bs : List Char) (n : Nat) :
    (rowBeyond a p bs).getLastD n = if bs = [] then n else gap a (bs.reverse ++ p) := by
  induction bs generalizing p n with
  | nil => rfl
  | cons b bs ih =>
    rw [rowBeyond, List.getLastD_cons, ih, if_neg (List.cons_ne_nil b bs)]
    by_cases hbs : bs = []
    · rw [if_pos hbs, hbs]
      rfl
    · rw [if_neg hbs, List.reverse_cons, List.append_assoc, List.singleton_append]

theorem getLastD_row (a b : List Char) : (row a b).getLastD 0 = gap a b.reverse := by
  rw [row, List.getLastD_cons, getLastD_rowBeyond]
  split
  case isTrue hb => rw [hb, List.reverse_nil]
  case isFalse => rw [List.append_nil]

theorem editDistance_eq (a b : List Char) : editDistance a b = gap a.reverse b.reverse := by
  rw [editDistance, ← row_nil_left, foldl_nextRow, getLastD_row, List.append_nil]

/-! ## The first of the closest -/

theorem lightest?_eq_none_iff {α : Type} {entries : List (α × Nat)} :
    lightest? entries = none ↔ entries = [] := by
  cases entries with
  | nil => simp [lightest?]
  | cons entry entries =>
    rw [lightest?]
    split <;> simp

/-- The entry chosen weighs less than those before it, and no more than those behind it. -/
theorem exists_of_lightest? {α : Type} {entries : List (α × Nat)} {entry : α × Nat}
    (h : lightest? entries = some entry) :
    ∃ before after, entries = before ++ entry :: after ∧ (∀ e ∈ before, entry.2 < e.2) ∧
      ∀ e ∈ after, entry.2 ≤ e.2 := by
  induction entries generalizing entry with
  | nil => cases h
  | cons first entries ih =>
    rw [lightest?] at h
    split at h
    case h_1 hnone =>
      cases h
      rw [lightest?_eq_none_iff.1 hnone]
      exact ⟨[], [], rfl, nofun, nofun⟩
    case h_2 other hother =>
      obtain ⟨before, after, rfl, hbefore, hafter⟩ := ih hother
      split at h
      case isTrue hlt =>
        cases h
        refine ⟨first :: before, after, rfl, ?_, hafter⟩
        rintro e (_ | ⟨_, he⟩)
        · exact hlt
        · exact hbefore e he
      case isFalse hle =>
        cases h
        refine ⟨[], before ++ other :: after, rfl, nofun, fun e he => ?_⟩
        have hother : first.2 ≤ other.2 := Nat.le_of_not_lt hle
        rcases List.mem_append.1 he with he | he
        · exact hother.trans (hbefore e he).le
        · rcases List.mem_cons.1 he with rfl | he
          · exact hother
          · exact hother.trans (hafter e he)

/-! ## Keywords -/

/-- The keyword begins a declaration and is close to the word without being it, and no other one is
closer. -/
structure Closest (word : String) (k : Keyword) : Prop where
  startsItem : k.startsItem = true
  pos : 0 < editDistance word.toList k.text.toList
  le : editDistance word.toList k.text.toList ≤ max 1 (Source.byteLength word.toList / 3)
  least : ∀ k' : Keyword, k'.startsItem = true → 0 < editDistance word.toList k'.text.toList →
    editDistance word.toList k.text.toList ≤ editDistance word.toList k'.text.toList

variable {word : String} {k : Keyword} {n : Nat}

/-- The keywords that are close enough to a word, with their distances from it. -/
def candidates (word : String) : List (Keyword × Nat) :=
  ((Keyword.all.filter Keyword.startsItem).map fun k =>
    (k, editDistance word.toList k.text.toList)).filter fun (_, d) => 0 < d && d ≤ tolerance word

theorem itemKeyword?_eq_some_iff :
    itemKeyword? word = some k ↔ ∃ n, lightest? (candidates word) = some (k, n) := by
  change (lightest? (candidates word)).map (·.1) = some k ↔ _
  simp

theorem mem_candidates_iff :
    (k, n) ∈ candidates word ↔ k.startsItem = true ∧ editDistance word.toList k.text.toList = n ∧
      0 < n ∧ n ≤ max 1 (Source.byteLength word.toList / 3) := by
  have hmem := Keyword.mem_all k
  rw [candidates, List.mem_filter, Nat.max_comm]
  simp [tolerance, hmem, and_assoc]

theorem pairwise_candidates (word : String) :
    (candidates word).Pairwise fun e e' => Keyword.all.idxOf e.1 < Keyword.all.idxOf e'.1 := by
  refine List.Pairwise.filter _ (List.pairwise_map.2 ?_)
  exact Keyword.pairwise_all.filter _

/-- What is chosen is closest, and stands in the table before all others that are. -/
theorem closest_of_itemKeyword? (h : itemKeyword? word = some k) :
    Closest word k ∧ ∀ k', Closest word k' → Keyword.all.idxOf k ≤ Keyword.all.idxOf k' := by
  obtain ⟨n, hlightest⟩ := itemKeyword?_eq_some_iff.1 h
  obtain ⟨before, after, heq, hbefore, hafter⟩ := exists_of_lightest? hlightest
  have hmem : (k, n) ∈ candidates word := by
    rw [heq]
    exact List.mem_append_right before List.mem_cons_self
  obtain ⟨hitem, rfl, hpos, hle⟩ := mem_candidates_iff.1 hmem
  have hleast : ∀ k' : Keyword, k'.startsItem = true →
      0 < editDistance word.toList k'.text.toList →
      editDistance word.toList k.text.toList ≤ editDistance word.toList k'.text.toList := by
    intro k' hitem' hpos'
    -- one that is closer would be a candidate as well
    by_contra hlt
    have hmem' := mem_candidates_iff.2 ⟨hitem', rfl, hpos', (Nat.le_of_not_le hlt).trans hle⟩
    rw [heq, List.mem_append, List.mem_cons] at hmem'
    rcases hmem' with hmem' | hmem' | hmem'
    · exact hlt (hbefore _ hmem').le
    · exact hlt (Prod.ext_iff.1 hmem').2.ge
    · exact hlt (hafter _ hmem')
  refine ⟨⟨hitem, hpos, hle, hleast⟩, fun k' hk' => ?_⟩
  have hmem' := mem_candidates_iff.2 ⟨hk'.startsItem, rfl, hk'.pos, hk'.le⟩
  have hsame := hk'.least k hitem hpos
  have hpairwise := pairwise_candidates word
  rw [heq, List.mem_append, List.mem_cons] at hmem'
  rw [heq, List.pairwise_append, List.pairwise_cons] at hpairwise
  rcases hmem' with hmem' | hmem' | hmem'
  · exact absurd hsame (Nat.not_le_of_lt (hbefore _ hmem'))
  · rw [(Prod.mk.inj hmem').1]
  · exact (hpairwise.2.1.1 _ hmem').le

theorem itemKeyword?_of_closest (h : Closest word k) : ∃ k', itemKeyword? word = some k' := by
  have hmem := mem_candidates_iff.2 ⟨h.startsItem, rfl, h.pos, h.le⟩
  cases hlightest : lightest? (candidates word) with
  | none =>
    rw [lightest?_eq_none_iff.1 hlightest] at hmem
    cases hmem
  | some entry => exact ⟨entry.1, itemKeyword?_eq_some_iff.2 ⟨entry.2, hlightest⟩⟩

/-- Distances are lengths of shortest sequences of changes, and the suggestion for a word is the
keyword that is closest to it without being it, if that is close enough; of several it is the first
one of the table. -/
theorem itemKeyword?_closest :
    (∀ a b : List Char, IsLeast {n | Edits n a b} (editDistance a b)) ∧
    ∀ (word : String) (k : Keyword), itemKeyword? word = some k ↔
      Closest word k ∧ ∀ k', Closest word k' → Keyword.all.idxOf k ≤ Keyword.all.idxOf k' := by
  constructor
  · intro a b
    rw [editDistance_eq]
    exact isLeast_gap_reverse a b
  · intro word k
    refine ⟨closest_of_itemKeyword?, fun ⟨hclosest, hfirst⟩ => ?_⟩
    obtain ⟨k', hk'⟩ := itemKeyword?_of_closest hclosest
    obtain ⟨hclosest', hfirst'⟩ := closest_of_itemKeyword? hk'
    have hindex := Nat.le_antisymm (hfirst k' hclosest') (hfirst' k hclosest)
    rw [hk', (List.idxOf_inj (Keyword.mem_all k)).1 hindex]

/-- `fn` and `gen` are as close to the word; `fn` stands first. -/
example : itemKeyword? "gn" = some .fnKw := by decide

end Suggestion

end ActorFrontend
