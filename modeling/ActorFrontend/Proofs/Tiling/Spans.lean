import ActorFrontend.Proofs.Lossless
import ActorFrontend.Tree.Item
import Mathlib.Data.List.Sort

/-!
# Tilings

Spans that stand next to each other tile what they cover.  The tokens of a source tile it, and so do
declarations and the trivia around them, if every declaration spans a run of tokens.
-/

namespace ActorFrontend

namespace Span

/-- The spans, none of them empty, stand next to each other from `lo` to `hi`. -/
def Tile (lo hi : Nat) : List Span → Prop
  | [] => lo = hi
  | span :: spans => span.start = lo ∧ span.start < span.stop ∧ Tile span.stop hi spans

variable {lo mid hi : Nat} {spans spans' : List Span}

theorem Tile.le (h : Tile lo hi spans) : lo ≤ hi := by
  induction spans generalizing lo with
  | nil => exact Nat.le_of_eq h
  | cons span spans ih =>
    obtain ⟨rfl, hlt, hrest⟩ := h
    exact Nat.le_trans (Nat.le_of_lt hlt) (ih hrest)

theorem tile_append :
    Tile lo hi (spans ++ spans') ↔ ∃ mid, Tile lo mid spans ∧ Tile mid hi spans' := by
  induction spans generalizing lo with
  | nil =>
    constructor
    · exact fun h => ⟨lo, rfl, h⟩
    · rintro ⟨mid, rfl, h⟩
      exact h
  | cons span spans ih => simp only [List.cons_append, Tile, ih, and_assoc, exists_and_left]

theorem Tile.within (h : Tile lo hi spans) :
    ∀ span ∈ spans, lo ≤ span.start ∧ span.start < span.stop ∧ span.stop ≤ hi := by
  induction spans generalizing lo with
  | nil => simp
  | cons span spans ih =>
    obtain ⟨rfl, hlt, hrest⟩ := h
    refine List.forall_mem_cons.2 ⟨⟨Nat.le_refl _, hlt, hrest.le⟩, fun other hother => ?_⟩
    obtain ⟨hlo, hother⟩ := ih hrest other hother
    exact ⟨Nat.le_trans (Nat.le_of_lt hlt) hlo, hother⟩

/-- What is tiled is in order. -/
theorem Tile.pairwise (h : Tile lo hi spans) :
    spans.Pairwise fun a b => a.start < b.start ∧ a.stop ≤ b.start := by
  induction spans generalizing lo with
  | nil => exact .nil
  | cons span spans ih =>
    obtain ⟨rfl, hlt, hrest⟩ := h
    refine .cons (fun other hother => ?_) (ih hrest)
    have hlo := (hrest.within other hother).1
    exact ⟨Nat.lt_of_lt_of_le hlt hlo, hlo⟩

/-- Spans that tile something in some order do so when they are sorted. -/
theorem Tile.mergeSort (h : Tile lo hi spans) (hperm : spans'.Perm spans) :
    Tile lo hi (spans'.mergeSort fun a b => decide (a.start ≤ b.start)) := by
  have hsorted : (spans'.mergeSort fun a b => decide (a.start ≤ b.start)).Pairwise
      fun a b => a.start ≤ b.start := by
    have htrans (a b c : Span) : decide (a.start ≤ b.start) = true → decide (b.start ≤ c.start) = true →
        decide (a.start ≤ c.start) = true := by
      simpa using Nat.le_trans
    have htotal (a b : Span) : (decide (a.start ≤ b.start) || decide (b.start ≤ a.start)) = true := by
      simpa using Nat.le_total a.start b.start
    have hsorted := List.pairwise_mergeSort htrans htotal spans'
    simpa using hsorted
  have heq : spans'.mergeSort (fun a b => decide (a.start ≤ b.start)) = spans := by
    have hle : spans.Pairwise fun a b => a.start ≤ b.start := h.pairwise.imp fun h => Nat.le_of_lt h.1
    refine ((List.mergeSort_perm ..).trans hperm).eq_of_pairwise (fun a b ha hb hab hba => ?_) hsorted hle
    -- two spans that start at the same place are the same one
    have ha : a ∈ spans := ((List.mergeSort_perm ..).trans hperm).subset ha
    obtain ⟨i, hi, rfl⟩ := List.getElem_of_mem ha
    obtain ⟨j, hj, rfl⟩ := List.getElem_of_mem hb
    have hpairwise := List.pairwise_iff_getElem.1 h.pairwise
    obtain hij | rfl | hij := Nat.lt_trichotomy i j
    · exact absurd (hpairwise i j hi hj hij).1 (by omega)
    · rfl
    · exact absurd (hpairwise j i hj hi hij).1 (by omega)
  rwa [heq]

end Span

/-! ## The tokens of a source -/

/-- Where the last one of some tokens ends; without any, at `lo`. -/
def Token.endBehind (lo : Nat) (ts : List Token) : Nat :=
  ts.foldl (fun _ t => t.span.stop) lo

theorem Token.endBehind_append (lo : Nat) (ts us : List Token) :
    endBehind lo (ts ++ us) = endBehind (endBehind lo ts) us :=
  List.foldl_append

theorem Span.Tile.endBehind {lo hi : Nat} {ts : List Token} (h : Tile lo hi (ts.map (·.span))) :
    Token.endBehind lo ts = hi := by
  induction ts generalizing lo with
  | nil => exact h
  | cons t ts ih => exact ih h.2.2

theorem Spells.tile {errors : List LexicalError} {offset : Nat} {cs : List Char} {ts : List Token}
    (h : Spells errors offset cs ts) :
    Span.Tile offset (offset + Source.byteLength cs) (ts.map (·.span)) := by
  match h with
  | .nil => exact rfl
  | @Spells.cons _ _ t cs ts _ hne hspan _ hrest =>
    have hpos : 0 < Source.byteLength t.text.toList := by
      cases htext : t.text.toList with
      | nil => exact absurd htext hne
      | cons c cs =>
        rw [Source.byteLength_cons]
        exact Nat.add_pos_left c.utf8Size_pos _
    have htile := hrest.tile
    rw [hspan] at htile
    rw [List.map_cons, hspan, Source.byteLength_append, ← Nat.add_assoc]
    exact ⟨rfl, Nat.lt_add_of_pos_right hpos, htile⟩

/-! ## Declarations among tokens -/

/-- From `lo` to `hi` there stand declarations and trivia between them.  Every declaration spans some
of the tokens. -/
inductive Tiling : Nat → Nat → List Token → List Item → Prop where
  | done {offset : Nat} : Tiling offset offset [] []
  | trivia {lo hi : Nat} {t : Token} {ts : List Token} {items : List Item} :
      t.isTrivia = true → t.span.start = lo → t.span.start < t.span.stop →
      Tiling t.span.stop hi ts items → Tiling lo hi (t :: ts) items
  | item {lo mid hi : Nat} {block ts : List Token} {item : Item} {items : List Item} :
      Span.Tile lo mid (block.map (·.span)) → lo < mid → item.span = ⟨lo, mid⟩ →
      Tiling mid hi ts items → Tiling lo hi (block ++ ts) (item :: items)

/-- The trivia that stand in none of the declarations. -/
def Item.outside (items : List Item) (trivia : List Token) : List Token :=
  trivia.filter fun t => items.all fun item => !item.span.contains t.span

theorem Span.not_contains_of_stop_le {a b : Span} (h : a.stop ≤ b.start) (hb : b.start < b.stop) :
    a.contains b = false := by
  simp only [contains, Bool.and_eq_false_iff, decide_eq_false_iff_not]
  omega

theorem Span.not_contains_of_le_start {a b : Span} (h : b.stop ≤ a.start) (hb : b.start < b.stop) :
    a.contains b = false := by
  simp only [contains, Bool.and_eq_false_iff, decide_eq_false_iff_not]
  omega

namespace Tiling

variable {lo hi : Nat} {ts : List Token} {items : List Item}

theorem tile (h : Tiling lo hi ts items) : Span.Tile lo hi (ts.map (·.span)) := by
  induction h with
  | done => exact rfl
  | trivia _ hstart hlt _ ih => exact ⟨hstart, hlt, ih⟩
  | item hblock _ _ _ ih =>
    rw [List.map_append, Span.tile_append]
    exact ⟨_, hblock, ih⟩

theorem within (h : Tiling lo hi ts items) :
    ∀ item ∈ items, lo ≤ item.span.start ∧ item.span.start < item.span.stop ∧ item.span.stop ≤ hi := by
  induction h with
  | done => simp
  | trivia _ hstart hlt _ ih =>
    intro item hitem
    obtain ⟨hlo, hitem⟩ := ih item hitem
    exact ⟨by omega, hitem⟩
  | @item lo mid hi block ts item items hblock hlt hspan hrest ih =>
    refine List.forall_mem_cons.2 ⟨?_, fun other hother => ?_⟩
    · rw [hspan]
      exact ⟨Nat.le_refl _, hlt, hrest.tile.le⟩
    · obtain ⟨hlo, hother⟩ := ih other hother
      exact ⟨by omega, hother⟩

/-- Declarations are in order. -/
theorem pairwise (h : Tiling lo hi ts items) :
    items.Pairwise fun a b => a.span.stop ≤ b.span.start := by
  induction h with
  | done => exact .nil
  | trivia _ _ _ _ ih => exact ih
  | item _ _ hspan hrest ih =>
    refine .cons (fun other hother => ?_) ih
    rw [hspan]
    exact (hrest.within other hother).1

/-- What is not trivia stands in a declaration. -/
theorem exists_item (h : Tiling lo hi ts items) {t : Token} (ht : t ∈ ts) (hsolid : t.isTrivia = false) :
    ∃ item ∈ items, item.span.contains t.span = true := by
  induction h with
  | done => nomatch ht
  | trivia htrivia _ _ _ ih =>
    rcases List.mem_cons.1 ht with rfl | ht
    · exact absurd (hsolid.symm.trans htrivia) Bool.false_ne_true
    · exact ih ht
  | @item lo mid hi block ts item items hblock hlt hspan hrest ih =>
    rcases List.mem_append.1 ht with ht | ht
    · refine ⟨item, List.mem_cons_self, ?_⟩
      have hwithin := hblock.within t.span (List.mem_map_of_mem ht)
      simp only [hspan, Span.contains, Bool.and_eq_true, decide_eq_true_eq]
      omega
    · obtain ⟨other, hother, hcontains⟩ := ih ht
      exact ⟨other, List.mem_cons_of_mem _ hother, hcontains⟩

/-- A token stands in a declaration, before it or behind it. -/
theorem contains_or_disjoint (h : Tiling lo hi ts items) {t : Token} (ht : t ∈ ts) :
    ∀ item ∈ items, item.span.contains t.span = true ∨ t.span.stop ≤ item.span.start ∨
      item.span.stop ≤ t.span.start := by
  induction h with
  | done => nomatch ht
  | trivia _ _ _ hrest ih =>
    rcases List.mem_cons.1 ht with rfl | ht
    · exact fun item hitem => .inr (.inl (hrest.within item hitem).1)
    · exact ih ht
  | @item lo mid hi block ts item items hblock hlt hspan hrest ih =>
    rcases List.mem_append.1 ht with ht | ht
    · have hwithin := hblock.within t.span (List.mem_map_of_mem ht)
      refine List.forall_mem_cons.2 ⟨.inl ?_, fun other hother => .inr (.inl ?_)⟩
      · simp only [hspan, Span.contains, Bool.and_eq_true, decide_eq_true_eq]
        omega
      · exact Nat.le_trans hwithin.2.2 (hrest.within other hother).1
    · have hwithin := hrest.tile.within t.span (List.mem_map_of_mem ht)
      refine List.forall_mem_cons.2 ⟨.inr (.inr ?_), ih ht⟩
      rw [hspan]
      exact hwithin.1

/-- No two declarations share a token. -/
theorem unique (h : Tiling lo hi ts items) {t : Token} (ht : t ∈ ts) {a b : Item} (ha : a ∈ items)
    (hb : b ∈ items) (hat : a.span.contains t.span = true) (hbt : b.span.contains t.span = true) :
    a = b := by
  have hlt := (h.tile.within t.span (List.mem_map_of_mem ht)).2.1
  obtain ⟨i, hi, rfl⟩ := List.getElem_of_mem ha
  obtain ⟨j, hj, rfl⟩ := List.getElem_of_mem hb
  have hpairwise := List.pairwise_iff_getElem.1 h.pairwise
  simp only [Span.contains, Bool.and_eq_true, decide_eq_true_eq] at hat hbt
  obtain hij | rfl | hij := Nat.lt_trichotomy i j
  · have := hpairwise i j hi hj hij
    omega
  · rfl
  · have := hpairwise j i hj hi hij
    omega

/-- The spans of the declarations and of the trivia outside them tile what the tokens do. -/
theorem exists_tile (h : Tiling lo hi ts items) : ∃ spans, Span.Tile lo hi spans ∧
    (items.map (·.span) ++ (Item.outside items (ts.filter Token.isTrivia)).map (·.span)).Perm spans := by
  induction h with
  | done => exact ⟨[], rfl, .refl _⟩
  | @trivia lo hi t ts items htrivia hstart hlt hrest ih =>
    obtain ⟨spans, htile, hperm⟩ := ih
    have hfree : (items.all fun item => !item.span.contains t.span) = true := by
      simp only [List.all_eq_true, Bool.not_eq_true']
      exact fun item hitem => Span.not_contains_of_le_start (hrest.within item hitem).1 hlt
    have houtside : Item.outside items (t :: ts.filter Token.isTrivia) =
        t :: Item.outside items (ts.filter Token.isTrivia) := List.filter_cons_of_pos hfree
    refine ⟨t.span :: spans, ⟨hstart, hlt, htile⟩, ?_⟩
    rw [List.filter_cons_of_pos htrivia, houtside, List.map_cons]
    exact List.perm_middle.trans (hperm.cons t.span)
  | @item lo mid hi block ts item items hblock hlt hspan hrest ih =>
    obtain ⟨spans, htile, hperm⟩ := ih
    refine ⟨item.span :: spans, ⟨by rw [hspan], by rw [hspan]; exact hlt, by rwa [hspan]⟩, ?_⟩
    -- the trivia in the declaration are inside, those behind it are not
    have hinside : Item.outside (item :: items) (block.filter Token.isTrivia) = [] := by
      refine List.filter_eq_nil_iff.2 fun t ht => ?_
      have hwithin := hblock.within t.span (List.mem_map_of_mem (List.mem_filter.1 ht).1)
      have hcontains : item.span.contains t.span = true := by
        simp only [hspan, Span.contains, Bool.and_eq_true, decide_eq_true_eq]
        omega
      simp [hcontains]
    have hbehind : Item.outside (item :: items) (ts.filter Token.isTrivia) =
        Item.outside items (ts.filter Token.isTrivia) := by
      refine List.filter_congr fun t ht => ?_
      have hwithin := hrest.tile.within t.span (List.mem_map_of_mem (List.mem_filter.1 ht).1)
      have hcontains : item.span.contains t.span = false :=
        Span.not_contains_of_stop_le (by rw [hspan]; exact hwithin.1) hwithin.2.1
      simp [hcontains]
    rw [List.filter_append, Item.outside, List.filter_append]
    change (item.span :: items.map (·.span) ++ (Item.outside (item :: items) _ ++
      Item.outside (item :: items) _).map (·.span)).Perm _
    rw [hinside, hbehind, List.nil_append, List.cons_append]
    exact hperm.cons item.span

end Tiling

/-! ## Runs of significant tokens -/

/-- The declaration spans the tokens, from the start of the first one to the end of the last one, if
that is not in front of the start. -/
def Item.Spans (item : Item) (run : List Token) : Prop :=
  ∃ first more, run = first :: more ∧
    item.span = ⟨first.span.start, max (Token.endBehind first.span.stop more) first.span.start⟩

/-- The first of the significant tokens end where some of the tokens do. -/
theorem exists_block {p : Token → Bool} {ts run more : List Token} (lo : Nat)
    (h : ts.filter p = run ++ more) :
    ∃ block rest, ts = block ++ rest ∧ rest.filter p = more ∧
      Token.endBehind lo block = Token.endBehind lo run := by
  induction run generalizing lo ts with
  | nil => exact ⟨[], ts, rfl, h, rfl⟩
  | cons t run ih =>
    rw [List.cons_append, List.filter_eq_cons_iff] at h
    obtain ⟨skipped, us, rfl, -, -, hus⟩ := h
    obtain ⟨block, rest, rfl, hrest, hend⟩ := ih t.span.stop hus
    refine ⟨skipped ++ t :: block, rest, by simp, hrest, ?_⟩
    rw [Token.endBehind_append]
    exact hend

/-- Declarations that span the significant tokens, run by run, stand among all of them. -/
theorem Tiling.of_runs {lo hi : Nat} {ts : List Token} {items : List Item} {runs : List (List Token)}
    (htile : Span.Tile lo hi (ts.map (·.span))) (hruns : List.Forall₂ Item.Spans items runs)
    (hts : ts.filter (fun t => !t.isTrivia) = runs.flatten) : Tiling lo hi ts items := by
  induction hn : ts.length using Nat.strongRecOn generalizing lo ts items runs with
  | ind n ih =>
    cases ts with
    | nil =>
      obtain rfl : lo = hi := htile
      cases hruns with
      | nil => exact .done
      | cons hitem _ =>
        obtain ⟨first, more, rfl, -⟩ := hitem
        simp at hts
    | cons t ts =>
      rw [List.length_cons] at hn
      obtain ⟨hstart, hlt, hrest⟩ := htile
      cases htrivia : t.isTrivia with
      | true =>
        rw [List.filter_cons_of_neg (by simp [htrivia])] at hts
        exact .trivia htrivia hstart hlt (ih _ (by omega) hrest hruns hts rfl)
      | false =>
        rw [List.filter_cons_of_pos (by simp [htrivia])] at hts
        cases hruns with
        | nil => simp at hts
        | @cons item run items runs hitem hitems =>
          obtain ⟨first, more, rfl, hspan⟩ := hitem
          rw [List.flatten_cons, List.cons_append, List.cons.injEq] at hts
          obtain ⟨rfl, hts⟩ := hts
          obtain ⟨block, behind, rfl, hbehind, hend⟩ := exists_block t.span.stop hts
          rw [List.map_append, Span.tile_append] at hrest
          obtain ⟨mid, hblock, hrest⟩ := hrest
          rw [hblock.endBehind] at hend
          rw [List.length_append] at hn
          have hle := hblock.le
          have hwhole : Span.Tile lo mid ((t :: block).map (·.span)) := ⟨hstart, hlt, hblock⟩
          refine .item hwhole (by omega) ?_ (ih _ (by omega) hrest hitems hbehind rfl)
          rw [hspan, ← hend, hstart, Nat.max_eq_left (by omega)]

end ActorFrontend
