import Mathlib.Data.List.Basic
import ActorFrontend.Diagnostic.View
import ActorFrontend.Proofs.Lines.Utf8

/-!
# Lines, columns and line feeds

The line map of a text against the text itself.  The line of an offset is told by the line feeds
among the bytes before it and the column by the bytes since the last of them; the lines are the
pieces that the text falls into at its line feeds.
-/

namespace ActorFrontend

namespace Source

/-- The byte that separates lines. -/
def lineFeed : UInt8 := 10

/-- The offset just behind the last line feed of the bytes, or 0 if there is none. -/
def behindLastFeed (bytes : List UInt8) : Nat :=
  bytes.length - bytes.reverse.findIdx (· == lineFeed)

/-- The lines of a text: the pieces between its line feeds. -/
def lines (source : String) : List String := (source.toList.splitOn '\n').map String.ofList

theorem mem_utf8_lineFeed {cs : List Char} : lineFeed ∈ utf8 cs ↔ '\n' ∈ cs :=
  mem_utf8_iff (d := '\n') (by decide)

theorem utf8EncodeChar_lineFeed : String.utf8EncodeChar '\n' = [lineFeed] := rfl

/-- A character other than a line feed has no line feed among its bytes. -/
theorem lineFeed_not_mem {c : Char} (h : c ≠ '\n') : lineFeed ∉ String.utf8EncodeChar c :=
  fun hmem => h ((mem_utf8EncodeChar_iff (d := '\n') (by decide)).1 hmem)

theorem count_utf8_lineFeed (cs : List Char) : (utf8 cs).count lineFeed = cs.count '\n' := by
  induction cs with
  | nil => rfl
  | cons c cs ih =>
    rw [utf8_cons, List.count_append, List.count_cons, ih]
    by_cases hc : c = '\n'
    · subst hc
      simp [utf8EncodeChar_lineFeed, Nat.add_comm]
    · rw [List.count_eq_zero_of_not_mem (lineFeed_not_mem hc), if_neg (by simpa using hc)]
      omega

theorem findIdx_of_not_mem {bytes : List UInt8} (h : lineFeed ∉ bytes) :
    bytes.reverse.findIdx (· == lineFeed) = bytes.length := by
  rw [← List.length_reverse, List.findIdx_eq_length]
  intro b hb
  rw [beq_eq_false_iff_ne]
  rintro rfl
  exact h (List.mem_reverse.1 hb)

/-- Without a line feed everything is one line. -/
theorem behindLastFeed_of_not_mem {bytes : List UInt8} (h : lineFeed ∉ bytes) :
    behindLastFeed bytes = 0 := by
  rw [behindLastFeed, findIdx_of_not_mem h, Nat.sub_self]

/-- What matters are the last bytes that have a line feed. -/
theorem behindLastFeed_append {bytes more : List UInt8} (h : lineFeed ∈ more) :
    behindLastFeed (bytes ++ more) = bytes.length + behindLastFeed more := by
  have hlt : more.reverse.findIdx (· == lineFeed) < more.reverse.length :=
    List.findIdx_lt_length_of_exists ⟨lineFeed, by simpa using h, by simp⟩
  have hle : more.reverse.findIdx (· == lineFeed) < more.length := by simpa using hlt
  rw [behindLastFeed, behindLastFeed, List.reverse_append, List.findIdx_append, if_pos hlt,
    List.length_append]
  omega

theorem behindLastFeed_feed_append {bytes more : List UInt8} (h : lineFeed ∉ more) :
    behindLastFeed (bytes ++ lineFeed :: more) = bytes.length + 1 := by
  have hmore : behindLastFeed (lineFeed :: more) = 1 := by
    rw [behindLastFeed, List.reverse_cons, List.findIdx_append, findIdx_of_not_mem h,
      List.length_reverse, if_neg (Nat.lt_irrefl _)]
    simp
  rw [behindLastFeed_append (List.mem_cons_self ..), hmore]

/-- A text is its last line, or a line, a line feed and more of it. -/
@[elab_as_elim]
theorem line_induction {motive : List Char → Prop}
    (last : ∀ line, '\n' ∉ line → motive line)
    (more : ∀ line rest, '\n' ∉ line → motive rest → motive (line ++ '\n' :: rest))
    (cs : List Char) : motive cs := by
  by_cases hmem : '\n' ∈ cs
  · obtain ⟨line, rest, hcs, hline⟩ := List.eq_append_cons_of_mem hmem
    have hlt : rest.length < cs.length := by
      rw [hcs, List.length_append, List.length_cons]
      omega
    rw [hcs]
    exact more line rest hline (line_induction last more rest)
  · exact last cs hmem
termination_by cs.length

end Source

open Source

namespace LineMap

/-! ## The line starts -/

/-- Lines other than the first start behind the text's first byte. -/
theorem lt_of_mem_startsAfter {base start : Nat} {cs : List Char}
    (h : start ∈ startsAfter base cs) : base < start := by
  induction cs generalizing base with
  | nil => cases h
  | cons c cs ih =>
    have hpos := c.utf8Size_pos
    rw [startsAfter] at h
    split at h
    · rcases List.mem_cons.1 h with rfl | h
      · omega
      · have hlt := ih h
        omega
    · have hlt := ih h
      omega

/-- The starts are in order, and no two are the same. -/
theorem pairwise_startsAfter (base : Nat) (cs : List Char) :
    (startsAfter base cs).Pairwise (· < ·) := by
  induction cs generalizing base with
  | nil => exact .nil
  | cons c cs ih =>
    rw [startsAfter]
    split
    · exact List.pairwise_cons.2 ⟨fun _ h => lt_of_mem_startsAfter h, ih _⟩
    · exact ih _

theorem pairwise_starts (source : String) : (ofSource source).starts.Pairwise (· < ·) :=
  List.pairwise_cons.2 ⟨fun _ h => lt_of_mem_startsAfter h, pairwise_startsAfter _ _⟩

/-- No start up to an offset before the first one. -/
theorem takeWhile_startsAfter_eq_nil {base offset : Nat} {cs : List Char} (h : offset ≤ base) :
    (startsAfter base cs).takeWhile (· ≤ offset) = [] := by
  cases hstarts : startsAfter base cs with
  | nil => rfl
  | cons start starts =>
    have hlt : base < start := lt_of_mem_startsAfter (hstarts ▸ List.mem_cons_self ..)
    rw [List.takeWhile_cons, if_neg (by simpa using by omega)]

/-- As many lines have begun up to an offset as there are line feeds before it, and the last of them
began just behind the last line feed. -/
theorem begun_startsAfter (base : Nat) (cs : List Char) (n : Nat) :
    ((startsAfter base cs).takeWhile (· ≤ base + n)).length =
        ((utf8 cs).take n).count lineFeed ∧
      ∀ first, ((startsAfter base cs).takeWhile (· ≤ base + n)).getLastD first =
        if lineFeed ∈ (utf8 cs).take n then base + behindLastFeed ((utf8 cs).take n)
        else first := by
  induction cs generalizing base n with
  | nil => simp [startsAfter]
  | cons c cs ih =>
    rw [startsAfter, utf8_cons]
    by_cases hc : c = '\n'
    · subst hc
      have hsize : Char.utf8Size '\n' = 1 := rfl
      rw [if_pos rfl, hsize, utf8EncodeChar_lineFeed]
      cases n with
      | zero => simp
      | succ n =>
        obtain ⟨hcount, hlast⟩ := ih (base + 1) n
        have hnext : base + (n + 1) = base + 1 + n := by omega
        rw [hnext, List.takeWhile_cons, if_pos (by simp), List.singleton_append,
          List.take_succ_cons]
        refine ⟨by rw [List.length_cons, hcount, List.count_cons_self], fun first => ?_⟩
        rw [List.getLastD_cons, hlast, if_pos (List.mem_cons_self ..)]
        -- whether another line feed follows decides where the last line began
        by_cases hmem : lineFeed ∈ (utf8 cs).take n
        · have happend : behindLastFeed (lineFeed :: (utf8 cs).take n) =
              1 + behindLastFeed ((utf8 cs).take n) :=
            @behindLastFeed_append [lineFeed] _ hmem
          rw [if_pos hmem, happend]
          omega
        · have hself : behindLastFeed (lineFeed :: (utf8 cs).take n) = 1 :=
            @behindLastFeed_feed_append [] _ hmem
          rw [if_neg hmem, hself]
    · have hlength : (String.utf8EncodeChar c).length = c.utf8Size := String.length_utf8EncodeChar c
      have hfree := lineFeed_not_mem hc
      rw [if_neg hc, List.take_append]
      by_cases hn : n ≤ c.utf8Size
      · -- the offset lies within the character
        have hnil : (utf8 cs).take (n - (String.utf8EncodeChar c).length) = [] := by
          rw [hlength, Nat.sub_eq_zero_of_le hn, List.take_zero]
        have hmem : lineFeed ∉ (String.utf8EncodeChar c).take n :=
          fun h => hfree (List.mem_of_mem_take h)
        rw [takeWhile_startsAfter_eq_nil (by omega), hnil, List.append_nil,
          List.count_eq_zero_of_not_mem hmem]
        exact ⟨rfl, fun first => by rw [if_neg hmem]; rfl⟩
      · obtain ⟨hcount, hlast⟩ := ih (base + c.utf8Size) (n - c.utf8Size)
        have hnext : base + n = base + c.utf8Size + (n - c.utf8Size) := by omega
        have hwhole : (String.utf8EncodeChar c).take n = String.utf8EncodeChar c :=
          List.take_of_length_le (by omega)
        rw [hnext, hwhole, hlength, List.count_append, List.count_eq_zero_of_not_mem hfree,
          Nat.zero_add]
        refine ⟨hcount, fun first => ?_⟩
        rw [hlast]
        by_cases hmem : lineFeed ∈ (utf8 cs).take (n - c.utf8Size)
        · rw [if_pos hmem, if_pos (List.mem_append_right _ hmem), behindLastFeed_append hmem, hlength]
          omega
        · have hnone : lineFeed ∉ String.utf8EncodeChar c ++ (utf8 cs).take (n - c.utf8Size) := by
            rw [List.mem_append]
            exact fun h => h.elim hfree hmem
          rw [if_neg hmem, if_neg hnone]

/-- The position of an offset within the text, or behind it, that is counted in 32 bits. -/
theorem position_ofSource (source : String) {offset : Nat} (h : offset < offsetModulus) :
    (ofSource source).position offset =
      ⟨1 + ((utf8 source.toList).take offset).count lineFeed,
        offset - behindLastFeed ((utf8 source.toList).take offset) + 1⟩ := by
  obtain ⟨hcount, hlast⟩ := begun_startsAfter 0 source.toList offset
  rw [Nat.zero_add] at hcount hlast
  have hlast := hlast 0
  rw [Nat.zero_add] at hlast
  have hbegun : ((startsAfter 0 source.toList).takeWhile (· ≤ offset)).getLastD 0 =
      behindLastFeed ((utf8 source.toList).take offset) := by
    by_cases hmem : lineFeed ∈ (utf8 source.toList).take offset
    · rw [hlast, if_pos hmem]
    · rw [hlast, if_neg hmem, behindLastFeed_of_not_mem hmem]
  show Position.mk _ _ = _
  rw [Nat.mod_eq_of_lt h]
  show Position.mk (List.length ((startsAfter 0 source.toList).takeWhile (· ≤ offset)) + 1)
    (offset - ((startsAfter 0 source.toList).takeWhile (· ≤ offset)).getLastD 0 + 1) = _
  rw [hcount, hbegun, Nat.add_comm 1]

/-! ## The lines -/

theorem startsAfter_append (base : Nat) (as bs : List Char) :
    startsAfter base (as ++ bs) = startsAfter base as ++ startsAfter (base + byteLength as) bs := by
  induction as generalizing base with
  | nil => rfl
  | cons a as ih =>
    rw [List.cons_append, startsAfter, startsAfter, byteLength_cons, ← Nat.add_assoc]
    split
    · rw [ih, List.cons_append]
    · exact ih _

theorem startsAfter_of_not_mem {base : Nat} {cs : List Char} (h : '\n' ∉ cs) :
    startsAfter base cs = [] := by
  induction cs generalizing base with
  | nil => rfl
  | cons c cs ih =>
    obtain ⟨hc, hcs⟩ := not_or.1 (mt List.mem_cons.2 h)
    rw [startsAfter, if_neg (Ne.symm hc)]
    exact ih hcs

/-- Behind a line without a line feed, and the line feed that ends it, the next line starts. -/
theorem startsAfter_line {base : Nat} {line cs : List Char} (h : '\n' ∉ line) :
    startsAfter base (line ++ '\n' :: cs) =
      (base + byteLength line + 1) :: startsAfter (base + byteLength line + 1) cs := by
  have hsize : Char.utf8Size '\n' = 1 := rfl
  rw [startsAfter_append, startsAfter_of_not_mem h, List.nil_append, startsAfter, if_pos rfl, hsize]

/-- Where a line stops: in front of the line feed before the next one, or at the end of the text. -/
def stopOf (starts : List Nat) (whole : List Char) (index : Nat) : Nat :=
  match starts[index]? with
  | some next => next - 1
  | none => byteLength whole

/-- The lines of what follows some text are found by their starts. -/
theorem slice_startsAfter (front cs : List Char) (index : Nat) :
    ((byteLength front :: startsAfter (byteLength front) cs)[index]?.bind fun start =>
        slice? start
          (stopOf (byteLength front :: startsAfter (byteLength front) cs) (front ++ cs) (index + 1))
          (front ++ cs)) =
      (cs.splitOn '\n')[index]? := by
  induction cs using Source.line_induction generalizing front index with
  | last line hline =>
    rw [startsAfter_of_not_mem hline, List.splitOn_eq_singleton hline]
    cases index with
    | zero => exact slice?_eq_some_iff.2 ⟨front, [], by simp, rfl, by simp [stopOf]⟩
    | succ index => rfl
  | more line rest hline ih =>
    rw [startsAfter_line hline, List.splitOn_append_cons_self_of_not_mem hline]
    cases index with
    | zero =>
      refine slice?_eq_some_iff.2 ⟨front, '\n' :: rest, by simp, rfl, ?_⟩
      show byteLength front + byteLength line = byteLength front + byteLength line + 1 - 1
      omega
    | succ index =>
      -- the same text, cut behind the first line
      have hfront : byteLength (front ++ line ++ ['\n']) = byteLength front + byteLength line + 1 := by
        have hsize : Char.utf8Size '\n' = 1 := rfl
        simp [hsize]
        omega
      have hwhole : front ++ (line ++ '\n' :: rest) = front ++ line ++ ['\n'] ++ rest := by simp
      have hrest := ih (front ++ line ++ ['\n']) index
      rw [hfront] at hrest
      rw [hwhole]
      exact hrest

theorem length_startsAfter (base : Nat) (cs : List Char) :
    (startsAfter base cs).length + 1 = (cs.splitOn '\n').length := by
  induction cs using Source.line_induction generalizing base with
  | last line hline =>
    rw [startsAfter_of_not_mem hline, List.splitOn_eq_singleton hline]
    rfl
  | more line rest hline ih =>
    rw [startsAfter_line hline, List.splitOn_append_cons_self_of_not_mem hline, List.length_cons,
      List.length_cons, ih]

theorem lineCount_ofSource (source : String) :
    (ofSource source).lineCount = (lines source).length := by
  show (startsAfter 0 source.toList).length + 1 = _
  rw [length_startsAfter, lines, List.length_map]

/-- The text of a line, the first one being line 1. -/
theorem lineText?_ofSource (source : String) (index : Nat) :
    (ofSource source).lineText? source (index + 1) = (lines source)[index]? := by
  have hslice := slice_startsAfter [] source.toList index
  rw [byteLength_nil, List.nil_append] at hslice
  rw [lines, List.getElem?_map, ← hslice, Option.map_bind]
  rfl

/-- Lines are told apart by line feeds, and nothing of the text is lost. -/
theorem intercalate_lines (source : String) : "\n".intercalate (lines source) = source := by
  apply String.toList_inj.1
  rw [String.toList_intercalate, lines, List.map_map]
  have hid : (String.toList ∘ String.ofList) = (id : List Char → List Char) :=
    funext fun cs => String.toList_ofList
  rw [hid, List.map_id]
  exact List.intercalate_splitOn '\n'

/-! ## The line map is exact -/

/-- The line map answers with the line of an offset, told by the line feeds before it, with its
column, told by the bytes behind the last of them, and with the lines of the text. -/
theorem ofSource_exact (source : String) (h : source.utf8ByteSize < UInt32.size - 1) :
    (∀ offset ≤ source.utf8ByteSize,
        (ofSource source).position offset =
          ⟨1 + (source.toByteArray.data.toList.take offset).count lineFeed,
            offset - behindLastFeed (source.toByteArray.data.toList.take offset) + 1⟩) ∧
      (∀ line, 1 ≤ line → line ≤ (ofSource source).lineCount →
        ∃ hline : line - 1 < (lines source).length,
          (ofSource source).lineText? source line = some (lines source)[line - 1]) ∧
      (∀ line, line = 0 ∨ (ofSource source).lineCount < line →
        (ofSource source).lineText? source line = none) ∧
      "\n".intercalate (lines source) = source := by
  refine ⟨fun offset hoffset => ?_, fun line hpos hle => ?_, fun line hline => ?_,
    intercalate_lines source⟩
  · rw [← utf8_toList]
    exact position_ofSource source (by rw [offsetModulus]; omega)
  · obtain ⟨index, rfl⟩ := Nat.exists_eq_succ_of_ne_zero (Nat.ne_of_gt hpos)
    rw [lineCount_ofSource] at hle
    refine ⟨hle, ?_⟩
    show (ofSource source).lineText? source (index + 1) = _
    rw [lineText?_ofSource, List.getElem?_eq_getElem hle]
    rfl
  · obtain rfl | hlt := hline
    · rfl
    · obtain ⟨index, rfl⟩ := Nat.exists_eq_succ_of_ne_zero (Nat.ne_of_gt (Nat.zero_lt_of_lt hlt))
      rw [lineCount_ofSource] at hlt
      show (ofSource source).lineText? source (index + 1) = _
      rw [lineText?_ofSource, List.getElem?_eq_none (by omega)]

theorem ofSource_exact_empty_line :
    (ofSource "é\n\nb\n").position 4 = ⟨3, 1⟩ ∧
      (ofSource "é\n\nb\n").lineText? "é\n\nb\n" 2 = some "" ∧
      (ofSource "é\n\nb\n").lineText? "é\n\nb\n" 5 = none := by
  obtain ⟨hposition, hline, hnone, -⟩ := ofSource_exact "é\n\nb\n" (by decide)
  refine ⟨(hposition 4 (by decide)).trans (by decide), ?_, hnone 5 (.inr (by decide))⟩
  obtain ⟨hlt, hline⟩ := hline 2 (by decide) (by decide)
  have hlines : lines "é\n\nb\n" = ["é", "", "b", ""] := by decide
  rw [hline, ← List.getElem?_eq_getElem hlt, hlines]
  rfl

end LineMap

end ActorFrontend
