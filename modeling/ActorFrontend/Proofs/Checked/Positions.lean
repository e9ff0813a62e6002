import ActorFrontend.Diagnostic.Basic
import ActorFrontend.Diagnostic.View
import ActorFrontend.Proofs.Checked.Basic
import ActorFrontend.Proofs.Lines.Positions

/-!
# Checked positions

Positions once more, with checked arithmetic: a line is looked up by its index, which a search has
answered with, and a column is a sum and a difference of 32 bits.  An offset that is not the last one
of 32 bits has its position, wherever it lies.
-/

namespace ActorFrontend

open Checked Source

namespace LineMap

/-- A search for an offset among ordered starts: its index, or, as an error, the index at which it
would have to be put in. -/
def search (starts : List Nat) (offset : Nat) : Except Nat Nat :=
  let index := starts.findIdx (offset ≤ ·)
  if starts[index]? = some offset then .ok index else .error index

/-- The line on which an offset lies, by what a search for it has answered. -/
def lineIndex : Except Nat Nat → Nat
  | .ok index => index
  | .error index => index - 1

/-- The position of an offset, its column being counted in 32 bits. -/
def position? (m : LineMap) (offset : Nat) : Option Position := do
  let offset := offset % offsetModulus
  let index := lineIndex (search m.starts offset)
  let start ← m.starts[index]?
  let line ← add? wordModulus index 1
  let passed ← sub? offset start
  let column ← add? offsetModulus passed 1
  return ⟨line, column⟩

variable {m : LineMap} {offset : Nat}

/-- The lines that have begun up to an offset are those up to the one found by the search. -/
theorem takeWhile_starts (hsorted : m.starts.Pairwise (· < ·)) (offset : Nat) :
    m.starts.takeWhile (· ≤ offset) =
        m.starts.take (lineIndex (search m.starts offset) + 1) ∧
      lineIndex (search m.starts offset) < m.starts.length := by
  have hsplit (k : Nat) (hbegun : ∀ start ∈ m.starts.take k, start ≤ offset)
      (hlater : ∀ start ∈ m.starts.drop k, offset < start) :
      m.starts.takeWhile (· ≤ offset) = m.starts.take k := by
    conv => lhs; rw [← List.take_append_drop k m.starts]
    rw [List.takeWhile_append_of_pos fun start hstart => by simpa using hbegun start hstart]
    cases hdrop : m.starts.drop k with
    | nil => simp
    | cons start more =>
      have hlt : offset < start := hlater start (hdrop ▸ List.mem_cons_self ..)
      rw [List.takeWhile_cons, if_neg (by simpa using hlt), List.append_nil]
  have hpos : 0 < m.starts.length := Nat.succ_pos _
  rw [search]
  generalize hk : m.starts.findIdx (offset ≤ ·) = k
  have hbegun : ∀ start ∈ m.starts.take k, start < offset := by
    intro start hstart
    obtain ⟨i, hi, rfl⟩ := List.mem_take_iff_getElem.1 hstart
    have hbefore : i < m.starts.findIdx (offset ≤ ·) := by omega
    simpa using List.not_of_lt_findIdx hbefore
  by_cases hfound : m.starts[k]? = some offset
  · obtain ⟨hlt, hget⟩ := List.getElem?_eq_some_iff.1 hfound
    have hwhole : m.starts = m.starts.take k ++ offset :: m.starts.drop (k + 1) := by
      rw [← hget, ← List.drop_eq_getElem_cons hlt, List.take_append_drop]
    rw [if_pos hfound]
    refine ⟨hsplit (k + 1) (fun start hstart => ?_) ?_, hlt⟩
    · rw [List.take_succ_eq_append_getElem hlt, List.mem_append, List.mem_singleton, hget] at hstart
      obtain hstart | rfl := hstart
      · exact Nat.le_of_lt (hbegun start hstart)
      · exact Nat.le_refl _
    · rw [hwhole, List.pairwise_append, List.pairwise_cons] at hsorted
      exact hsorted.2.1.1
  · have hlater : ∀ start ∈ m.starts.drop k, offset < start := by
      intro start hstart
      have hlt : k < m.starts.length := by
        by_contra hge
        rw [List.drop_of_length_le (Nat.le_of_not_lt hge)] at hstart
        cases hstart
      have hle : offset ≤ m.starts[k] := by
        have hfirst := List.findIdx_getElem (w := hk ▸ hlt)
        simpa [hk] using hfirst
      have hne : m.starts[k] ≠ offset := fun h => hfound (List.getElem?_eq_some_iff.2 ⟨hlt, h⟩)
      rw [← List.take_append_drop k m.starts, List.pairwise_append,
        List.drop_eq_getElem_cons hlt] at hsorted
      rw [List.drop_eq_getElem_cons hlt] at hstart
      obtain rfl | hstart := List.mem_cons.1 hstart
      · omega
      · have hlater := (List.pairwise_cons.1 hsorted.2.1).1 start hstart
        omega
    have hindex : 0 < k := by
      -- the first line starts at 0, and so not behind the offset
      cases k with
      | zero => exact absurd (hlater 0 (List.mem_cons_self ..)) (Nat.not_lt_zero _)
      | succ k => exact Nat.succ_pos _
    have hle : k ≤ m.starts.length := hk ▸ List.findIdx_le_length
    have hsucc : lineIndex (.error k) + 1 = k := Nat.sub_add_cancel hindex
    rw [if_neg hfound, hsucc]
    refine ⟨hsplit k (fun start hstart => Nat.le_of_lt (hbegun start hstart)) hlater, ?_⟩
    show k - 1 < _
    omega

/-- The position of an offset of 32 bits is found. -/
theorem position?_eq (hsorted : m.starts.Pairwise (· < ·)) (hcount : m.lineCount < wordModulus)
    (h : offset < offsetModulus - 1) : m.position? offset = some (m.position offset) := by
  obtain ⟨htake, hindex⟩ := takeWhile_starts hsorted offset
  have hbegun : m.starts.takeWhile (· ≤ offset) = 0 :: m.laterStarts.takeWhile (· ≤ offset) :=
    List.takeWhile_cons_of_pos (by simp)
  have hmod : offset % offsetModulus = offset := Nat.mod_eq_of_lt (by omega)
  rw [hbegun] at htake
  -- the last line that has begun is the one found
  have hlength := congrArg List.length htake
  rw [List.length_cons, List.length_take, Nat.min_eq_left hindex] at hlength
  have hlast := congrArg List.getLast? htake
  rw [List.getLast?_cons, List.getLast?_take, if_neg (Nat.succ_ne_zero _), Nat.add_sub_cancel,
    List.getElem?_eq_getElem hindex, Option.some_or] at hlast
  have hstart : m.starts[lineIndex (search m.starts offset)]? =
      some ((m.laterStarts.takeWhile (· ≤ offset)).getLastD 0) := by
    rw [List.getElem?_eq_getElem hindex, ← hlast, List.getLastD_eq_getLast?]
  have hle : (m.laterStarts.takeWhile (· ≤ offset)).getLastD 0 ≤ offset := by
    have hall := List.all_eq_true.1 (List.all_takeWhile (p := fun start => decide (start ≤ offset))
      (l := m.starts))
    have hmem := List.mem_of_getLast? (List.getLast?_cons (l := m.laterStarts.takeWhile (· ≤ offset))
      (a := 0))
    rw [← hbegun] at hmem
    simpa [List.getLastD_eq_getLast?] using hall _ hmem
  have hposition : m.position offset =
      ⟨(m.laterStarts.takeWhile (· ≤ offset)).length + 1,
        offset - (m.laterStarts.takeWhile (· ≤ offset)).getLastD 0 + 1⟩ := by
    simp only [position, hmod]
  rw [hposition, hlength]
  generalize (m.laterStarts.takeWhile (· ≤ offset)).getLastD 0 = start at hstart hle
  have hcolumn : add? offsetModulus (offset - start) 1 = some (offset - start + 1) :=
    add?_of_lt (by omega)
  have hline : add? wordModulus (lineIndex (search m.starts offset)) 1 =
      some (lineIndex (search m.starts offset) + 1) :=
    add?_of_lt (Nat.lt_of_le_of_lt hindex hcount)
  simp only [position?, hmod, hstart, Option.bind_eq_bind, Option.bind_some, hline, sub?_of_le hle,
    hcolumn]
  rfl

/-- A text has not more lines than bytes, and one line more at the most. -/
theorem length_startsAfter_le (base : Nat) (cs : List Char) :
    (startsAfter base cs).length ≤ byteLength cs := by
  induction cs generalizing base with
  | nil => exact Nat.zero_le _
  | cons c cs ih =>
    have hpos := c.utf8Size_pos
    have hrest := ih (base + c.utf8Size)
    rw [startsAfter, byteLength_cons]
    by_cases hc : c = '\n'
    · rw [if_pos hc, List.length_cons]
      omega
    · rw [if_neg hc]
      omega

theorem lineCount_ofSource_le (source : String) :
    (ofSource source).lineCount ≤ byteLength source.toList + 1 :=
  Nat.succ_le_succ (length_startsAfter_le 0 source.toList)

theorem position_line_le (m : LineMap) (offset : Nat) : (m.position offset).line ≤ m.lineCount :=
  Nat.succ_le_succ (List.takeWhile_prefix _).length_le

end LineMap

/-! ## Positions in a source -/

namespace SourceView

variable {source : String} {offset : Nat}

theorem position?_ofSource (hsize : byteLength source.toList < LineMap.offsetModulus - 1)
    (h : offset < LineMap.offsetModulus - 1) :
    (ofSource source).lines.position? offset = some ((ofSource source).position offset) := by
  have hle := LineMap.lineCount_ofSource_le source
  have hword : LineMap.offsetModulus ≤ wordModulus := by decide
  have hcount : (LineMap.ofSource source).lineCount < wordModulus := by omega
  exact LineMap.position?_eq (LineMap.pairwise_starts source) hcount h

theorem column_pos (view : SourceView) (offset : Nat) : 1 ≤ (view.position offset).column :=
  Nat.le_add_left ..

/-- A column is at the most as large as the offset, but for being counted from 1. -/
theorem column_le (view : SourceView) (offset : Nat) :
    (view.position offset).column ≤ LineMap.offsetModulus := by
  have hlt : offset % LineMap.offsetModulus < LineMap.offsetModulus :=
    Nat.mod_lt _ (Nat.succ_pos _)
  show offset % LineMap.offsetModulus - _ + 1 ≤ _
  omega

/-- A line is not longer than the source. -/
theorem byteLength_lineText?_le {view : SourceView} {line : Nat} {text : String}
    (h : view.lineText? line = some text) :
    byteLength text.toList ≤ byteLength view.source.toList := by
  rw [lineText?, LineMap.lineText?] at h
  split at h
  · cases h
  · obtain ⟨start, -, h⟩ := Option.bind_eq_some_iff.1 h
    obtain ⟨cs, hslice, rfl⟩ := Option.map_eq_some_iff.1 h
    obtain ⟨front, back, hsource, -⟩ := slice?_eq_some_iff.1 hslice
    rw [hsource, String.toList_ofList, byteLength_append, byteLength_append]
    omega

/-- The text of a line that there may not be is not longer than the source. -/
theorem byteLength_lineText_le (view : SourceView) (line : Nat) :
    byteLength ((view.lineText? line).getD "").toList ≤ byteLength view.source.toList := by
  cases h : view.lineText? line with
  | none => exact Nat.zero_le _
  | some text => exact byteLength_lineText?_le h

end SourceView

/-! ## Changed lines -/

/-- The number of bytes covered, unless the span ends before it starts. -/
def Span.length? (s : Span) : Option Nat := sub? s.stop s.start

/-- The two sides of the change of a span that starts in a column of a line. -/
def EditedLine.cut? (line : String) (column : Nat) (span : Span) : Option EditedLine := do
  let chars := line.toList
  let size := byteLength chars
  let passed ← sub? column 1
  let start := min passed size
  let length ← span.length?
  let behind ← add? wordModulus start length
  let stop := min behind size
  return { before := ((takeBytes? start chars).map String.ofList).getD line
           beforeLength := start
           after := ((dropBytes? stop chars).map String.ofList).getD "" }

/-- A span that is in order and whose offsets are below the last one of 32 bits. -/
structure Span.Fits (s : Span) : Prop where
  ordered : s.start ≤ s.stop
  stop : s.stop < LineMap.offsetModulus - 1

theorem Span.Fits.start {s : Span} (h : s.Fits) : s.start < LineMap.offsetModulus - 1 :=
  Nat.lt_of_le_of_lt h.ordered h.stop

theorem EditedLine.cut?_eq {line : String} {column : Nat} {span : Span} (hspan : span.Fits)
    (hcolumn : 1 ≤ column) (hline : byteLength line.toList < LineMap.offsetModulus - 1) :
    cut? line column span = some (cut line column span.length) := by
  have hstop := hspan.stop
  have hword : LineMap.offsetModulus + LineMap.offsetModulus ≤ wordModulus := by decide
  have hlength : span.length? = some span.length := sub?_of_le hspan.ordered
  have hbehind : add? wordModulus (min (column - 1) (byteLength line.toList)) span.length =
      some (min (column - 1) (byteLength line.toList) + span.length) :=
    add?_of_lt (by rw [Span.length]; omega)
  simp only [cut?, sub?_of_le hcolumn, hlength, hbehind, Option.bind_eq_bind, Option.bind_some]
  rfl

/-! ## Diagnostics -/

namespace Diagnostic

/-- A diagnostic whose labels and whose change, if there is one, are at spans that fit. -/
structure Fits (d : Diagnostic) : Prop where
  labels : ∀ label ∈ d.labels, label.span.Fits
  suggestion : ∀ s, d.help.bind (·.suggestion) = some s → s.span.Fits

/-- The place that a diagnostic is about is that of one of its labels. -/
theorem Fits.primarySpan {d : Diagnostic} (h : d.Fits) {span : Span}
    (hspan : d.primarySpan? = some span) : span.Fits := by
  obtain ⟨label, hlabel, rfl⟩ := Option.map_eq_some_iff.1 hspan
  refine h.labels label ?_
  rw [Option.or_eq_some_iff] at hlabel
  obtain hfound | ⟨-, hhead⟩ := hlabel
  · exact List.mem_of_find?_eq_some hfound
  · exact List.mem_of_head? hhead

end Diagnostic

end ActorFrontend
