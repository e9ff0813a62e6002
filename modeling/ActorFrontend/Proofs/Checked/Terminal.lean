import ActorFrontend.Diagnostic.Terminal
import ActorFrontend.Proofs.Checked.Positions

/-!
# Checked rendering

A diagnostic is shown once more, with checked arithmetic: columns are taken apart and moved by one in
words, and the marks of an annotation are written over a slice of the row of marks, which has no
answer where the row does not have that slice.  Every diagnostic whose spans fit is shown, wherever
they lie.
-/

namespace ActorFrontend.Terminal

open Checked Source StyledText

/-! ## Rendering with checks -/

/-- The line of a label and its annotation there. -/
def annotate? (view : SourceView) (label : Label) : Option (Nat × Annotation) := do
  let first ← view.lines.position? label.span.start
  let last ← view.lines.position? label.span.stop
  let text := (view.lineText? first.line).getD ""
  let stop ←
    if last.line = first.line then some last.column
    else add? wordModulus (byteLength text.toList) 1
  let least ← add? wordModulus first.column 1
  return (first.line,
    { startColumn := first.column
      stopColumn := max stop least
      style := label.style
      message := label.message })

/-- The lines on which labels start, in order, with their annotations. -/
def annotatedLines? (view : SourceView) (labels : List Label) : Option (List AnnotatedLine) := do
  let notes ← labels.mapM (annotate? view)
  let numbers := (notes.map (·.1)).mergeSort.eraseDups
  return numbers.map fun number =>
    { number
      text := (view.lineText? number).getD ""
      annotations := (notes.filter (·.1 == number)).map (·.2) }

/-- Writes the mark of an annotation over the slice of a row that it covers. -/
def paint? (row : List Char) (a : Annotation) : Option (List Char) := do
  let start ← sub? a.startColumn 1
  let stop ← sub? a.stopColumn 1
  if start ≤ stop ∧ stop ≤ row.length then
    some (row.take start ++ List.replicate (stop - start) (mark a.style) ++ row.drop stop)
  else none

/-- The row of marks under a line. -/
def markRow? (text : String) (ordered : List Annotation) : Option (List Char) := do
  let size ← add? wordModulus (byteLength text.toList) 1
  let width := ordered.foldl (fun width a => max width a.stopColumn) size
  ordered.foldlM paint? (List.replicate width ' ')

/-- A remark under the place where its label starts. -/
def remarkLine? (width : Nat) (remark : Annotation × String) : Option StyledText := do
  let indent ← sub? remark.1.startColumn 1
  return gutter width ++ plain (" " ++ blanks indent) ++ styleAs remark.1.style "|" ++
    plain " " ++ styleAs remark.1.style remark.2 ++ plain "\n"

/-- The rows under a line. -/
def markLines? (width : Nat) (line : AnnotatedLine) : Option StyledText := do
  let ordered := inOrder line.annotations
  let marks ← markRow? line.text ordered
  let row := gutter width ++ plain " " ++ styleRow (trimRow marks)
  let remarks := ordered.filterMap fun a => a.message.map fun message => (a, message)
  match remarks.mergeSort fun a b => decide (b.1.startColumn ≤ a.1.startColumn) with
  | [] => some (row ++ plain "\n")
  | [(a, message)] => some (row ++ plain " " ++ styleAs a.style message ++ plain "\n")
  | several =>
      (several.mapM (remarkLine? width)).map fun lines => row ++ plain "\n" ++ lines.flatten

/-- Whether lines are left out between the line shown before and the next one. -/
def gap? (previous : Option Nat) (number : Nat) : Option Bool :=
  match previous with
  | some previous => (add? wordModulus previous 1).map fun next => decide (next < number)
  | none => some false

/-- Source lines with their marks. -/
def lineRows? (width : Nat) : Option Nat → List AnnotatedLine → Option StyledText
  | _, [] => some []
  | previous, line :: lines => do
      let gap ← gap? previous line.number
      let marks ← markLines? width line
      let rest ← lineRows? width (some line.number) lines
      return (if gap then plain (blanks width ++ " ") ++ coloured .blue "..." ++ plain "\n" else []) ++
        numbered width line.number ++ plain (line.text ++ "\n") ++ marks ++ rest

/-- The line that a change leads to, with the new text marked. -/
def changedLine? (view : SourceView) (width : Nat) (s : Suggestion) : Option StyledText := do
  let place ← view.lines.position? s.span.start
  match view.lineText? place.line with
  | none => some []
  | some text =>
      let edit ← EditedLine.cut? text place.column s.span
      let marks := List.replicate (max (byteLength s.replacement.toList) 1) '~'
      return gutterLine width ++
        numbered width place.line ++ plain edit.before ++ coloured .green s.replacement ++
        plain (edit.after ++ "\n") ++
        gutter width ++ plain (" " ++ blanks edit.beforeLength) ++
        coloured .green (String.ofList marks) ++ plain "\n"

def helpLines? (view : SourceView) (width : Nat) (help : Help) : Option StyledText :=
  (match help.suggestion with
    | none => some []
    | some s => changedLine? view width s).map (footerLine width "help" help.message ++ ·)

def footer? (view : SourceView) (width : Nat) (d : Diagnostic) : Option StyledText :=
  (match d.help with
    | none => some []
    | some help => helpLines? view width help).map (d.notes.flatMap (footerLine width "note") ++ ·)

/-- Where the diagnostic points to: file, line and column. -/
def locationLine? (page : Page) (offset : Nat) : Option StyledText := do
  let place ← page.view.lines.position? offset
  return plain "  " ++ coloured .blue "-->" ++
    plain (" " ++ page.fileName) ++ plain (":" ++ toString place.line) ++
    plain (":" ++ toString place.column ++ "\n")

/-- A diagnostic as it is shown.  The lines are collected before anything else. -/
def format? (page : Page) (d : Diagnostic) : Option StyledText := do
  let lines ← annotatedLines? page.view d.labels
  match d.primarySpan? with
  | none => (footer? page.view 2 d).map (header d ++ ·)
  | some span =>
      let width := gutterWidth lines
      let location ← locationLine? page span.start
      let rows ← lineRows? width none lines
      let foot ← footer? page.view width d
      return header d ++ (location ++ gutterLine width ++ rows ++
        (if d.notes.isEmpty && d.help.isNone then [] else gutterLine width) ++ foot)

/-! ## Marks -/

/-- An annotation that marks a column at least. -/
structure Annotation.Marks (a : Annotation) : Prop where
  pos : 1 ≤ a.startColumn
  lt : a.startColumn < a.stopColumn

/-- What a slice of a row is overwritten with, place by place. -/
theorem take_append_replicate_append_drop {row : List Char} {start stop : Nat} {c : Char}
    (hstart : start ≤ stop) (hstop : stop ≤ row.length) :
    row.take start ++ List.replicate (stop - start) c ++ row.drop stop =
      row.mapIdx fun i d => if start ≤ i ∧ i < stop then c else d := by
  apply List.ext_getElem?
  intro i
  rw [List.getElem?_mapIdx]
  by_cases hbefore : i < start
  · have hlt : i < (row.take start ++ List.replicate (stop - start) c).length := by simp; omega
    rw [List.getElem?_append_left hlt, List.getElem?_append_left (by simp; omega),
      List.getElem?_take_of_lt hbefore]
    cases row[i]? with
    | none => rfl
    | some d => rw [Option.map_some, if_neg (by omega)]
  · by_cases hamid : i < stop
    · have hlt : i < row.length := by omega
      rw [List.getElem?_append_left (by simp; omega), List.getElem?_append_right (by simp; omega),
        List.getElem?_replicate, if_pos (by simp; omega), List.getElem?_eq_getElem hlt,
        Option.map_some, if_pos ⟨by omega, hamid⟩]
    · have hlength : (row.take start ++ List.replicate (stop - start) c).length = stop := by
        simp
        omega
      have hindex : stop + (i - stop) = i := by omega
      rw [List.getElem?_append_right (by omega), hlength, List.getElem?_drop, hindex]
      cases row[i]? with
      | none => rfl
      | some d => rw [Option.map_some, if_neg (by omega)]

/-- An annotation is painted on every row that reaches up to its end. -/
theorem paint?_eq {row : List Char} {a : Annotation} (h : a.Marks)
    (hrow : a.stopColumn ≤ row.length + 1) : paint? row a = some (paint row a) := by
  have hpos := h.pos
  have hlt := h.lt
  have hbounds : a.startColumn - 1 ≤ a.stopColumn - 1 ∧ a.stopColumn - 1 ≤ row.length := by omega
  have hcolumns : (fun (i : Nat) (d : Char) =>
        if a.startColumn - 1 ≤ i ∧ i < a.stopColumn - 1 then mark a.style else d) =
      fun i d => if a.startColumn ≤ i + 1 ∧ i + 1 < a.stopColumn then mark a.style else d := by
    funext i d
    have hiff : (a.startColumn - 1 ≤ i ∧ i < a.stopColumn - 1) ↔
        (a.startColumn ≤ i + 1 ∧ i + 1 < a.stopColumn) := by omega
    simp only [hiff]
  simp only [paint?, sub?_of_le hpos, sub?_of_le (Nat.le_of_lt (Nat.lt_of_le_of_lt hpos hlt)),
    Option.bind_eq_bind, Option.bind_some, if_pos hbounds,
    take_append_replicate_append_drop hbounds.1 hbounds.2, hcolumns]
  rfl

theorem length_paint (row : List Char) (a : Annotation) : (paint row a).length = row.length :=
  List.length_mapIdx

/-- One annotation after the other is painted on a row that reaches up to the ends of all. -/
theorem foldlM_paint? {ordered : List Annotation} {row : List Char}
    (h : ∀ a ∈ ordered, a.Marks ∧ a.stopColumn ≤ row.length + 1) :
    ordered.foldlM paint? row = some (ordered.foldl paint row) := by
  induction ordered generalizing row with
  | nil => rfl
  | cons a ordered ih =>
    obtain ⟨⟨hmarks, hrow⟩, hrest⟩ := List.forall_mem_cons.1 h
    rw [List.foldlM_cons, paint?_eq hmarks hrow]
    exact ih fun b hb => by rw [length_paint]; exact hrest b hb

/-- The row is as wide as the line and as every annotation on it. -/
theorem le_foldl_max (ordered : List Annotation) (size : Nat) :
    size ≤ ordered.foldl (fun width a => max width a.stopColumn) size ∧
      ∀ a ∈ ordered, a.stopColumn ≤ ordered.foldl (fun width a => max width a.stopColumn) size := by
  induction ordered generalizing size with
  | nil => exact ⟨Nat.le_refl _, nofun⟩
  | cons a ordered ih =>
    obtain ⟨hsize, hrest⟩ := ih (max size a.stopColumn)
    rw [List.foldl_cons]
    refine ⟨by omega, fun b hb => ?_⟩
    obtain rfl | hb := List.mem_cons.1 hb
    · omega
    · exact hrest b hb

theorem markRow?_eq {text : String} {ordered : List Annotation}
    (htext : byteLength text.toList + 1 < wordModulus) (h : ∀ a ∈ ordered, a.Marks) :
    markRow? text ordered = some (markRow text ordered) := by
  obtain ⟨-, hwidth⟩ := le_foldl_max ordered (byteLength text.toList + 1)
  have hrow : ∀ a ∈ ordered, a.Marks ∧ a.stopColumn ≤ (List.replicate
      (ordered.foldl (fun width a => max width a.stopColumn) (byteLength text.toList + 1))
      ' ').length + 1 := by
    intro a ha
    have hle := hwidth a ha
    rw [List.length_replicate]
    exact ⟨h a ha, by omega⟩
  simp only [markRow?, add?_of_lt htext, Option.bind_eq_bind, Option.bind_some]
  exact foldlM_paint? hrow

/-! ## Lines -/

/-- A line whose number and length are below the last word, and whose annotations mark columns. -/
structure AnnotatedLine.Fits (line : AnnotatedLine) : Prop where
  number : line.number + 1 < wordModulus
  text : byteLength line.text.toList + 1 < wordModulus
  annotations : ∀ a ∈ line.annotations, a.Marks

theorem remarkLine?_eq (width : Nat) {remark : Annotation × String} (h : remark.1.Marks) :
    remarkLine? width remark = some (gutter width ++
      plain (" " ++ blanks (remark.1.startColumn - 1)) ++ styleAs remark.1.style "|" ++
      plain " " ++ styleAs remark.1.style remark.2 ++ plain "\n") := by
  rw [remarkLine?, sub?_of_le h.pos]
  rfl

theorem markLines?_eq (width : Nat) {line : AnnotatedLine} (h : line.Fits) :
    markLines? width line = some (markLines width line) := by
  have hordered : ∀ a ∈ inOrder line.annotations, a.Marks :=
    fun a ha => h.annotations a (List.mem_mergeSort.1 ha)
  have hremarks : ∀ remark ∈ ((inOrder line.annotations).filterMap fun a =>
      a.message.map fun message => (a, message)).mergeSort
        (fun a b => decide (b.1.startColumn ≤ a.1.startColumn)), remark.1.Marks := by
    intro remark hremark
    obtain ⟨a, ha, hmessage⟩ := List.mem_filterMap.1 (List.mem_mergeSort.1 hremark)
    obtain ⟨message, -, rfl⟩ := Option.map_eq_some_iff.1 hmessage
    exact hordered a ha
  rw [markLines?, markLines, markRow?_eq h.text hordered]
  simp only [Option.bind_eq_bind, Option.bind_some]
  generalize ((inOrder line.annotations).filterMap fun a =>
      a.message.map fun message => (a, message)).mergeSort
        (fun a b => decide (b.1.startColumn ≤ a.1.startColumn)) = remarks at hremarks
  rcases remarks with _ | ⟨first, _ | ⟨second, more⟩⟩
  case nil => rfl
  case cons.nil => rfl
  case cons.cons =>
    have hlines := mapM_eq_map fun remark hremark =>
      remarkLine?_eq width (hremarks remark hremark)
    simp only [hlines, Option.map_some, List.flatMap_def]

theorem lineRows?_eq (width : Nat) {lines : List AnnotatedLine} {previous : Option Nat}
    (hprevious : ∀ number ∈ previous, number + 1 < wordModulus) (h : ∀ line ∈ lines, line.Fits) :
    lineRows? width previous lines = some (lineRows width previous lines) := by
  induction lines generalizing previous with
  | nil => rfl
  | cons line lines ih =>
    obtain ⟨hline, hlines⟩ := List.forall_mem_cons.1 h
    have hnext : ∀ number ∈ some line.number, number + 1 < wordModulus := by
      rintro _ ⟨⟩
      exact hline.number
    rw [lineRows?, markLines?_eq width hline, ih hnext hlines]
    cases previous with
    | none => rfl
    | some previous =>
      rw [gap?, add?_of_lt (hprevious previous rfl)]
      rfl

/-- A label marks a column at least. -/
theorem annotate_marks (view : SourceView) (label : Label) : (annotate view label).2.Marks :=
  ⟨SourceView.column_pos view _, Nat.lt_of_lt_of_le (Nat.lt_succ_self _) (Nat.le_max_right ..)⟩

section

variable {source : String} (hsize : byteLength source.toList < LineMap.offsetModulus - 1)

include hsize

theorem annotate?_eq {label : Label} (h : label.span.Fits) :
    annotate? (.ofSource source) label = some (annotate (.ofSource source) label) := by
  have hword : LineMap.offsetModulus + 1 < wordModulus := by decide
  have htext := SourceView.byteLength_lineText_le (.ofSource source)
    ((SourceView.ofSource source).position label.span.start).line
  have hcolumn := SourceView.column_le (.ofSource source) label.span.start
  have hleast : add? wordModulus ((SourceView.ofSource source).position label.span.start).column 1 =
      some (((SourceView.ofSource source).position label.span.start).column + 1) :=
    add?_of_lt (by omega)
  have hlength : byteLength (((SourceView.ofSource source).lineText?
      ((SourceView.ofSource source).position label.span.start).line).getD "").toList + 1 <
        wordModulus := by
    have hsource : byteLength (SourceView.ofSource source).source.toList =
        byteLength source.toList := rfl
    omega
  simp only [annotate?, SourceView.position?_ofSource hsize h.start,
    SourceView.position?_ofSource hsize h.stop, Option.bind_eq_bind, Option.bind_some, hleast,
    add?_of_lt hlength]
  by_cases hline : ((SourceView.ofSource source).position label.span.stop).line =
      ((SourceView.ofSource source).position label.span.start).line
  · simp only [if_pos hline, annotate]
    rfl
  · simp only [if_neg hline, annotate]
    rfl

theorem annotatedLines?_eq {labels : List Label} (h : ∀ label ∈ labels, label.span.Fits) :
    annotatedLines? (.ofSource source) labels =
      some (annotatedLines (.ofSource source) labels) := by
  have hnotes : labels.mapM (annotate? (.ofSource source)) =
      some (labels.map (annotate (.ofSource source))) :=
    mapM_eq_map fun label hlabel => annotate?_eq hsize (h label hlabel)
  rw [annotatedLines?, hnotes]
  rfl

/-- Every line shown is one of the source, or an empty one behind it. -/
theorem fits_annotatedLines (labels : List Label) :
    ∀ line ∈ annotatedLines (.ofSource source) labels, line.Fits := by
  have hword : LineMap.offsetModulus + 1 < wordModulus := by decide
  intro line hline
  obtain ⟨number, hnumber, rfl⟩ := List.mem_map.1 hline
  refine ⟨?_, ?_, fun a ha => ?_⟩
  · -- the number is that of a line on which a label starts
    rw [List.mem_eraseDups, List.mem_mergeSort, List.map_map] at hnumber
    obtain ⟨label, -, rfl⟩ := List.mem_map.1 hnumber
    have hle := LineMap.position_line_le (LineMap.ofSource source) label.span.start
    have hcount := LineMap.lineCount_ofSource_le source
    show ((LineMap.ofSource source).position label.span.start).line + 1 < wordModulus
    omega
  · have htext := SourceView.byteLength_lineText_le (.ofSource source) number
    have hsource : byteLength (SourceView.ofSource source).source.toList =
        byteLength source.toList := rfl
    show byteLength (((SourceView.ofSource source).lineText? number).getD "").toList + 1 < _
    omega
  · obtain ⟨note, hnote, rfl⟩ := List.mem_map.1 ha
    obtain ⟨label, -, rfl⟩ := List.mem_map.1 (List.mem_of_mem_filter hnote)
    exact annotate_marks _ label

/-! ## Whole diagnostics -/

theorem changedLine?_eq (width : Nat) {s : Suggestion} (h : s.span.Fits) :
    changedLine? (.ofSource source) width s = some (changedLine (.ofSource source) width s) := by
  rw [changedLine?, changedLine, SourceView.position?_ofSource hsize h.start]
  simp only [Option.bind_eq_bind, Option.bind_some]
  cases htext : (SourceView.ofSource source).lineText?
      ((SourceView.ofSource source).position s.span.start).line with
  | none => rfl
  | some text =>
    have hline : byteLength text.toList < LineMap.offsetModulus - 1 :=
      Nat.lt_of_le_of_lt (SourceView.byteLength_lineText?_le htext) hsize
    have hcut := EditedLine.cut?_eq h (SourceView.column_pos (.ofSource source) s.span.start) hline
    simp only [hcut, Option.bind_some]
    rfl

theorem footer?_eq (width : Nat) {d : Diagnostic} (h : d.Fits) :
    footer? (.ofSource source) width d = some (footer (.ofSource source) width d) := by
  have hsuggestion := h.suggestion
  rw [footer?, footer]
  cases hhelp : d.help with
  | none => rfl
  | some help =>
    rw [hhelp] at hsuggestion
    have hlines : helpLines? (.ofSource source) width help =
        some (helpLines (.ofSource source) width help) := by
      rw [helpLines?, helpLines.eq_def]
      cases hchange : help.suggestion with
      | none => rfl
      | some s =>
        show (changedLine? _ _ _).map _ = _
        rw [changedLine?_eq hsize width (hsuggestion s hchange)]
        rfl
    show (helpLines? _ _ _).map _ = _
    rw [hlines]
    rfl

/-- A diagnostic whose spans fit is shown. -/
theorem format?_eq {d : Diagnostic} (h : d.Fits) (file : Option String) :
    format? (.ofSource source file) d = some (format (.ofSource source file) d) := by
  have hview : (Page.ofSource source file).view = .ofSource source := rfl
  have hnone : ∀ number ∈ (none : Option Nat), number + 1 < wordModulus := nofun
  rw [format?, format, hview, annotatedLines?_eq hsize h.labels]
  simp only [Option.bind_eq_bind, Option.bind_some]
  cases hspan : d.primarySpan? with
  | none =>
    show (footer? _ _ _).map _ = _
    rw [footer?_eq hsize 2 h]
    rfl
  | some span =>
    have hplace := SourceView.position?_ofSource hsize (h.primarySpan hspan).start
    simp only [locationLine?, hview, hplace,
      lineRows?_eq _ hnone (fits_annotatedLines hsize d.labels), footer?_eq hsize _ h,
      Option.bind_eq_bind, Option.bind_some]
    rfl

end

end ActorFrontend.Terminal
