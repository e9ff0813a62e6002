import Mathlib.Data.List.SplitBy
import ActorFrontend.Proofs.Checked.Terminal
import ActorFrontend.Proofs.Lines.Edits

/-!
# Marks under a line

The row of marks under a source line, column by column.  Annotations are painted one after the other,
each over those before it, and secondary ones come last: where labels of both styles meet, the mark
of the secondary one is what remains.
-/

namespace ActorFrontend

open Source

/-! ## Labels and columns -/

namespace Label

/-- The line on which a label starts. -/
def line (view : SourceView) (l : Label) : Nat := (view.position l.span.start).line

def firstColumn (view : SourceView) (l : Label) : Nat := (view.position l.span.start).column

/-- The column behind those that a label goes over on the line that it starts on: the one that it
ends in, or the one behind the line if it ends on another. -/
def behindColumn (view : SourceView) (l : Label) : Nat :=
  if (view.position l.span.stop).line = l.line view then (view.position l.span.stop).column
  else byteLength ((view.lineText? (l.line view)).getD "").toList + 1

/-- A label covers the columns that it goes over, and the one that it starts in even if there are
none. -/
def Covers (view : SourceView) (l : Label) (column : Nat) : Prop :=
  column = l.firstColumn view ∨ l.firstColumn view ≤ column ∧ column < l.behindColumn view

instance (view : SourceView) (l : Label) (column : Nat) : Decidable (l.Covers view column) :=
  inferInstanceAs (Decidable (_ ∨ _))

end Label

namespace Terminal

open StyledText

variable {view : SourceView} {labels : List Label} {column : Nat}

/-- The columns that an annotation marks. -/
def Annotation.Covers (a : Annotation) (column : Nat) : Prop :=
  a.startColumn ≤ column ∧ column < a.stopColumn

instance (a : Annotation) (column : Nat) : Decidable (a.Covers column) :=
  inferInstanceAs (Decidable (_ ∧ _))

/-- The annotation of a label marks what the label covers. -/
theorem covers_annotate (view : SourceView) (l : Label) (column : Nat) :
    (annotate view l).2.Covers column ↔ l.Covers view column := by
  show (l.firstColumn view ≤ column ∧
    column < max (l.behindColumn view) (l.firstColumn view + 1)) ↔ _
  rw [Label.Covers]
  omega

/-! ## Painting -/

/-- The mark at a column, where another stood before. -/
def overlay (column : Nat) (c : Char) (a : Annotation) : Char :=
  if a.Covers column then mark a.style else c

theorem getElem?_paint (row : List Char) (a : Annotation) (i : Nat) :
    (paint row a)[i]? = row[i]?.map fun c => overlay (i + 1) c a := by
  rw [paint, List.getElem?_mapIdx]
  rfl

/-- Every place of a row is painted on its own. -/
theorem getElem?_foldl_paint (ordered : List Annotation) (row : List Char) (i : Nat) :
    (ordered.foldl paint row)[i]? = row[i]?.map fun c => ordered.foldl (overlay (i + 1)) c := by
  induction ordered generalizing row with
  | nil => simp
  | cons a ordered ih =>
    rw [List.foldl_cons, ih, getElem?_paint, Option.map_map]
    rfl

/-- What remains at a column of annotations in order: the mark of a secondary one, if any is there,
and else that of a primary one. -/
theorem foldl_overlay {ordered : List Annotation}
    (hordered : ordered.Pairwise fun a b => rank a.style ≤ rank b.style) (column : Nat) (c : Char) :
    ordered.foldl (overlay column) c =
      if ∃ a ∈ ordered, a.style = .secondary ∧ a.Covers column then '-'
      else if ∃ a ∈ ordered, a.style = .primary ∧ a.Covers column then '^'
      else c := by
  induction ordered generalizing c with
  | nil => simp
  | cons a ordered ih =>
    obtain ⟨hfirst, hrest⟩ := List.pairwise_cons.1 hordered
    rw [List.foldl_cons, ih hrest]
    simp only [List.exists_mem_cons_iff]
    by_cases hlater : ∃ b ∈ ordered, b.style = .secondary ∧ b.Covers column
    · -- what is painted later goes over this one, whatever it is
      rw [if_pos hlater, if_pos (.inr hlater)]
    · rw [if_neg hlater]
      cases hstyle : a.style with
      | primary =>
        by_cases hcovers : a.Covers column <;> simp [overlay, hcovers, hstyle, hlater, mark]
      | secondary =>
        -- no primary annotation comes behind a secondary one
        have hnone : ¬ ∃ b ∈ ordered, b.style = .primary ∧ b.Covers column := by
          rintro ⟨b, hb, hprimary, -⟩
          have hle := hfirst b hb
          rw [hstyle, hprimary] at hle
          exact absurd hle (by decide)
        by_cases hcovers : a.Covers column <;> simp [overlay, hcovers, hlater, hnone, hstyle, mark]

/-- In order, primary annotations come first. -/
theorem pairwise_rank_inOrder (annotations : List Annotation) :
    (inOrder annotations).Pairwise fun a b => rank a.style ≤ rank b.style := by
  have hsorted : (inOrder annotations).Pairwise fun a b => decide (rank a.style < rank b.style ∨
      rank a.style = rank b.style ∧ a.startColumn ≤ b.startColumn) = true := by
    refine List.pairwise_mergeSort (fun a b c hab hbc => ?_) (fun a b => ?_) annotations
    · rw [decide_eq_true_eq] at hab hbc ⊢
      omega
    · rw [Bool.or_eq_true, decide_eq_true_eq, decide_eq_true_eq]
      omega
  refine hsorted.imp fun {a b} h => ?_
  rw [decide_eq_true_eq] at h
  omega

theorem mem_inOrder {annotations : List Annotation} {a : Annotation} :
    a ∈ inOrder annotations ↔ a ∈ annotations := List.mem_mergeSort

/-! ## The row -/

/-- The mark of a row at a column; behind the row there is a blank. -/
def markAt (row : List Char) (column : Nat) : Char := row[column - 1]?.getD ' '

theorem length_foldl_paint (ordered : List Annotation) (row : List Char) :
    (ordered.foldl paint row).length = row.length := by
  induction ordered generalizing row with
  | nil => rfl
  | cons a ordered ih => rw [List.foldl_cons, ih, length_paint]

/-- A row reaches up to the last column marked. -/
theorem le_length_markRow (text : String) {ordered : List Annotation} {a : Annotation}
    (ha : a ∈ ordered) (hcovers : a.Covers column) : column ≤ (markRow text ordered).length := by
  have hstop := (le_foldl_max ordered (byteLength text.toList + 1)).2 a ha
  have hlt := hcovers.2
  show column ≤ (ordered.foldl paint (List.replicate _ ' ')).length
  rw [length_foldl_paint, List.length_replicate]
  omega

/-- A place of the row is painted over a blank. -/
theorem getElem?_markRow {text : String} {ordered : List Annotation} {i : Nat}
    (hi : i < (markRow text ordered).length) :
    (markRow text ordered)[i]? = some (ordered.foldl (overlay (i + 1)) ' ') := by
  rw [markRow, length_foldl_paint, List.length_replicate] at hi
  show (ordered.foldl paint (List.replicate _ ' '))[i]? = _
  rw [getElem?_foldl_paint, List.getElem?_replicate, if_pos hi]
  rfl

theorem markAt_markRow (text : String) (annotations : List Annotation) (hpos : 1 ≤ column) :
    markAt (markRow text (inOrder annotations)) column =
      if ∃ a ∈ annotations, a.style = .secondary ∧ a.Covers column then '-'
      else if ∃ a ∈ annotations, a.style = .primary ∧ a.Covers column then '^'
      else ' ' := by
  by_cases hin : column ≤ (markRow text (inOrder annotations)).length
  · have hcolumn : column - 1 + 1 = column := Nat.sub_add_cancel hpos
    rw [markAt, getElem?_markRow (by omega), hcolumn, Option.getD_some,
      foldl_overlay (pairwise_rank_inOrder annotations)]
    simp only [mem_inOrder]
  · -- behind the row nothing is covered
    have hnone (style : LabelStyle) :
        ¬ ∃ a ∈ annotations, a.style = style ∧ a.Covers column := by
      rintro ⟨a, ha, -, hcovers⟩
      exact hin (le_length_markRow text (mem_inOrder.2 ha) hcovers)
    rw [if_neg (hnone _), if_neg (hnone _), markAt, List.getElem?_eq_none (by omega)]
    rfl

/-! ## The row of a line -/

/-- A line with what is noted on it. -/
def annotatedLine (view : SourceView) (labels : List Label) (number : Nat) : AnnotatedLine :=
  { number
    text := (view.lineText? number).getD ""
    annotations := ((labels.map (annotate view)).filter (·.1 == number)).map (·.2) }

/-- The row of marks under a line, with the blanks at its end. -/
def rowUnder (view : SourceView) (labels : List Label) (number : Nat) : List Char :=
  let line := annotatedLine view labels number
  markRow line.text (inOrder line.annotations)

/-- The lines on which labels start are shown. -/
theorem annotatedLine_mem {l : Label} (hl : l ∈ labels) :
    annotatedLine view labels (l.line view) ∈ annotatedLines view labels := by
  have hnote : l.line view ∈ (labels.map (annotate view)).map (·.1) :=
    List.mem_map.2 ⟨_, List.mem_map_of_mem hl, rfl⟩
  have hnumber : l.line view ∈ ((labels.map (annotate view)).map (·.1)).mergeSort.eraseDups :=
    List.mem_eraseDups.2 (List.mem_mergeSort.2 hnote)
  exact List.mem_map_of_mem hnumber

/-- What is noted on a line comes from the labels that start there. -/
theorem exists_annotation_iff (view : SourceView) (labels : List Label) (number : Nat)
    (style : LabelStyle) (column : Nat) :
    (∃ a ∈ (annotatedLine view labels number).annotations, a.style = style ∧ a.Covers column) ↔
      ∃ l ∈ labels, l.line view = number ∧ l.style = style ∧ l.Covers view column := by
  constructor
  · rintro ⟨a, ha, hstyle, hcovers⟩
    obtain ⟨note, hnote, rfl⟩ := List.mem_map.1 ha
    obtain ⟨hnote, hnumber⟩ := List.mem_filter.1 hnote
    obtain ⟨l, hl, rfl⟩ := List.mem_map.1 hnote
    exact ⟨l, hl, eq_of_beq hnumber, hstyle, (covers_annotate view l column).1 hcovers⟩
  · rintro ⟨l, hl, hnumber, hstyle, hcovers⟩
    have hnote : annotate view l ∈ (labels.map (annotate view)).filter (·.1 == number) :=
      List.mem_filter.2 ⟨List.mem_map_of_mem hl, beq_iff_eq.2 hnumber⟩
    exact ⟨_, List.mem_map_of_mem hnote, hstyle, (covers_annotate view l column).2 hcovers⟩

theorem markAt_rowUnder (view : SourceView) (labels : List Label) (number : Nat)
    (hpos : 1 ≤ column) :
    markAt (rowUnder view labels number) column =
      if ∃ l ∈ labels, l.line view = number ∧ l.style = .secondary ∧ l.Covers view column then '-'
      else if ∃ l ∈ labels, l.line view = number ∧ l.style = .primary ∧ l.Covers view column then '^'
      else ' ' := by
  have hrow := markAt_markRow (annotatedLine view labels number).text
    (annotatedLine view labels number).annotations hpos
  simp only [exists_annotation_iff] at hrow
  exact hrow

/-! ## The row in print -/

/-- What is cut off at the end of a row are blanks. -/
theorem exists_trimRow_append (row : List Char) : ∃ n, row = trimRow row ++ List.replicate n ' ' := by
  refine ⟨(row.reverse.takeWhile (· == ' ')).length, ?_⟩
  have hblank : row.reverse.takeWhile (· == ' ') =
      List.replicate (row.reverse.takeWhile (· == ' ')).length ' ' :=
    List.eq_replicate_length.2 fun c hc => by
      simpa using List.all_eq_true.1 List.all_takeWhile c hc
  have hsplit := List.takeWhile_append_dropWhile (p := (· == ' ')) (l := row.reverse)
  rw [← List.reverse_inj, trimRow, List.reverse_append, List.reverse_reverse, List.reverse_replicate,
    ← hblank, hsplit]

theorem markAt_trimRow (row : List Char) (column : Nat) :
    markAt (trimRow row) column = markAt row column := by
  obtain ⟨n, hn⟩ := exists_trimRow_append row
  by_cases hin : column - 1 < (trimRow row).length
  · conv => rhs; rw [hn]
    rw [markAt, markAt, List.getElem?_append_left hin]
  · conv => rhs; rw [hn]
    rw [markAt, markAt, List.getElem?_append_right (by omega), List.getElem?_eq_none (by omega),
      List.getElem?_replicate]
    split <;> rfl

theorem toPlain_styleAs (style : LabelStyle) (text : String) :
    (styleAs style text).toPlain = text := by
  cases style <;> simp [styleAs, toPlain, boldColoured, coloured]

theorem toPlain_styleMarks (run : List Char) : (styleMarks run).toPlain = String.ofList run := by
  unfold styleMarks
  split <;> simp [toPlain, boldColoured, coloured, plain]

/-- Colours do not change a row. -/
theorem toPlain_styleRow (row : List Char) : (styleRow row).toPlain = String.ofList row := by
  have hruns (runs : List (List Char)) :
      StyledText.toPlain (runs.map styleMarks).flatten = String.ofList runs.flatten := by
    induction runs with
    | nil => rfl
    | cons run runs ih =>
      rw [List.map_cons, List.flatten_cons, List.flatten_cons, toPlain_append, toPlain_styleMarks, ih,
        String.ofList_append]
  rw [styleRow, hruns, List.flatten_splitBy]

/-- The row of marks stands first among the rows under a line, and ends in front of a blank or a line
feed. -/
theorem toPlain_markLines (width : Nat) (line : AnnotatedLine) :
    ∃ c rest, (c = ' ' ∨ c = '\n') ∧
      (markLines width line).toPlain = (gutter width).toPlain ++ " " ++
        String.ofList (trimRow (markRow line.text (inOrder line.annotations))) ++
        String.ofList (c :: rest) := by
  have hnewline (rest : List Char) : String.ofList ('\n' :: rest) = "\n" ++ String.ofList rest :=
    String.toList_inj.1 (by simp)
  have hblank (rest : List Char) : String.ofList (' ' :: rest) = " " ++ String.ofList rest :=
    String.toList_inj.1 (by simp)
  have hbelow (below : StyledText) : ∃ c rest, (c = ' ' ∨ c = '\n') ∧
      (gutter width ++ plain " " ++
        styleRow (trimRow (markRow line.text (inOrder line.annotations))) ++ plain "\n" ++
          below).toPlain =
        (gutter width).toPlain ++ " " ++
          String.ofList (trimRow (markRow line.text (inOrder line.annotations))) ++
          String.ofList (c :: rest) := by
    refine ⟨'\n', below.toPlain.toList, .inr rfl, ?_⟩
    simp only [toPlain_append, toPlain_plain, toPlain_styleRow, hnewline, String.ofList_toList,
      String.append_assoc]
  rw [markLines]
  generalize ((inOrder line.annotations).filterMap fun a =>
      a.message.map fun message => (a, message)).mergeSort
        (fun a b => decide (b.1.startColumn ≤ a.1.startColumn)) = remarks
  -- a single remark stands in the row itself, several stand in rows of their own
  rcases remarks with _ | ⟨⟨a, message⟩, _ | ⟨second, more⟩⟩
  case nil =>
    refine ⟨'\n', [], .inr rfl, ?_⟩
    simp only [toPlain_append, toPlain_plain, toPlain_styleRow]
  case cons.nil =>
    refine ⟨' ', (message ++ "\n").toList, .inl rfl, ?_⟩
    simp only [toPlain_append, toPlain_plain, toPlain_styleRow, toPlain_styleAs, hblank,
      String.ofList_toList, String.append_assoc]
  case cons.cons => exact hbelow _

/-- The rows of a line, behind the dots for lines left out. -/
theorem exists_lineRows_cons (width : Nat) (previous : Option Nat) (line : AnnotatedLine)
    (lines : List AnnotatedLine) :
    ∃ gap, lineRows width previous (line :: lines) =
      gap ++ (numbered width line.number ++ plain (line.text ++ "\n") ++ markLines width line) ++
        lineRows width (some line.number) lines := by
  obtain ⟨gap, hrows⟩ : ∃ gap, lineRows width previous (line :: lines) =
      gap ++ numbered width line.number ++ plain (line.text ++ "\n") ++ markLines width line ++
        lineRows width (some line.number) lines := ⟨_, rfl⟩
  exact ⟨gap, by rw [hrows]; simp only [List.append_assoc]⟩

/-- A line is shown with its number, and the rows under it behind. -/
theorem exists_lineRows {lines : List AnnotatedLine} {line : AnnotatedLine} (hline : line ∈ lines)
    (width : Nat) (previous : Option Nat) :
    ∃ front back, lineRows width previous lines =
      front ++ (numbered width line.number ++ plain (line.text ++ "\n") ++ markLines width line) ++
        back := by
  induction lines generalizing previous with
  | nil => cases hline
  | cons first lines ih =>
    obtain ⟨gap, hfirst⟩ := exists_lineRows_cons width previous first lines
    rw [hfirst]
    obtain rfl | hline := List.mem_cons.1 hline
    · exact ⟨gap, _, rfl⟩
    · obtain ⟨front, back, hrows⟩ := ih hline (some first.number)
      rw [hrows]
      refine ⟨gap ++ (numbered width first.number ++ plain (first.text ++ "\n") ++
        markLines width first) ++ front, back, ?_⟩
      simp only [List.append_assoc]

/-- A diagnostic with a label shows the line on which it starts, with the rows under it. -/
theorem exists_format_of_mem (page : Page) {d : Diagnostic} {l : Label} (hl : l ∈ d.labels) :
    ∃ front back,
      let line := annotatedLine page.view d.labels (l.line page.view)
      format page d =
        front ++ (numbered (widthOf page d) line.number ++ plain (line.text ++ "\n") ++
          markLines (widthOf page d) line) ++ back := by
  obtain ⟨span, hspan⟩ : ∃ span, d.primarySpan? = some span := by
    cases hlabels : d.labels with
    | nil =>
      rw [hlabels] at hl
      cases hl
    | cons first more =>
      rw [Diagnostic.primarySpan?, hlabels]
      cases (first :: more).find? (·.style == .primary) <;> exact ⟨_, rfl⟩
  have hwidth : widthOf page d = gutterWidth (annotatedLines page.view d.labels) := by
    rw [widthOf, hspan]
  have hline : annotatedLine page.view d.labels (l.line page.view) ∈
      annotatedLines page.view d.labels := annotatedLine_mem hl
  obtain ⟨front, back, hrows⟩ := exists_lineRows hline (widthOf page d) none
  rw [hwidth] at hrows ⊢
  obtain ⟨before, behind, hformat⟩ : ∃ before behind, format page d = before ++
      lineRows (gutterWidth (annotatedLines page.view d.labels)) none
        (annotatedLines page.view d.labels) ++ behind := by
    rw [format, hspan]
    simp only [← List.append_assoc]
    exact ⟨_, _, List.append_assoc ..⟩
  refine ⟨before ++ front, back ++ behind, ?_⟩
  rw [hformat, hrows]
  simp only [List.append_assoc]

/-- What is printed of a line on which a label starts: its number, its text, and the row of marks,
which ends in front of a blank or a line feed. -/
theorem toPlain_format_of_mem (page : Page) {d : Diagnostic} {l : Label} (hl : l ∈ d.labels) :
    ∃ front c back, (c = ' ' ∨ c = '\n') ∧
      let line := annotatedLine page.view d.labels (l.line page.view)
      (format page d).toPlain =
        front ++ (numbered (widthOf page d) line.number).toPlain ++ line.text ++ "\n" ++
          (gutter (widthOf page d)).toPlain ++ " " ++
          String.ofList (trimRow (rowUnder page.view d.labels line.number)) ++
          String.ofList (c :: back) := by
  obtain ⟨front, back, hformat⟩ := exists_format_of_mem page hl
  obtain ⟨c, rest, hc, hmarks⟩ := toPlain_markLines (widthOf page d)
    (annotatedLine page.view d.labels (l.line page.view))
  refine ⟨front.toPlain, c, rest ++ back.toPlain.toList, hc, ?_⟩
  have hbehind : String.ofList (c :: (rest ++ back.toPlain.toList)) =
      String.ofList (c :: rest) ++ back.toPlain := String.toList_inj.1 (by simp)
  rw [hformat, hbehind]
  simp only [toPlain_append, toPlain_plain, hmarks, String.append_assoc]
  rfl

/-! ## Labels and their marks -/

/-- The row under a line shows every label that starts there: the mark of secondary labels at each
column that one of them covers, that of primary labels where none but those cover, and blanks
elsewhere. -/
theorem marks_show_labels (page : Page) (d : Diagnostic) {l : Label} (hl : l ∈ d.labels) :
    let number := l.line page.view
    let row := rowUnder page.view d.labels number
    let Marked (style : LabelStyle) (column : Nat) : Prop :=
      ∃ l' ∈ d.labels, l'.line page.view = number ∧ l'.style = style ∧ l'.Covers page.view column
    (∀ column, 1 ≤ column →
      (markAt row column = '-' ↔ Marked .secondary column) ∧
      (markAt row column = '^' ↔ Marked .primary column ∧ ¬ Marked .secondary column) ∧
      (markAt row column = ' ' ↔ ∀ style, ¬ Marked style column)) ∧
    ∃ front c back, (c = ' ' ∨ c = '\n') ∧
      (format page d).toPlain =
        front ++ (numbered (widthOf page d) number).toPlain ++
          (page.view.lineText? number).getD "" ++ "\n" ++
          (gutter (widthOf page d)).toPlain ++ " " ++ String.ofList (trimRow row) ++
          String.ofList (c :: back) := by
  intro number row Marked
  refine ⟨fun column hpos => ?_, toPlain_format_of_mem page hl⟩
  have hmark := markAt_rowUnder page.view d.labels number hpos
  have hrow : markAt row column = if Marked .secondary column then '-'
      else if Marked .primary column then '^' else ' ' := hmark
  rw [hrow]
  by_cases hsecondary : Marked .secondary column
  · rw [if_pos hsecondary]
    exact ⟨by simpa using hsecondary, by simp [hsecondary], by simpa using ⟨_, hsecondary⟩⟩
  · rw [if_neg hsecondary]
    by_cases hprimary : Marked .primary column
    · rw [if_pos hprimary]
      exact ⟨by simp [hsecondary], by simp [hprimary, hsecondary], by simpa using ⟨_, hprimary⟩⟩
    · have hnone (style : LabelStyle) : ¬ Marked style column := by
        cases style with
        | primary => exact hprimary
        | secondary => exact hsecondary
      rw [if_neg hprimary]
      exact ⟨by simp [hsecondary], by simp [hprimary], by simp [hnone]⟩

/-- A primary label on `b` and a secondary one on the whole of `abc`, in a text that goes on with
another line. -/
theorem marks_show_labels_nested :
    let page := Page.ofSource "abc\nd" none
    let primary : Label := ⟨⟨1, 2⟩, .primary, none⟩
    let secondary : Label := ⟨⟨0, 3⟩, .secondary, none⟩
    let d := ((Diagnostic.ofMessage .error "m").withLabel primary).withLabel secondary
    primary ∈ d.labels ∧ primary.line page.view = 1 ∧
      markAt (rowUnder page.view d.labels 1) 1 = '-' ∧
      markAt (rowUnder page.view d.labels 1) 4 = ' ' := by
  intro page primary secondary d
  have hmem : primary ∈ d.labels := by decide
  have hshown := (marks_show_labels page d hmem).1
  refine ⟨hmem, by decide, ((hshown 1 (by decide)).1).2 ?_, ((hshown 4 (by decide)).2.2).2 ?_⟩
  · exact ⟨secondary, by decide, by decide, rfl, by decide⟩
  · intro style
    cases style <;> decide

/-- A primary label is not marked at all where a secondary one covers it. -/
theorem not_marks_show_primary :
    let view := SourceView.ofSource "abc"
    let labels : List Label := [⟨⟨1, 2⟩, .primary, none⟩, ⟨⟨0, 3⟩, .secondary, none⟩]
    rowUnder view labels 1 = ['-', '-', '-', ' '] ∧
      ¬ ∀ column, 1 ≤ column →
        (markAt (rowUnder view labels 1) column = '^' ↔
          ∃ l ∈ labels, l.line view = 1 ∧ l.style = .primary ∧ l.Covers view column) := by
  intro view labels
  let annotations : List Annotation := [⟨2, 3, .primary, none⟩, ⟨1, 4, .secondary, none⟩]
  have hline : annotatedLine view labels 1 = ⟨1, "abc", annotations⟩ := by decide
  have hordered : inOrder annotations = annotations := List.mergeSort_of_pairwise (by decide)
  have hrow : rowUnder view labels 1 = ['-', '-', '-', ' '] := by
    rw [rowUnder, hline]
    show markRow "abc" (inOrder annotations) = _
    rw [hordered]
    decide
  refine ⟨hrow, fun h => ?_⟩
  have hmarked := (h 2 (by decide)).2 ⟨⟨⟨1, 2⟩, .primary, none⟩, by decide, by decide, rfl, by decide⟩
  rw [hrow] at hmarked
  exact absurd hmarked (by decide)

end Terminal

end ActorFrontend
