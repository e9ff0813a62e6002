import ActorFrontend.Proofs.Rendering.Marks

/-!
# Marks and the text above them

Where the marks of a label stand below the line that they are about.  The row has one place for every
byte of the line, and so the marks stand under the labelled text if every character up to its end
takes one byte only.
-/

namespace ActorFrontend

open Source

namespace Source

theorem length_le_byteLength (cs : List Char) : cs.length ≤ byteLength cs := by
  induction cs with
  | nil => exact Nat.le_refl 0
  | cons c cs ih =>
    have hpos := c.utf8Size_pos
    rw [List.length_cons, byteLength_cons]
    omega

/-- A text has as many bytes as characters if all of these take one byte. -/
theorem byteLength_eq_length_iff {cs : List Char} :
    byteLength cs = cs.length ↔ ∀ c ∈ cs, c.utf8Size = 1 := by
  induction cs with
  | nil => simp
  | cons c cs ih =>
    have hpos := c.utf8Size_pos
    have hle := length_le_byteLength cs
    rw [List.forall_mem_cons, ← ih, byteLength_cons, List.length_cons]
    omega

end Source

namespace Terminal

open StyledText

/-! ## One annotation -/

/-- The blanks up to a column and so many marks. -/
def marksFrom (before count : Nat) (style : LabelStyle) : List Char :=
  List.replicate before ' ' ++ List.replicate count (mark style)

theorem mark_ne_blank (style : LabelStyle) : mark style ≠ ' ' := by cases style <;> decide

/-- The blanks at the end of a row are cut off, and nothing else. -/
theorem trimRow_append_blanks {row : List Char} {c : Char} (hc : c ≠ ' ') (n : Nat) :
    trimRow (row ++ [c] ++ List.replicate n ' ') = row ++ [c] := by
  have hblank : ∀ d ∈ List.replicate n ' ', (d == ' ') = true :=
    fun d hd => beq_iff_eq.2 (List.eq_of_mem_replicate hd)
  rw [trimRow, List.reverse_append, List.reverse_replicate, List.dropWhile_append_of_pos hblank,
    List.reverse_append, List.reverse_singleton, List.singleton_append, List.dropWhile_cons_of_neg,
    List.reverse_cons, List.reverse_reverse]
  simpa using hc

theorem trimRow_marksFrom (before : Nat) {count : Nat} (hcount : 0 < count) (style : LabelStyle)
    (n : Nat) :
    trimRow (marksFrom before count style ++ List.replicate n ' ') = marksFrom before count style := by
  obtain ⟨count, rfl⟩ := Nat.exists_eq_add_one.2 hcount
  rw [marksFrom, List.replicate_succ', ← List.append_assoc]
  exact trimRow_append_blanks (mark_ne_blank style) n

/-- The row of a single annotation: blanks up to it, its marks, and blanks behind. -/
theorem trimRow_markRow_singleton (text : String) {a : Annotation} (h : a.Marks) :
    trimRow (markRow text [a]) =
      marksFrom (a.startColumn - 1) (a.stopColumn - a.startColumn) a.style := by
  have hpos := h.pos
  have hlt := h.lt
  have hwide : a.stopColumn ≤ max (byteLength text.toList + 1) a.stopColumn := Nat.le_max_right ..
  generalize hwidth : max (byteLength text.toList + 1) a.stopColumn = width at hwide
  have hrow : paint (List.replicate width ' ') a =
      marksFrom (a.startColumn - 1) (a.stopColumn - a.startColumn) a.style ++
        List.replicate (width - (a.stopColumn - 1)) ' ' := by
    have hroom : a.stopColumn ≤ (List.replicate width ' ').length + 1 := by
      rw [List.length_replicate]
      omega
    have hpainted := paint?_eq h hroom
    have hcount : a.stopColumn - 1 - (a.startColumn - 1) = a.stopColumn - a.startColumn := by omega
    have hbounds : a.startColumn - 1 ≤ a.stopColumn - 1 ∧
        a.stopColumn - 1 ≤ (List.replicate width ' ').length :=
      ⟨by omega, Nat.sub_le_iff_le_add.2 hroom⟩
    rw [paint?, Checked.sub?_of_le hpos, Checked.sub?_of_le (by omega)] at hpainted
    simp only [Option.bind_eq_bind, Option.bind_some, if_pos hbounds, Option.some.injEq] at hpainted
    rw [← hpainted, List.take_replicate, List.drop_replicate, hcount, Nat.min_eq_left (by omega),
      marksFrom]
  show trimRow (paint (List.replicate (max (byteLength text.toList + 1) a.stopColumn) ' ') a) = _
  rw [hwidth, hrow, trimRow_marksFrom _ (by omega)]

/-! ## What stands where in a row -/

section

variable (before count : Nat) (style : LabelStyle)

theorem length_takeWhile_marksFrom :
    ((marksFrom before (count + 1) style).takeWhile (· != mark style)).length = before := by
  have hblank : ∀ c ∈ List.replicate before ' ', (c != mark style) = true := by
    intro c hc
    rw [List.eq_of_mem_replicate hc]
    exact bne_iff_ne.2 (mark_ne_blank style).symm
  rw [marksFrom, List.takeWhile_append_of_pos hblank, List.replicate_succ,
    List.takeWhile_cons_of_neg (by simp), List.append_nil, List.length_replicate]

theorem count_marksFrom : (marksFrom before count style).count (mark style) = count := by
  have hblank : (mark style == ' ') = false := beq_eq_false_iff_ne.2 (mark_ne_blank style)
  rw [marksFrom, List.count_append, List.count_replicate_self, List.count_replicate]
  simp [(mark_ne_blank style).symm]

end

/-! ## The gutter -/

theorem length_blanks (n : Nat) : (blanks n).length = n := by simp [blanks]

theorem length_padLeft {width : Nat} {text : String} (h : text.length ≤ width) :
    (padLeft width text).length = width := by
  rw [padLeft, String.length_append, length_blanks]
  omega

theorem toPlain_boldColoured (colour : Colour) (text : String) :
    (boldColoured colour text).toPlain = text := by
  simp [toPlain, boldColoured]

/-- A line and the rows under it begin at the same place. -/
theorem length_gutter_eq {width number : Nat} (h : (toString number).length ≤ width) :
    ((gutter width).toPlain ++ " ").length = (numbered width number).toPlain.length := by
  simp only [gutter, numbered, toPlain_append, toPlain_plain, toPlain_coloured, toPlain_boldColoured,
    String.length_append, length_blanks, length_padLeft h]

/-! ## A label within a line -/

section

variable {above first mid last below : List Char}
  (hline : Amid above (first ++ (mid ++ last)) below)
  (hsize : byteLength (above ++ first ++ mid) < LineMap.offsetModulus)

include hline hsize

theorem position_start :
    (SourceView.ofSource (String.ofList (above ++ (first ++ (mid ++ last)) ++ below))).position
      (byteLength (above ++ first)) = ⟨above.count '\n' + 1, byteLength first + 1⟩ := by
  refine hline.position ?_
  rw [byteLength_append] at hsize
  omega

theorem position_stop :
    (SourceView.ofSource (String.ofList (above ++ (first ++ (mid ++ last)) ++ below))).position
      (byteLength (above ++ first ++ mid)) =
        ⟨above.count '\n' + 1, byteLength first + byteLength mid + 1⟩ := by
  -- the place behind the label is one of the line too, with the label before it
  have hparts : first ++ (mid ++ last) = first ++ mid ++ last := (List.append_assoc ..).symm
  have hfront : above ++ first ++ mid = above ++ (first ++ mid) := List.append_assoc ..
  rw [hparts] at hline ⊢
  rw [hfront] at hsize ⊢
  rw [← byteLength_append]
  exact hline.position hsize

/-- A label within a line marks from its first byte to its last one. -/
theorem annotate_within (hmid : mid ≠ []) (style : LabelStyle) (message : Option String) :
    annotate (.ofSource (String.ofList (above ++ (first ++ (mid ++ last)) ++ below)))
        ⟨⟨byteLength (above ++ first), byteLength (above ++ first ++ mid)⟩, style, message⟩ =
      (above.count '\n' + 1,
        ⟨byteLength first + 1, byteLength first + byteLength mid + 1, style, message⟩) := by
  have hpos := byteLength_pos hmid
  have hstop : max (byteLength first + byteLength mid + 1) (byteLength first + 1 + 1) =
      byteLength first + byteLength mid + 1 := by omega
  simp only [annotate, position_start hline hsize, position_stop hline hsize, if_pos, hstop]

end

/-- The one line of a single label, and what is noted on it. -/
theorem annotatedLine_singleton (view : SourceView) (l : Label) :
    annotatedLine view [l] (l.line view) =
      ⟨l.line view, (view.lineText? (l.line view)).getD "", [(annotate view l).2]⟩ := by
  have hsame : ((annotate view l).1 == l.line view) = true := beq_iff_eq.2 rfl
  rw [annotatedLine, List.map_singleton, List.filter_singleton, hsame]
  rfl

theorem annotatedLines_singleton (view : SourceView) (l : Label) :
    annotatedLines view [l] = [annotatedLine view [l] (l.line view)] := by
  have hnumbers : (([l].map (annotate view)).map (·.1)).mergeSort.eraseDups = [l.line view] := by
    rw [List.map_singleton, List.map_singleton, List.mergeSort_singleton]
    rfl
  show ((([l].map (annotate view)).map (·.1)).mergeSort.eraseDups).map (annotatedLine view [l]) = _
  rw [hnumbers, List.map_singleton]

/-- The gutter is wide enough for the number of a single line. -/
theorem length_number_le_widthOf (page : Page) {d : Diagnostic} {l : Label} (hd : d.labels = [l]) :
    (toString (l.line page.view)).length ≤ widthOf page d := by
  have hspan : d.primarySpan? = some l.span := by
    rw [Diagnostic.primarySpan?, hd]
    cases hstyle : l.style == .primary <;> simp [hstyle]
  rw [widthOf, hspan]
  show _ ≤ gutterWidth (annotatedLines page.view d.labels)
  rw [hd, annotatedLines_singleton]
  exact Nat.le_max_left ..

/-- The row of marks under the line of a single label. -/
theorem trimRow_rowUnder_within {above first mid last below : List Char}
    (hline : Amid above (first ++ (mid ++ last)) below) (hmid : mid ≠ [])
    (hsize : byteLength (above ++ first ++ mid) < LineMap.offsetModulus)
    (style : LabelStyle) (message : Option String) :
    trimRow (rowUnder (.ofSource (String.ofList (above ++ (first ++ (mid ++ last)) ++ below)))
        [⟨⟨byteLength (above ++ first), byteLength (above ++ first ++ mid)⟩, style, message⟩]
        (above.count '\n' + 1)) =
      marksFrom (byteLength first) (byteLength mid) style := by
  have hnote := annotate_within hline hsize hmid style message
  generalize (⟨⟨byteLength (above ++ first), byteLength (above ++ first ++ mid)⟩, style,
    message⟩ : Label) = l at hnote ⊢
  generalize SourceView.ofSource (String.ofList (above ++ (first ++ (mid ++ last)) ++ below)) = view
    at hnote ⊢
  have hnumber : l.line view = above.count '\n' + 1 := congrArg (·.1) hnote
  have hmarks : (annotate view l).2.Marks := annotate_marks view l
  rw [hnote] at hmarks
  have hcolumns : byteLength first + byteLength mid + 1 - (byteLength first + 1) = byteLength mid := by
    omega
  rw [rowUnder, ← hnumber, annotatedLine_singleton, hnote]
  show trimRow (markRow _ (inOrder [_])) = _
  rw [inOrder, List.mergeSort_singleton, trimRow_markRow_singleton _ hmarks, hcolumns,
    Nat.add_sub_cancel]

/-! ## Bytes and characters -/

/-- The marks of a single label within a line: as many blanks as there are bytes on the line before
the label, and then as many marks as the label has bytes.  The row begins where the text of the line
above it does.  So the marks stand under the labelled text, blank for character and mark for
character, exactly if every character of the line up to the end of the label takes one byte. -/
theorem marks_stand_under_bytes {above first mid last below : List Char}
    (hline : Amid above (first ++ (mid ++ last)) below) (hmid : mid ≠ [])
    (hsize : byteLength (above ++ first ++ mid) < LineMap.offsetModulus)
    (file : Option String) {d : Diagnostic} {style : LabelStyle} {message : Option String}
    (hd : d.labels =
      [⟨⟨byteLength (above ++ first), byteLength (above ++ first ++ mid)⟩, style, message⟩]) :
    let page := Page.ofSource (String.ofList (above ++ (first ++ (mid ++ last)) ++ below)) file
    let number := above.count '\n' + 1
    let row := marksFrom (byteLength first) (byteLength mid) style
    (∃ front c back, (c = ' ' ∨ c = '\n') ∧
      (format page d).toPlain =
        front ++ (numbered (widthOf page d) number).toPlain ++
          String.ofList (first ++ (mid ++ last)) ++ "\n" ++
          ((gutter (widthOf page d)).toPlain ++ " ") ++ String.ofList row ++
          String.ofList (c :: back)) ∧
    ((gutter (widthOf page d)).toPlain ++ " ").length =
      (numbered (widthOf page d) number).toPlain.length ∧
    (row.takeWhile (· != mark style)).length = byteLength first ∧
    row.count (mark style) = byteLength mid ∧
    ((row.takeWhile (· != mark style)).length = first.length ∧
        row.count (mark style) = mid.length ↔
      ∀ c ∈ first ++ mid, c.utf8Size = 1) := by
  intro page number row
  have hrow := trimRow_rowUnder_within hline hmid hsize style message
  have hnumber := congrArg (·.1) (annotate_within hline hsize hmid style message)
  rw [← hd] at hrow
  generalize (⟨⟨byteLength (above ++ first), byteLength (above ++ first ++ mid)⟩, style,
    message⟩ : Label) = l at hd hnumber
  have hplace : l.line page.view = number := hnumber
  have htext : page.view.lineText? number = some (String.ofList (first ++ (mid ++ last))) :=
    hline.lineText?
  have hbefore : (row.takeWhile (· != mark style)).length = byteLength first := by
    obtain ⟨count, hcount⟩ := Nat.exists_eq_add_one.2 (byteLength_pos hmid)
    show ((marksFrom _ _ _).takeWhile _).length = _
    rw [hcount, length_takeWhile_marksFrom]
  have hcount : row.count (mark style) = byteLength mid := count_marksFrom ..
  refine ⟨?_, length_gutter_eq (hplace ▸ length_number_le_widthOf page hd), hbefore, hcount, ?_⟩
  · obtain ⟨front, c, back, hc, hprint⟩ := toPlain_format_of_mem page (hd ▸ List.mem_singleton_self l)
    have hshown : (annotatedLine page.view d.labels (l.line page.view)).text =
        String.ofList (first ++ (mid ++ last)) := by
      rw [hd, annotatedLine_singleton, hplace, htext, Option.getD_some]
    have hmarks : trimRow (rowUnder page.view d.labels
        (annotatedLine page.view d.labels (l.line page.view)).number) = row := by
      rw [hd, annotatedLine_singleton, hplace, ← hd]
      exact hrow
    refine ⟨front, c, back, hc, ?_⟩
    simp only [hshown, hmarks] at hprint
    rw [hprint, hd, annotatedLine_singleton, hplace]
    simp only [String.append_assoc]
  · rw [hbefore, hcount, byteLength_eq_length_iff, byteLength_eq_length_iff, List.forall_mem_append]

/-- A label on the last two of the characters `aé = bc`, of which the second takes two bytes. -/
theorem marks_stand_under_bytes_two_bytes :
    let page := Page.ofSource "x\naé = bc\n" none
    let d := (Diagnostic.ofMessage .error "m").withPrimary ⟨8, 10⟩ "here"
    let row := marksFrom 6 2 .primary
    Amid ['x', '\n'] "aé = bc".toList ['\n'] ∧
      (∃ front c back, (c = ' ' ∨ c = '\n') ∧ (format page d).toPlain =
        front ++ (numbered (widthOf page d) 2).toPlain ++ "aé = bc" ++ "\n" ++
          ((gutter (widthOf page d)).toPlain ++ " ") ++ String.ofList row ++
          String.ofList (c :: back)) ∧
      ¬ ((row.takeWhile (· != '^')).length = 5 ∧ row.count '^' = 2) := by
  intro page d row
  have hline : Amid ['x', '\n'] (['a', 'é', ' ', '=', ' '] ++ (['b', 'c'] ++ [])) ['\n'] :=
    ⟨by decide, .inr ⟨['x'], rfl⟩, .inr ⟨[], rfl⟩⟩
  have h := marks_stand_under_bytes hline (by decide) (by decide) none (d := d) rfl
  exact ⟨hline, h.1, fun haligned =>
    absurd (h.2.2.2.2.1 haligned 'é' (by decide)) (by decide)⟩

/-- Three blanks stand before the mark of a label that has two characters before it. -/
theorem not_marks_stand_under_text :
    let page := Page.ofSource "é x" none
    let d := (Diagnostic.ofMessage .error "m").withLabel ⟨⟨3, 4⟩, .primary, none⟩
    (format page d).toPlain = "error: m\n  --> <source>:1:4\n   |\n 1 | é x\n   |    ^\n" ∧
      slice? 3 4 "é x".toList = some ['x'] ∧
      ((trimRow (rowUnder page.view d.labels 1)).takeWhile (· != '^')).length ≠
        "é ".toList.length := by
  intro page d
  let line : AnnotatedLine := ⟨1, "é x", [⟨4, 5, .primary, none⟩]⟩
  have hline : annotatedLine page.view d.labels 1 = line := by decide
  have hlines : annotatedLines page.view d.labels = [line] := by
    rw [← hline]
    exact annotatedLines_singleton ..
  have hordered : inOrder line.annotations = line.annotations := List.mergeSort_singleton _
  have hrow : trimRow (markRow line.text line.annotations) = [' ', ' ', ' ', '^'] := by decide
  have hmarks (width : Nat) : markLines width line =
      gutter width ++ plain " " ++ styleRow [' ', ' ', ' ', '^'] ++ plain "\n" := by
    have hremarks : line.annotations.filterMap
        (fun a => a.message.map fun message => (a, message)) = [] := rfl
    rw [markLines, hordered, hrow, hremarks, List.mergeSort_nil]
  have hspan : d.primarySpan? = some ⟨3, 4⟩ := rfl
  refine ⟨?_, by decide, ?_⟩
  · rw [format, hspan]
    dsimp only
    rw [hlines, lineRows, hmarks]
    decide
  · rw [rowUnder, hline]
    show ((trimRow (markRow _ (inOrder line.annotations))).takeWhile _).length ≠ _
    rw [hordered, hrow]
    decide

end Terminal

end ActorFrontend
