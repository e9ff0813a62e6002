import ActorFrontend.Proofs.Rendering.Marks
import ActorFrontend.Proofs.Rendering.Sequences

/-!
# Diagnostics in colour

A diagnostic in colour is the plain one with escape sequences put in.  All texts that it is put
together from are its own, those of the source, numbers, blanks and marks.
-/

namespace ActorFrontend

open Source

/-- A diagnostic without escape characters in its texts. -/
structure Diagnostic.EscapeFree (d : Diagnostic) : Prop where
  message : escape ∉ d.message.toList
  code : ∀ code ∈ d.code, escape ∉ code.toList
  labels : ∀ l ∈ d.labels, ∀ message ∈ l.message, escape ∉ message.toList
  notes : ∀ note ∈ d.notes, escape ∉ note.toList
  help : ∀ help ∈ d.help, escape ∉ help.message.toList
  replacement : ∀ s ∈ d.help.bind (·.suggestion), escape ∉ s.replacement.toList

/-! ## What is cut out of a text -/

theorem LineMap.lineText?_subset {m : LineMap} {source text : String} {line : Nat}
    (h : m.lineText? source line = some text) : text.toList ⊆ source.toList := by
  rw [lineText?] at h
  split at h
  · cases h
  · obtain ⟨start, -, h⟩ := Option.bind_eq_some_iff.1 h
    obtain ⟨cs, hslice, rfl⟩ := Option.map_eq_some_iff.1 h
    obtain ⟨front, back, hsource, -⟩ := slice?_eq_some_iff.1 hslice
    rw [hsource, String.toList_ofList]
    exact fun c hc => List.mem_append_left _ (List.mem_append_right _ hc)

theorem EditedLine.cut_before_subset (line : String) (column length : Nat) :
    (cut line column length).before.toList ⊆ line.toList := by
  show (((takeBytes? (min (column - 1) (byteLength line.toList)) line.toList).map
    String.ofList).getD line).toList ⊆ _
  cases htake : takeBytes? (min (column - 1) (byteLength line.toList)) line.toList with
  | none => exact List.Subset.refl _
  | some front =>
    obtain ⟨rest, hline, -⟩ := takeBytes?_eq_some_iff.1 htake
    rw [hline, Option.map_some, Option.getD_some, String.toList_ofList]
    exact List.subset_append_left ..

theorem EditedLine.cut_after_subset (line : String) (column length : Nat) :
    (cut line column length).after.toList ⊆ line.toList := by
  show (((dropBytes? (min (min (column - 1) (byteLength line.toList) + length)
    (byteLength line.toList)) line.toList).map String.ofList).getD "").toList ⊆ _
  cases hdrop : dropBytes? (min (min (column - 1) (byteLength line.toList) + length)
    (byteLength line.toList)) line.toList with
  | none => exact List.nil_subset _
  | some rest =>
    obtain ⟨front, hline, -⟩ := dropBytes?_eq_some_iff.1 hdrop
    rw [hline, Option.map_some, Option.getD_some, String.toList_ofList]
    exact List.subset_append_right ..

namespace Terminal

open StyledText

/-! ## Numbers, blanks and marks -/

theorem escape_not_mem_append {s t : String} (hs : escape ∉ s.toList) (ht : escape ∉ t.toList) :
    escape ∉ (s ++ t).toList := by
  rw [String.toList_append, List.mem_append]
  exact not_or.2 ⟨hs, ht⟩

theorem escape_not_mem_number (n : Nat) : escape ∉ (toString n).toList := by
  intro h
  rw [Nat.toString_eq_repr, Nat.toList_repr] at h
  exact absurd (Nat.isDigit_of_mem_toDigits (by decide) (by decide) h) (by decide)

theorem escape_not_mem_replicate {c : Char} (hc : c ≠ escape) (n : Nat) :
    escape ∉ (String.ofList (List.replicate n c)).toList := by
  rw [String.toList_ofList]
  exact fun h => hc (List.eq_of_mem_replicate h).symm

theorem escape_not_mem_blanks (n : Nat) : escape ∉ (blanks n).toList :=
  escape_not_mem_replicate (by decide) n

theorem escape_not_mem_paint {row : List Char} (h : escape ∉ row) (a : Annotation) :
    escape ∉ paint row a := by
  intro hmem
  obtain ⟨i, hi, hpainted⟩ := List.mem_mapIdx.1 hmem
  -- a place of the row is a mark, or what it was
  split at hpainted
  · exact absurd hpainted (by cases a.style <;> decide)
  · exact h (hpainted ▸ List.getElem_mem hi)

theorem escape_not_mem_markRow (text : String) (ordered : List Annotation) :
    escape ∉ markRow text ordered := by
  rw [markRow]
  refine List.foldlRecOn (motive := fun row => escape ∉ row) ordered paint ?_
    fun row hrow a _ => escape_not_mem_paint hrow a
  intro h
  exact absurd (List.eq_of_mem_replicate h) (by decide)

theorem escape_not_mem_trimRow {row : List Char} (h : escape ∉ row) : escape ∉ trimRow row := by
  obtain ⟨n, hn⟩ := exists_trimRow_append row
  intro hmem
  exact h (hn ▸ List.mem_append_left _ hmem)

theorem escapeFree_styleMarks {run : List Char} (h : escape ∉ run) :
    (styleMarks run).EscapeFree := by
  have htext : escape ∉ (String.ofList run).toList := by rwa [String.toList_ofList]
  unfold styleMarks
  split <;> exact .singleton htext

theorem escapeFree_styleRow {row : List Char} (h : escape ∉ row) : (styleRow row).EscapeFree := by
  intro run hrun
  obtain ⟨marks, hmarks, hrun⟩ := List.mem_flatten.1 hrun
  obtain ⟨cs, hcs, rfl⟩ := List.mem_map.1 hmarks
  refine escapeFree_styleMarks (fun hmem => h ?_) run hrun
  rw [← List.flatten_splitBy (fun a b => a == b) row]
  exact List.mem_flatten_of_mem hcs hmem

theorem escapeFree_styleAs (style : LabelStyle) {text : String} (h : escape ∉ text.toList) :
    (styleAs style text).EscapeFree := by
  cases style <;> exact .singleton h

/-! ## The parts of a diagnostic -/

/-- A blank margin, and a sign behind it. -/
theorem escapeFree_margin (width : Nat) {style : Option Style} {text : String}
    (h : escape ∉ text.toList) :
    EscapeFree (plain (blanks width ++ " ") ++ [⟨style, text⟩]) :=
  .append (.singleton (escape_not_mem_append (escape_not_mem_blanks width) (by decide)))
    (.singleton h)

theorem escapeFree_gutter (width : Nat) : (gutter width).EscapeFree :=
  escapeFree_margin width (by decide)

theorem escapeFree_gutterLine (width : Nat) : (gutterLine width).EscapeFree :=
  (escapeFree_gutter width).append (.singleton (by decide))

theorem escapeFree_numbered (width number : Nat) : (numbered width number).EscapeFree := by
  have hnumber : escape ∉ (padLeft width (toString number)).toList :=
    escape_not_mem_append (escape_not_mem_blanks _) (escape_not_mem_number number)
  exact (((EscapeFree.singleton hnumber).append (.singleton (by decide))).append
    (.singleton (by decide))).append (.singleton (by decide))

theorem escapeFree_header {d : Diagnostic} (hd : d.EscapeFree) : (header d).EscapeFree := by
  have hname : (severityName d.severity).EscapeFree := by
    cases d.severity <;> exact .singleton (by decide)
  refine ((hname.append ?_).append (.singleton hd.message)).append (.singleton (by decide))
  cases hcode : d.code with
  | none => exact .singleton (by decide)
  | some code =>
    have hfree := hd.code code hcode
    exact ((EscapeFree.singleton (by decide)).append (.singleton hfree)).append
      (.singleton (by decide))

theorem escapeFree_footerLine (width : Nat) {what text : String} (hwhat : escape ∉ what.toList)
    (htext : escape ∉ text.toList) : (footerLine width what text).EscapeFree := by
  have hline : escape ∉ (": " ++ text ++ "\n").toList :=
    escape_not_mem_append (escape_not_mem_append (by decide) htext) (by decide)
  exact (((escapeFree_margin width (by decide)).append (.singleton (by decide))).append
    (.singleton hwhat)).append (.singleton hline)

/-- The rows under a line. -/
theorem escapeFree_markLines (width : Nat) {line : AnnotatedLine}
    (h : ∀ a ∈ line.annotations, ∀ message ∈ a.message, escape ∉ message.toList) :
    (markLines width line).EscapeFree := by
  have hrow : EscapeFree (gutter width ++ plain " " ++
      styleRow (trimRow (markRow line.text (inOrder line.annotations)))) :=
    ((escapeFree_gutter width).append (.singleton (by decide))).append
      (escapeFree_styleRow (escape_not_mem_trimRow (escape_not_mem_markRow _ _)))
  have hremarks : ∀ remark ∈ ((inOrder line.annotations).filterMap fun a =>
      a.message.map fun message => (a, message)).mergeSort
        (fun a b => decide (b.1.startColumn ≤ a.1.startColumn)), escape ∉ remark.2.toList := by
    intro remark hremark
    obtain ⟨a, ha, hmessage⟩ := List.mem_filterMap.1 (List.mem_mergeSort.1 hremark)
    obtain ⟨message, hsome, rfl⟩ := Option.map_eq_some_iff.1 hmessage
    exact h a (mem_inOrder.1 ha) message hsome
  rw [markLines]
  generalize ((inOrder line.annotations).filterMap fun a =>
      a.message.map fun message => (a, message)).mergeSort
        (fun a b => decide (b.1.startColumn ≤ a.1.startColumn)) = remarks at hremarks
  rcases remarks with _ | ⟨⟨a, message⟩, _ | ⟨second, more⟩⟩
  case nil => exact hrow.append (.singleton (by decide))
  case cons.nil =>
    have hmessage := hremarks _ (List.mem_cons_self ..)
    exact ((hrow.append (.singleton (by decide))).append (escapeFree_styleAs a.style hmessage)).append
      (.singleton (by decide))
  case cons.cons =>
    refine (hrow.append (.singleton (by decide))).append (.flatMap fun remark hremark => ?_)
    have hmessage := hremarks remark hremark
    have hindent : escape ∉ (" " ++ blanks (remark.1.startColumn - 1)).toList :=
      escape_not_mem_append (by decide) (escape_not_mem_blanks _)
    exact (((((escapeFree_gutter width).append (.singleton hindent)).append
      (escapeFree_styleAs remark.1.style (by decide))).append (.singleton (by decide))).append
      (escapeFree_styleAs remark.1.style hmessage)).append (.singleton (by decide))

theorem escapeFree_lineRows (width : Nat) {lines : List AnnotatedLine}
    (htext : ∀ line ∈ lines, escape ∉ line.text.toList)
    (hmessages : ∀ line ∈ lines, ∀ a ∈ line.annotations, ∀ message ∈ a.message,
      escape ∉ message.toList) (previous : Option Nat) :
    (lineRows width previous lines).EscapeFree := by
  induction lines generalizing previous with
  | nil => exact List.forall_mem_nil _
  | cons line lines ih =>
    obtain ⟨hline, htext⟩ := List.forall_mem_cons.1 htext
    obtain ⟨hnotes, hmessages⟩ := List.forall_mem_cons.1 hmessages
    have hgap (gap : Bool) : EscapeFree
        (if gap then plain (blanks width ++ " ") ++ coloured .blue "..." ++ plain "\n" else []) := by
      cases gap with
      | true => exact (escapeFree_margin width (by decide)).append (.singleton (by decide))
      | false => exact List.forall_mem_nil _
    exact ((((hgap _).append (escapeFree_numbered width line.number)).append
      (.singleton (escape_not_mem_append hline (by decide)))).append
      (escapeFree_markLines width hnotes)).append (ih htext hmessages (some line.number))

section

variable {source : String} (hsource : escape ∉ source.toList)

include hsource

theorem escape_not_mem_lineText {line : Nat} {text : String}
    (h : (SourceView.ofSource source).lineText? line = some text) : escape ∉ text.toList :=
  fun hmem => hsource (LineMap.lineText?_subset h hmem)

theorem escapeFree_changedLine (width : Nat) {s : Suggestion} (hs : escape ∉ s.replacement.toList) :
    (changedLine (.ofSource source) width s).EscapeFree := by
  rw [changedLine]
  simp only
  split
  case h_1 => exact List.forall_mem_nil _
  case h_2 text htext =>
    have hline := escape_not_mem_lineText hsource htext
    generalize hedit : EditedLine.cut text
      ((SourceView.ofSource source).position s.span.start).column s.span.length = edit
    have hbefore : escape ∉ edit.before.toList := by
      rw [← hedit]
      exact fun h => hline (EditedLine.cut_before_subset _ _ _ h)
    have hafter : escape ∉ (edit.after ++ "\n").toList := by
      rw [← hedit]
      exact escape_not_mem_append (fun h => hline (EditedLine.cut_after_subset _ _ _ h)) (by decide)
    have hindent : escape ∉ (" " ++ blanks edit.beforeLength).toList :=
      escape_not_mem_append (by decide) (escape_not_mem_blanks _)
    have hline : EscapeFree (gutterLine width ++
        numbered width ((SourceView.ofSource source).position s.span.start).line ++
        plain edit.before ++ coloured .green s.replacement ++ plain (edit.after ++ "\n")) :=
      ((((escapeFree_gutterLine width).append (escapeFree_numbered width _)).append
        (.singleton hbefore)).append (.singleton hs)).append (.singleton hafter)
    exact (((hline.append (escapeFree_gutter width)).append (.singleton hindent)).append
      (.singleton (escape_not_mem_replicate (by decide) _))).append (.singleton (by decide))

theorem escapeFree_footer (width : Nat) {d : Diagnostic} (hd : d.EscapeFree) :
    (footer (.ofSource source) width d).EscapeFree := by
  have hnotes : EscapeFree (d.notes.flatMap (footerLine width "note")) :=
    .flatMap fun note hnote => escapeFree_footerLine width (by decide) (hd.notes note hnote)
  refine hnotes.append ?_
  cases hhelp : d.help with
  | none => exact List.forall_mem_nil _
  | some help =>
    refine (escapeFree_footerLine width (by decide) (hd.help help hhelp)).append ?_
    cases hchange : help.suggestion with
    | none => exact List.forall_mem_nil _
    | some s =>
      refine escapeFree_changedLine hsource width (hd.replacement s ?_)
      rw [hhelp]
      exact hchange

/-- The lines on which labels start, with their rows. -/
theorem escapeFree_annotatedLines (width : Nat) {d : Diagnostic} (hd : d.EscapeFree) :
    (lineRows width none (annotatedLines (.ofSource source) d.labels)).EscapeFree := by
  refine escapeFree_lineRows width (fun line hline => ?_) (fun line hline a ha => ?_) none
  · obtain ⟨number, -, rfl⟩ := List.mem_map.1 hline
    show escape ∉ (((SourceView.ofSource source).lineText? number).getD "").toList
    cases htext : (SourceView.ofSource source).lineText? number with
    | none => exact List.not_mem_nil
    | some text => exact escape_not_mem_lineText hsource htext
  · obtain ⟨number, -, rfl⟩ := List.mem_map.1 hline
    obtain ⟨note, hnote, rfl⟩ := List.mem_map.1 ha
    obtain ⟨l, hl, rfl⟩ := List.mem_map.1 (List.mem_of_mem_filter hnote)
    exact hd.labels l hl

/-! ## Whole diagnostics -/

/-- All of a diagnostic but the line with the name of its source is free of escape characters. -/
theorem exists_format {d : Diagnostic} (hd : d.EscapeFree) (file : Option String) :
    (format (.ofSource source file) d).EscapeFree ∨
      ∃ (front back : StyledText) (offset : Nat), front.EscapeFree ∧ back.EscapeFree ∧
        format (.ofSource source file) d =
          front ++ locationLine (.ofSource source file) offset ++ back := by
  rw [format, view_ofSource]
  cases d.primarySpan? with
  | none => exact .inl ((escapeFree_header hd).append (escapeFree_footer hsource 2 hd))
  | some span =>
    generalize hwidth : gutterWidth (annotatedLines (.ofSource source) d.labels) = width
    have hgap : EscapeFree (if d.notes.isEmpty && d.help.isNone then [] else gutterLine width) := by
      split
      · exact List.forall_mem_nil _
      · exact escapeFree_gutterLine width
    refine .inr ⟨header d, gutterLine width ++ lineRows width none
      (annotatedLines (.ofSource source) d.labels) ++
      (if d.notes.isEmpty && d.help.isNone then [] else gutterLine width) ++
      footer (.ofSource source) width d, span.start, escapeFree_header hd, ?_, ?_⟩
    · exact (((escapeFree_gutterLine width).append
        (escapeFree_annotatedLines hsource width hd)).append hgap).append
          (escapeFree_footer hsource width hd)
    · simp only [hwidth, List.append_assoc]

end

/-- The line with the name of the source, whatever that name is. -/
theorem clears_locationLine (page : Page) (offset : Nat) : (locationLine page offset).Clears := by
  have harrow : EscapeFree (plain "  " ++ coloured .blue "-->") :=
    .append (.singleton (by decide)) (.singleton (by decide))
  have hcolumn : EscapeFree (plain (":" ++ toString (page.view.position offset).column ++ "\n")) :=
    .singleton (escape_not_mem_append
      (escape_not_mem_append (by decide) (escape_not_mem_number _)) (by decide))
  have hname := Clears.colon (" " ++ page.fileName)
    (escape_not_mem_number (page.view.position offset).line)
  -- the name is taken together with the colon behind it: a sequence that it begins ends there
  have hparts := (harrow.clears.append hname).append hcolumn.clears
  simp only [List.append_assoc] at hparts
  rw [locationLine]
  simp only [List.append_assoc]
  exact hparts

theorem escapeFree_locationLine {page : Page} (h : escape ∉ page.fileName.toList) (offset : Nat) :
    (locationLine page offset).EscapeFree := by
  have hline : escape ∉ (":" ++ toString (page.view.position offset).line).toList :=
    escape_not_mem_append (by decide) (escape_not_mem_number _)
  exact ((((EscapeFree.singleton (by decide)).append (.singleton (by decide))).append
    (.singleton (escape_not_mem_append (by decide) h))).append (.singleton hline)).append
    (.singleton (escape_not_mem_append
      (escape_not_mem_append (by decide) (escape_not_mem_number _)) (by decide)))

/-- A diagnostic in colour is the plain one once the sequences are taken out, for all texts without
escape characters.  The name of the source may have some as well, and so sequences of its own: these
go from either form. -/
theorem format_withoutSequences {source : String} (hsource : escape ∉ source.toList)
    {d : Diagnostic} (hd : d.EscapeFree) (file : Option String) :
    let shown := format (.ofSource source file) d
    ((∀ name ∈ file, escape ∉ name.toList) →
      withoutSequences shown.toColoured.toList = shown.toPlain.toList) ∧
    withoutSequences shown.toColoured.toList = withoutSequences shown.toPlain.toList := by
  intro shown
  have hclears : shown.Clears := by
    obtain hfree | ⟨front, back, offset, hfront, hback, hshown⟩ := exists_format hsource hd file
    · exact hfree.clears
    · show (format _ _).Clears
      rw [hshown]
      exact (hfront.clears.append (clears_locationLine _ offset)).append hback.clears
  have hboth : withoutSequences shown.toColoured.toList = withoutSequences shown.toPlain.toList := by
    have hwhole := hclears.fromColoured []
    rwa [List.append_nil, withoutSequences_nil, List.append_nil] at hwhole
  refine ⟨fun hfile => ?_, hboth⟩
  have hname : escape ∉ (Page.ofSource source file).fileName.toList := by
    cases file with
    | none => exact (by decide : escape ∉ "<source>".toList)
    | some name => exact hfile name rfl
  have hfree : shown.EscapeFree := by
    obtain hfree | ⟨front, back, offset, hfront, hback, hshown⟩ := exists_format hsource hd file
    · exact hfree
    · show (format _ _).EscapeFree
      rw [hshown]
      exact (hfront.append (escapeFree_locationLine hname offset)).append hback
  rw [hboth, hfree.withoutSequences_toPlain]

/-- Two labels that overlap, a note and a change, with `é` in the source and in the change. -/
theorem format_withoutSequences_overlapping :
    let d := ((((((Diagnostic.ofMessage .error "m").withCode "E0100").withPrimary ⟨0, 3⟩ "here").withLabel
      ⟨⟨2, 5⟩, .secondary, none⟩).withNote "n").withHelp "h").withSuggestion ⟨2, 3⟩ "é"
    escape ∉ "aéb c".toList ∧ d.EscapeFree ∧
      withoutSequences (format (.ofSource "aéb c" none) d).toColoured.toList =
        (format (.ofSource "aéb c" none) d).toPlain.toList := by
  intro d
  have hsource : escape ∉ "aéb c".toList := by decide
  have hd : d.EscapeFree := by constructor <;> decide
  exact ⟨hsource, hd, (format_withoutSequences hsource hd none).1 nofun⟩

end Terminal

end ActorFrontend
