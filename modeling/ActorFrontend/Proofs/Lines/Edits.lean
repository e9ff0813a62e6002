import ActorFrontend.Diagnostic.Report
import ActorFrontend.Diagnostic.Terminal
import ActorFrontend.Proofs.Lines.Positions

/-!
# The line that a change leads to

A change within a line is shown as the line that it leads to, in reports and in a terminal.  The
line shown is the one that stands in the source after the change has been made to the whole of it.
-/

namespace ActorFrontend

namespace Source

/-- The line of a text on which an offset lies. -/
def lineAt? (source : String) (offset : Nat) : Option String :=
  (lines source)[((utf8 source.toList).take offset).count lineFeed]?

/-! ## A line and what stands around it -/

/-- A line of a text, with the text above and below it. -/
structure Amid (above line below : List Char) : Prop where
  free : '\n' ∉ line
  starts : above = [] ∨ ∃ more, above = more ++ ['\n']
  stops : below = [] ∨ ∃ more, below = '\n' :: more

/-- A text up to some place ends with the part of a line. -/
theorem exists_line_start (front : List Char) :
    ∃ above first, front = above ++ first ∧ '\n' ∉ first ∧
      (above = [] ∨ ∃ more, above = more ++ ['\n']) := by
  induction front using line_induction with
  | last line hline => exact ⟨[], line, rfl, hline, .inl rfl⟩
  | more line rest hline ih =>
    obtain ⟨above, first, rfl, hfirst, habove⟩ := ih
    refine ⟨line ++ '\n' :: above, first, by simp, hfirst, .inr ?_⟩
    obtain rfl | ⟨more, rfl⟩ := habove
    · exact ⟨line, rfl⟩
    · exact ⟨line ++ '\n' :: more, by simp⟩

/-- A text from some place on begins with the part of a line. -/
theorem exists_line_stop (back : List Char) :
    ∃ last below, back = last ++ below ∧ '\n' ∉ last ∧
      (below = [] ∨ ∃ more, below = '\n' :: more) := by
  by_cases hmem : '\n' ∈ back
  · obtain ⟨last, more, hback, hlast⟩ := List.eq_append_cons_of_mem hmem
    exact ⟨last, '\n' :: more, hback, hlast, .inr ⟨more, rfl⟩⟩
  · exact ⟨back, [], (List.append_nil _).symm, hmem, .inl rfl⟩

namespace Amid

variable {above line below : List Char}

/-- The line stands among the lines of the text behind as many as there are line feeds above. -/
theorem getElem?_splitOn (h : Amid above line below) :
    ((above ++ line ++ below).splitOn '\n')[above.count '\n']? = some line := by
  have htop : ((line ++ below).splitOn '\n')[0]? = some line := by
    obtain rfl | ⟨more, rfl⟩ := h.stops
    · rw [List.append_nil, List.splitOn_eq_singleton h.free]
      rfl
    · rw [List.splitOn_append_cons_self_of_not_mem h.free]
      rfl
  obtain rfl | ⟨more, rfl⟩ := h.starts
  · exact htop
  · clear h
    induction more using line_induction with
    | last line' hline' =>
      have hcount : (line' ++ ['\n']).count '\n' = 0 + 1 := by
        rw [List.count_append, List.count_eq_zero_of_not_mem hline']
        rfl
      rw [hcount, List.append_assoc, List.append_assoc, List.singleton_append,
        List.splitOn_append_cons_self_of_not_mem hline', List.getElem?_cons_succ]
      exact htop
    | more line' rest hline' ih =>
      have hcount : (line' ++ '\n' :: rest ++ ['\n']).count '\n' =
          (rest ++ ['\n']).count '\n' + 1 := by
        rw [List.append_assoc, List.count_append, List.count_eq_zero_of_not_mem hline',
          List.cons_append, List.count_cons_self]
        omega
      have hwhole : line' ++ '\n' :: rest ++ ['\n'] ++ line ++ below =
          line' ++ '\n' :: (rest ++ ['\n'] ++ line ++ below) := by simp
      rw [hcount, hwhole, List.splitOn_append_cons_self_of_not_mem hline',
        List.getElem?_cons_succ]
      exact ih

/-- The bytes up to a place on the line. -/
theorem take_utf8 {first last : List Char} :
    (utf8 (above ++ (first ++ last) ++ below)).take (byteLength (above ++ first)) =
      utf8 above ++ utf8 first := by
  have hwhole : utf8 (above ++ (first ++ last) ++ below) =
      utf8 (above ++ first) ++ utf8 (last ++ below) := by simp
  rw [hwhole, ← length_utf8, List.take_left, utf8_append]

theorem not_mem_first {first last : List Char} (h : Amid above (first ++ last) below) :
    '\n' ∉ first :=
  fun hmem => h.free (List.mem_append_left _ hmem)

/-- The line feeds before a place on the line are those above it. -/
theorem count_take {first last : List Char} (h : Amid above (first ++ last) below) :
    ((utf8 (above ++ (first ++ last) ++ below)).take (byteLength (above ++ first))).count lineFeed =
      above.count '\n' := by
  rw [take_utf8, List.count_append, count_utf8_lineFeed, count_utf8_lineFeed,
    List.count_eq_zero_of_not_mem h.not_mem_first, Nat.add_zero]

/-- The last line feed before a place on the line is the one that ends the text above. -/
theorem behindLastFeed_take {first last : List Char} (h : Amid above (first ++ last) below) :
    behindLastFeed
        ((utf8 (above ++ (first ++ last) ++ below)).take (byteLength (above ++ first))) =
      byteLength above := by
  have hfree : lineFeed ∉ utf8 first := mt mem_utf8_lineFeed.1 h.not_mem_first
  rw [take_utf8]
  obtain rfl | ⟨more, rfl⟩ := h.starts
  · exact behindLastFeed_of_not_mem hfree
  · have hsize : Char.utf8Size '\n' = 1 := rfl
    rw [utf8_append, utf8_cons, utf8_nil, utf8EncodeChar_lineFeed, List.append_nil,
      List.append_assoc, List.singleton_append, behindLastFeed_feed_append hfree]
    simp [hsize]

/-- The position of a place on the line. -/
theorem position {first last : List Char} (h : Amid above (first ++ last) below)
    (hlt : byteLength (above ++ first) < LineMap.offsetModulus) :
    (LineMap.ofSource (String.ofList (above ++ (first ++ last) ++ below))).position
        (byteLength (above ++ first)) =
      ⟨above.count '\n' + 1, byteLength first + 1⟩ := by
  rw [LineMap.position_ofSource _ hlt, String.toList_ofList, h.count_take, h.behindLastFeed_take,
    byteLength_append, Nat.add_sub_cancel_left, Nat.add_comm 1]

theorem lineText? (h : Amid above line below) :
    (LineMap.ofSource (String.ofList (above ++ line ++ below))).lineText?
        (String.ofList (above ++ line ++ below)) (above.count '\n' + 1) =
      some (String.ofList line) := by
  rw [LineMap.lineText?_ofSource, lines, List.getElem?_map, String.toList_ofList,
    h.getElem?_splitOn]
  rfl

theorem lineAt? {first last : List Char} (h : Amid above (first ++ last) below) :
    lineAt? (String.ofList (above ++ (first ++ last) ++ below)) (byteLength (above ++ first)) =
      some (String.ofList (first ++ last)) := by
  rw [Source.lineAt?, lines, List.getElem?_map, String.toList_ofList, h.count_take,
    h.getElem?_splitOn]
  rfl

end Amid

end Source

open Source

/-- The source after a change, if its span is made of whole characters. -/
def Suggestion.applied? (s : Suggestion) (source : String) : Option String := do
  let front ← takeBytes? s.span.start source.toList
  let back ← dropBytes? s.span.stop source.toList
  return String.ofList front ++ s.replacement ++ String.ofList back

/-- A change in the middle of a text. -/
theorem Suggestion.applied?_append {s : Suggestion} {front mid back : List Char}
    (hstart : byteLength front = s.span.start) (hstop : byteLength (front ++ mid) = s.span.stop) :
    s.applied? (String.ofList (front ++ mid ++ back)) =
      some (String.ofList (front ++ s.replacement.toList ++ back)) := by
  have hfront : takeBytes? s.span.start (front ++ mid ++ back) = some front :=
    takeBytes?_eq_some_iff.2 ⟨mid ++ back, List.append_assoc .., hstart⟩
  have hback : dropBytes? s.span.stop (front ++ mid ++ back) = some back :=
    dropBytes?_eq_some_iff.2 ⟨front ++ mid, rfl, hstop⟩
  rw [applied?, String.toList_ofList, hfront, hback, String.ofList_append, String.ofList_append,
    String.ofList_toList]
  rfl

namespace EditedLine

theorem fill_ofList (first last : List Char) (length : Nat) (replacement : String) :
    (EditedLine.mk (String.ofList first) length (String.ofList last)).fill replacement =
      String.ofList (first ++ (replacement.toList ++ last)) := by
  rw [fill, String.append_assoc, String.ofList_append, String.ofList_append, String.ofList_toList]

/-- Cutting out the middle of a line. -/
theorem cut_append (first mid last : List Char) :
    cut (String.ofList (first ++ (mid ++ last))) (byteLength first + 1) (byteLength mid) =
      ⟨String.ofList first, byteLength first, String.ofList last⟩ := by
  rw [← List.append_assoc]
  have hstart : min (byteLength first + 1 - 1) (byteLength (first ++ mid ++ last)) =
      byteLength first := by
    rw [byteLength_append, byteLength_append]
    omega
  have hstop : min (byteLength first + byteLength mid) (byteLength (first ++ mid ++ last)) =
      byteLength (first ++ mid) := by
    rw [byteLength_append, byteLength_append]
    omega
  have htake : takeBytes? (byteLength first) (first ++ mid ++ last) = some first := by
    rw [List.append_assoc]
    exact takeBytes?_append first _
  rw [cut, String.toList_ofList, hstart, hstop, htake, dropBytes?_append]
  rfl

end EditedLine

/-! ## Where a change is shown -/

namespace JsonValue

/-- The value of a member. -/
def get? (key : String) : JsonValue → Option JsonValue
  | .object members => members.lookup key
  | _ => none

/-- An element of a list. -/
def elem? (index : Nat) : JsonValue → Option JsonValue
  | .array elems => elems[index]?
  | _ => none

end JsonValue

namespace Report

theorem lookup_member?_of_ne {key other : String} {value : Option JsonValue} (h : key ≠ other) :
    (member? other value).lookup key = none := by
  cases value with
  | none => rfl
  | some value =>
    have hbeq : (key == other) = false := beq_eq_false_iff_ne.2 h
    show List.lookup key [(other, value)] = none
    rw [List.lookup_cons, hbeq]
    rfl

/-- What the report says about the change of one of its diagnostics. -/
def suggestionAt? (index : Nat) (report : JsonValue) : Option JsonValue := do
  let all ← report.get? "diagnostics"
  let diagnostic ← all.elem? index
  diagnostic.get? "suggestion"

theorem get?_suggestion (view : SourceView) (d : Diagnostic) :
    (diagnostic view d).get? "suggestion" =
      (d.help.bind (·.suggestion)).map (suggestion view) := by
  have hnotes : (if d.notes.isEmpty then [] else
      [("notes", JsonValue.array (d.notes.map .string))]).lookup "suggestion" = none := by
    by_cases h : d.notes.isEmpty
    · rw [if_pos h]
      rfl
    · rw [if_neg h]
      rfl
  have hlast (value : Option JsonValue) :
      (member? "suggestion" value).lookup "suggestion" = value := by
    cases value <;> rfl
  rw [diagnostic, JsonValue.get?]
  simp only [List.lookup_append, hnotes, hlast,
    lookup_member?_of_ne (by decide : "suggestion" ≠ "code"),
    lookup_member?_of_ne (by decide : "suggestion" ≠ "category"),
    lookup_member?_of_ne (by decide : "suggestion" ≠ "location"),
    lookup_member?_of_ne (by decide : "suggestion" ≠ "help")]
  rfl

/-- The line that the report gives for the change of one of its diagnostics. -/
theorem result_line_ofDiagnostics {ds : List Diagnostic} {index : Nat} {d : Diagnostic}
    (source file : String) {s : Suggestion} (hindex : ds[index]? = some d)
    (hs : d.help.bind (·.suggestion) = some s) :
    (suggestionAt? index (ofDiagnostics ds source file)).bind (·.get? "result_line") =
      some (.string (resultLine (.ofSource source) s)) := by
  have hall : (ofDiagnostics ds source file).get? "diagnostics" =
      some (.array (ds.map (diagnostic (.ofSource source)))) := rfl
  have helem : (JsonValue.array (ds.map (diagnostic (.ofSource source)))).elem? index =
      some (diagnostic (.ofSource source) d) := by
    rw [JsonValue.elem?, List.getElem?_map, hindex]
    rfl
  have hsuggestion : suggestionAt? index (ofDiagnostics ds source file) =
      (diagnostic (.ofSource source) d).get? "suggestion" := by
    simp only [suggestionAt?, hall, Option.bind_eq_bind, Option.bind_some, helem]
  rw [hsuggestion, get?_suggestion, hs]
  rfl

/-- The line that a change on a line of the source leads to. -/
theorem resultLine_eq {view : SourceView} {s : Suggestion} {text : String} {place : Position}
    {edit : EditedLine} (hplace : view.position s.span.start = place)
    (htext : view.lineText? place.line = some text)
    (hedit : EditedLine.cut text place.column s.span.length = edit) :
    resultLine view s = edit.fill s.replacement := by
  simp only [resultLine, lineText, hplace, htext, hedit, Option.getD_some]

end Report

namespace Diagnostic

/-- The diagnostic with its advice, but without the change. -/
def withoutSuggestion (d : Diagnostic) : Diagnostic :=
  { d with help := d.help.map fun help => { help with suggestion := none } }

@[simp] theorem primarySpan?_withoutSuggestion (d : Diagnostic) :
    d.withoutSuggestion.primarySpan? = d.primarySpan? := rfl

end Diagnostic

namespace StyledText

theorem toPlain_append (a b : StyledText) :
    (a ++ b : StyledText).toPlain = a.toPlain ++ b.toPlain := by
  simp only [toPlain, List.map_append, String.join_append]

theorem toPlain_plain (text : String) : (plain text).toPlain = text := by
  simp [toPlain, plain]

theorem toPlain_coloured (colour : Colour) (text : String) :
    (coloured colour text).toPlain = text := by
  simp [toPlain, coloured]

end StyledText

namespace Terminal

open StyledText

theorem view_ofSource (source : String) (file : Option String) :
    (Page.ofSource source file).view = .ofSource source := rfl

/-- The width of the gutter beside a diagnostic. -/
def widthOf (page : Page) (d : Diagnostic) : Nat :=
  match d.primarySpan? with
  | none => 2
  | some _ => gutterWidth (annotatedLines page.view d.labels)

theorem footer_eq (view : SourceView) (width : Nat) {d : Diagnostic} {s : Suggestion}
    (hs : d.help.bind (·.suggestion) = some s) :
    footer view width d =
      footer view width d.withoutSuggestion ++ changedLine view width s := by
  obtain ⟨help, hhelp, hsuggestion⟩ := Option.bind_eq_some_iff.1 hs
  simp only [footer, helpLines, Diagnostic.withoutSuggestion, hhelp, hsuggestion, Option.map_some,
    List.append_assoc, List.append_nil]

/-- The change of a diagnostic is shown behind everything else. -/
theorem format_eq (page : Page) {d : Diagnostic} {s : Suggestion}
    (hs : d.help.bind (·.suggestion) = some s) :
    format page d =
      format page d.withoutSuggestion ++ changedLine page.view (widthOf page d) s := by
  have hhelp : d.withoutSuggestion.help.isNone = d.help.isNone := by
    cases h : d.help <;> simp [Diagnostic.withoutSuggestion, h]
  rw [format, format, widthOf, Diagnostic.primarySpan?_withoutSuggestion]
  cases d.primarySpan? with
  | none =>
    show header d ++ footer page.view 2 d = header d ++ footer page.view 2 _ ++ _
    rw [footer_eq _ _ hs, List.append_assoc]
  | some span =>
    show header d ++ (_ ++ footer page.view _ d) = header d ++ (_ ++ footer page.view _ _) ++ _
    rw [footer_eq _ _ hs, hhelp]
    simp only [List.append_assoc]
    rfl

/-- The row of marks under a changed line. -/
def changeMarks (width before : Nat) (replacement : String) : StyledText :=
  gutter width ++ plain (" " ++ blanks before) ++
    coloured .green
      (String.ofList (List.replicate (max (byteLength replacement.toList) 1) '~')) ++
    plain "\n"

/-- A change on a line of the source is shown as the line with the new text in it, below a line of
the gutter, and with its marks behind. -/
theorem toPlain_changedLine {view : SourceView} (width : Nat) {s : Suggestion} {text : String}
    {place : Position} {edit : EditedLine} (hplace : view.position s.span.start = place)
    (htext : view.lineText? place.line = some text)
    (hedit : EditedLine.cut text place.column s.span.length = edit) :
    (changedLine view width s).toPlain =
      (gutterLine width ++ numbered width place.line).toPlain ++ edit.fill s.replacement ++ "\n" ++
        (changeMarks width edit.beforeLength s.replacement).toPlain := by
  simp only [changedLine, hplace, htext, hedit, changeMarks, toPlain_append, toPlain_plain,
    toPlain_coloured, EditedLine.fill, String.append_assoc]

end Terminal

/-! ## The line shown is the line of the changed source -/

/-- A change within a line, made to the whole source, leads to the line that both the report and
the terminal show for it. -/
theorem Suggestion.shown_as_applied {source : String} {s : Suggestion} {mid : List Char}
    (hsize : source.utf8ByteSize < UInt32.size - 1)
    (hspan : slice? s.span.start s.span.stop source.toList = some mid) (hmid : '\n' ∉ mid)
    (hreplacement : '\n' ∉ s.replacement.toList) :
    ∃ edited line, s.applied? source = some edited ∧ lineAt? edited s.span.start = some line ∧
      (∀ (ds : List Diagnostic) (file : String) (index : Nat) (d : Diagnostic),
        ds[index]? = some d → d.help.bind (·.suggestion) = some s →
          (Report.suggestionAt? index (Report.ofDiagnostics ds source file)).bind
            (·.get? "result_line") = some (.string line)) ∧
      (∀ (file : Option String) (d : Diagnostic), d.help.bind (·.suggestion) = some s →
        let page := Terminal.Page.ofSource source file
        let width := Terminal.widthOf page d
        let number := ((utf8 source.toList).take s.span.start).count lineFeed + 1
        let before := s.span.start - behindLastFeed ((utf8 source.toList).take s.span.start)
        (Terminal.format page d).toPlain =
          (Terminal.format page d.withoutSuggestion).toPlain ++
            (Terminal.gutterLine width ++ Terminal.numbered width number).toPlain ++ line ++ "\n" ++
            (Terminal.changeMarks width before s.replacement).toPlain) := by
  obtain ⟨front, back, hsource, hstart, hstop⟩ := slice?_eq_some_iff.1 hspan
  obtain ⟨above, first, rfl, hfirst, habove⟩ := exists_line_start front
  obtain ⟨last, below, rfl, hlast, hbelow⟩ := exists_line_stop back
  have hoffset : byteLength (above ++ first) < LineMap.offsetModulus := by
    have hlength : byteLength source.toList < UInt32.size - 1 := by rwa [byteLength_toList]
    rw [hsource, byteLength_append, byteLength_append, byteLength_append] at hlength
    rw [byteLength_append, LineMap.offsetModulus]
    omega
  have hlength : s.span.length = byteLength mid := by rw [Span.length]; omega
  obtain rfl : source = String.ofList (above ++ (first ++ (mid ++ last)) ++ below) :=
    String.toList_inj.1 (by rw [hsource, String.toList_ofList]; simp)
  -- the line before the change, and the line after it
  have hold : Amid above (first ++ (mid ++ last)) below :=
    ⟨by simp [hfirst, hmid, hlast], habove, hbelow⟩
  have hnew : Amid above (first ++ (s.replacement.toList ++ last)) below :=
    ⟨by simp [hfirst, hreplacement, hlast], habove, hbelow⟩
  have hplace :
      (SourceView.ofSource (String.ofList (above ++ (first ++ (mid ++ last)) ++ below))).position
        (byteLength (above ++ first)) = ⟨above.count '\n' + 1, byteLength first + 1⟩ :=
    hold.position hoffset
  have hcut : EditedLine.cut (String.ofList (first ++ (mid ++ last))) (byteLength first + 1)
      s.span.length = ⟨String.ofList first, byteLength first, String.ofList last⟩ := by
    rw [hlength]
    exact EditedLine.cut_append first mid last
  have hfill := EditedLine.fill_ofList first last (byteLength first) s.replacement
  have happlied : s.applied? (String.ofList (above ++ (first ++ (mid ++ last)) ++ below)) =
      some (String.ofList (above ++ (first ++ (s.replacement.toList ++ last)) ++ below)) := by
    have hbehind : byteLength (above ++ first ++ mid) = s.span.stop := by
      rw [byteLength_append]
      omega
    have happlied := @applied?_append s _ mid (last ++ below) hstart hbehind
    simpa only [List.append_assoc] using happlied
  rw [hstart] at hplace
  refine ⟨_, _, happlied, hstart ▸ hnew.lineAt?, fun ds file index d hindex hs => ?_,
    fun file d hs => ?_⟩
  · rw [Report.result_line_ofDiagnostics _ file hindex hs,
      Report.resultLine_eq hplace hold.lineText? hcut, hfill]
  · have hcount := hold.count_take
    have hbehind := hold.behindLastFeed_take
    have hbefore : byteLength (above ++ first) - byteLength above = byteLength first := by
      rw [byteLength_append, Nat.add_sub_cancel_left]
    show StyledText.toPlain _ = _
    rw [Terminal.format_eq _ hs, StyledText.toPlain_append, Terminal.view_ofSource,
      Terminal.toPlain_changedLine _ hplace hold.lineText? hcut, hfill, String.toList_ofList,
      ← hstart, hcount, hbehind, hbefore]
    simp only [String.append_assoc]

/-- Two bytes of an `é` are changed on the last line, which no line feed ends. -/
theorem Suggestion.shown_as_applied_two_bytes :
    (Report.suggestionAt? 0 (Report.ofDiagnostics
        [((Diagnostic.ofMessage .error "m").withHelp "h").withSuggestion ⟨3, 5⟩ "ü"]
        "a\nxéy" "f")).bind (·.get? "result_line") = some (.string "xüy") := by
  obtain ⟨edited, line, happlied, hline, hreport, -⟩ :=
    @Suggestion.shown_as_applied "a\nxéy" ⟨⟨3, 5⟩, "ü"⟩ ['é'] (by decide) (by decide) (by decide)
      (by decide)
  have hedited : edited = "a\nxüy" := Option.some.inj (happlied.symm.trans (by decide))
  subst hedited
  have hshown : line = "xüy" := Option.some.inj (hline.symm.trans (by decide))
  subst hshown
  exact hreport _ "f" 0 _ rfl rfl

end ActorFrontend
