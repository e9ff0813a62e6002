import ActorFrontend.Diagnostic.Basic
import ActorFrontend.Diagnostic.Styled
import ActorFrontend.Diagnostic.View

/-!
# Diagnostics in a terminal

A diagnostic is shown as a header, the source lines that its labels start on, each with a row of
marks under it, and its notes and advice.  The lines are set off by a gutter with their numbers.
-/

namespace ActorFrontend.Terminal

open StyledText

/-- A source, and the name under which it is shown. -/
structure Page where
  view : SourceView
  fileName : String

def Page.ofSource (source : String) (fileName : Option String) : Page :=
  ⟨.ofSource source, fileName.getD "<source>"⟩

/-- A label on the line that it starts on, its columns being counted in bytes from 1. -/
structure Annotation where
  startColumn : Nat
  /-- The column behind the last one marked. -/
  stopColumn : Nat
  style : LabelStyle
  message : Option String
  deriving DecidableEq, Repr

/-- A source line with what is noted on it. -/
structure AnnotatedLine where
  number : Nat
  text : String
  annotations : List Annotation
  deriving DecidableEq, Repr

def blanks (n : Nat) : String := String.ofList (List.replicate n ' ')

/-- A text filled up with blanks on the left. -/
def padLeft (width : Nat) (text : String) : String := blanks (width - text.length) ++ text

/-! ## Labels and lines -/

/-- The line of a label and its annotation there.  At least one column is marked; a label that
ends on another line marks the rest of its first line. -/
def annotate (view : SourceView) (label : Label) : Nat × Annotation :=
  let first := view.position label.span.start
  let last := view.position label.span.stop
  let text := (view.lineText? first.line).getD ""
  let stop :=
    if last.line = first.line then last.column else Source.byteLength text.toList + 1
  (first.line,
    { startColumn := first.column
      stopColumn := max stop (first.column + 1)
      style := label.style
      message := label.message })

/-- The lines on which labels start, in order, with their annotations. -/
def annotatedLines (view : SourceView) (labels : List Label) : List AnnotatedLine :=
  let notes := labels.map (annotate view)
  let numbers := (notes.map (·.1)).mergeSort.eraseDups
  numbers.map fun number =>
    { number
      text := (view.lineText? number).getD ""
      annotations := (notes.filter (·.1 == number)).map (·.2) }

/-! ## Marks -/

/-- Primary labels come first. -/
def rank : LabelStyle → Nat
  | .primary => 0
  | .secondary => 1

def mark : LabelStyle → Char
  | .primary => '^'
  | .secondary => '-'

/-- Annotations by style and then by column. -/
def inOrder (annotations : List Annotation) : List Annotation :=
  annotations.mergeSort fun a b =>
    decide (rank a.style < rank b.style ∨
      rank a.style = rank b.style ∧ a.startColumn ≤ b.startColumn)

/-- Marks the columns of an annotation in a row. -/
def paint (row : List Char) (a : Annotation) : List Char :=
  row.mapIdx fun i c => if a.startColumn ≤ i + 1 ∧ i + 1 < a.stopColumn then mark a.style else c

/-- The row of marks under a line, one place for every byte of it and one more at least.  Later
annotations are painted over earlier ones. -/
def markRow (text : String) (ordered : List Annotation) : List Char :=
  let width := ordered.foldl (fun width a => max width a.stopColumn)
    (Source.byteLength text.toList + 1)
  ordered.foldl paint (List.replicate width ' ')

/-- A row without the blanks at its end. -/
def trimRow (row : List Char) : List Char := (row.reverse.dropWhile (· == ' ')).reverse

/-- Colours a run of equal marks. -/
def styleMarks (run : List Char) : StyledText :=
  match run with
  | '^' :: _ => boldColoured .red (String.ofList run)
  | '-' :: _ => coloured .blue (String.ofList run)
  | _ => plain (String.ofList run)

/-- Colours a row of marks, run by run. -/
def styleRow (row : List Char) : StyledText :=
  ((row.splitBy fun a b => a == b).map styleMarks).flatten

/-- A text in the colour of its label. -/
def styleAs (style : LabelStyle) (text : String) : StyledText :=
  match style with
  | .primary => boldColoured .red text
  | .secondary => coloured .blue text

/-! ## The gutter -/

/-- A gutter without a line number. -/
def gutter (width : Nat) : StyledText := plain (blanks width ++ " ") ++ coloured .blue "|"

/-- A gutter line of its own. -/
def gutterLine (width : Nat) : StyledText := gutter width ++ plain "\n"

/-- A gutter with a line number, and the blank after it. -/
def numbered (width number : Nat) : StyledText :=
  boldColoured .blue (padLeft width (toString number)) ++ plain " " ++ coloured .blue "|" ++
    plain " "

/-- The rows under a line: its marks with the remark if there is one, or its marks and then every
remark under the place where its label starts, from right to left. -/
def markLines (width : Nat) (line : AnnotatedLine) : StyledText :=
  let ordered := inOrder line.annotations
  let row := gutter width ++ plain " " ++ styleRow (trimRow (markRow line.text ordered))
  let remarks := ordered.filterMap fun a => a.message.map fun message => (a, message)
  match remarks.mergeSort fun a b => decide (b.1.startColumn ≤ a.1.startColumn) with
  | [] => row ++ plain "\n"
  | [(a, message)] => row ++ plain " " ++ styleAs a.style message ++ plain "\n"
  | several =>
      row ++ plain "\n" ++ several.flatMap fun (a, message) =>
        gutter width ++ plain (" " ++ blanks (a.startColumn - 1)) ++ styleAs a.style "|" ++
          plain " " ++ styleAs a.style message ++ plain "\n"

/-- Source lines with their marks.  Dots stand for lines left out after the line `previous`. -/
def lineRows (width : Nat) : Option Nat → List AnnotatedLine → StyledText
  | _, [] => []
  | previous, line :: lines =>
      let gap := match previous with
        | some previous => decide (previous + 1 < line.number)
        | none => false
      (if gap then plain (blanks width ++ " ") ++ coloured .blue "..." ++ plain "\n" else []) ++
        numbered width line.number ++ plain (line.text ++ "\n") ++ markLines width line ++
        lineRows width (some line.number) lines

/-! ## Header and footer -/

def severityName : Severity → StyledText
  | .error => boldColoured .red "error"
  | .warning => boldColoured .yellow "warning"
  | .note => boldColoured .blue "note"

def header (d : Diagnostic) : StyledText :=
  let code := match d.code with
    | some code => plain "[" ++ boldColoured .red code ++ plain "]: "
    | none => plain ": "
  severityName d.severity ++ code ++ bold d.message ++ plain "\n"

/-- A line of the footer: what it is, and a text. -/
def footerLine (width : Nat) (what text : String) : StyledText :=
  plain (blanks width ++ " ") ++ coloured .cyan "=" ++ plain " " ++ boldColoured .cyan what ++
    plain (": " ++ text ++ "\n")

/-- The line that a change leads to, with the new text marked; nothing, if the change is on no
line of the source. -/
def changedLine (view : SourceView) (width : Nat) (s : Suggestion) : StyledText :=
  let place := view.position s.span.start
  match view.lineText? place.line with
  | none => []
  | some text =>
      let edit := EditedLine.cut text place.column s.span.length
      let marks := List.replicate (max (Source.byteLength s.replacement.toList) 1) '~'
      gutterLine width ++
        numbered width place.line ++ plain edit.before ++ coloured .green s.replacement ++
        plain (edit.after ++ "\n") ++
        gutter width ++ plain (" " ++ blanks edit.beforeLength) ++
        coloured .green (String.ofList marks) ++ plain "\n"

def helpLines (view : SourceView) (width : Nat) (help : Help) : StyledText :=
  footerLine width "help" help.message ++
    match help.suggestion with
    | none => []
    | some s => changedLine view width s

def footer (view : SourceView) (width : Nat) (d : Diagnostic) : StyledText :=
  d.notes.flatMap (footerLine width "note") ++
    match d.help with
    | none => []
    | some help => helpLines view width help

/-! ## Whole diagnostics -/

/-- Where the diagnostic points to: file, line and column. -/
def locationLine (page : Page) (offset : Nat) : StyledText :=
  let place := page.view.position offset
  plain "  " ++ coloured .blue "-->" ++
    plain (" " ++ page.fileName) ++ plain (":" ++ toString place.line) ++
    plain (":" ++ toString place.column ++ "\n")

/-- The width of the gutter: that of the last line number, but two places at least. -/
def gutterWidth (lines : List AnnotatedLine) : Nat :=
  max (toString (lines.getLast?.elim 1 (·.number))).length 2

/-- A diagnostic as it is shown.  Without labels no source is shown. -/
def format (page : Page) (d : Diagnostic) : StyledText :=
  header d ++
    match d.primarySpan? with
    | none => footer page.view 2 d
    | some span =>
        let lines := annotatedLines page.view d.labels
        let width := gutterWidth lines
        locationLine page span.start ++ gutterLine width ++ lineRows width none lines ++
          (if d.notes.isEmpty && d.help.isNone then [] else gutterLine width) ++
          footer page.view width d

/-- Several diagnostics, with blank lines between them. -/
def render (page : Page) (ds : List Diagnostic) : StyledText :=
  ((ds.map (format page)).intersperse (plain "\n")).flatten

end ActorFrontend.Terminal
