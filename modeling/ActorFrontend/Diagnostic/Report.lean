import ActorFrontend.Diagnostic.Basic
import ActorFrontend.Diagnostic.Code
import ActorFrontend.Diagnostic.Json
import ActorFrontend.Diagnostic.View

/-!
# Reports for tools

All diagnostics of a file as one structured value.  Places are given as lines and columns beside
the byte offsets, with the source line; a change comes with the line that it leads to.
-/

namespace ActorFrontend

namespace Severity

def text : Severity → String
  | .error => "error"
  | .warning => "warning"
  | .note => "note"

end Severity

namespace LabelStyle

def text : LabelStyle → String
  | .primary => "primary"
  | .secondary => "secondary"

end LabelStyle

namespace Report

/-- The version of the form of reports. -/
def version : Nat := 1

/-- A member that is left out where there is no value. -/
def member? (key : String) (value : Option JsonValue) : List (String × JsonValue) :=
  (value.map fun value => (key, value)).toList

/-- The members that give the position of an offset. -/
def positionMembers (view : SourceView) (offset : Nat) : List (String × JsonValue) :=
  let place := view.position offset
  [("line", .number place.line), ("column", .number place.column),
   ("byte_offset", .number offset)]

/-- The text of a line; a line that the source does not have is empty. -/
def lineText (view : SourceView) (line : Nat) : String := (view.lineText? line).getD ""

/-- The place that a diagnostic is about. -/
def location (view : SourceView) (span : Span) : JsonValue :=
  .object (positionMembers view span.start ++
    [("source_line", .string (lineText view (view.position span.start).line))])

def label (view : SourceView) (l : Label) : JsonValue :=
  .object ([("role", .string l.style.text)] ++ member? "message" (l.message.map .string) ++
    [("start", .object (positionMembers view l.span.start)),
     ("end", .object (positionMembers view l.span.stop))])

def span (s : Span) : JsonValue := .object [("start", .number s.start), ("end", .number s.stop)]

/-- The line that a change leads to. -/
def resultLine (view : SourceView) (s : Suggestion) : String :=
  let place := view.position s.span.start
  (EditedLine.cut (lineText view place.line) place.column s.span.length).fill s.replacement

def suggestion (view : SourceView) (s : Suggestion) : JsonValue :=
  .object [("span", span s.span), ("replacement", .string s.replacement),
    ("result_line", .string (resultLine view s))]

/-- The category of a diagnostic, if its code is a known one. -/
def category? (d : Diagnostic) : Option String :=
  (d.code.bind CodeInfo.find?).map (·.category.text)

def diagnostic (view : SourceView) (d : Diagnostic) : JsonValue :=
  .object ([("severity", .string d.severity.text)] ++
    member? "code" (d.code.map .string) ++
    member? "category" ((category? d).map .string) ++
    [("message", .string d.message)] ++
    member? "location" (d.primarySpan?.map (location view)) ++
    [("labels", .array (d.labels.map (label view)))] ++
    (if d.notes.isEmpty then [] else [("notes", .array (d.notes.map .string))]) ++
    member? "help" (d.help.map fun help => .string help.message) ++
    member? "suggestion" ((d.help.bind (·.suggestion)).map (suggestion view)))

/-- The report of a file.  It is a success if no diagnostic is an error. -/
def ofDiagnostics (ds : List Diagnostic) (source file : String) : JsonValue :=
  let view := SourceView.ofSource source
  let errors := ds.countP (·.severity == .error)
  let warnings := ds.countP (·.severity == .warning)
  .object [("version", .number version), ("file", .string file), ("success", .bool (errors == 0)),
    ("diagnostics", .array (ds.map (diagnostic view))), ("error_count", .number errors),
    ("warning_count", .number warnings)]

end Report

end ActorFrontend
