import ActorFrontend.Diagnostic.Report
import ActorFrontend.Proofs.Checked.Positions

/-!
# Checked reports

The report of a file once more, its positions and the lines that its changes lead to being found by
checked arithmetic.  Every diagnostic whose spans fit is reported, wherever they lie.
-/

namespace ActorFrontend.Report

open Checked Source

/-- The members that give the position of an offset. -/
def positionMembers? (view : SourceView) (offset : Nat) : Option (List (String × JsonValue)) := do
  let place ← view.lines.position? offset
  return [("line", .number place.line), ("column", .number place.column),
    ("byte_offset", .number offset)]

/-- The place that a diagnostic is about. -/
def location? (view : SourceView) (span : Span) : Option JsonValue := do
  let members ← positionMembers? view span.start
  let place ← view.lines.position? span.start
  return .object (members ++ [("source_line", .string (lineText view place.line))])

def label? (view : SourceView) (l : Label) : Option JsonValue := do
  let start ← positionMembers? view l.span.start
  let stop ← positionMembers? view l.span.stop
  return .object ([("role", .string l.style.text)] ++ member? "message" (l.message.map .string) ++
    [("start", .object start), ("end", .object stop)])

/-- The line that a change leads to. -/
def resultLine? (view : SourceView) (s : Suggestion) : Option String := do
  let place ← view.lines.position? s.span.start
  let edit ← EditedLine.cut? (lineText view place.line) place.column s.span
  return edit.fill s.replacement

def suggestion? (view : SourceView) (s : Suggestion) : Option JsonValue := do
  let line ← resultLine? view s
  return .object [("span", span s.span), ("replacement", .string s.replacement),
    ("result_line", .string line)]

def diagnostic? (view : SourceView) (d : Diagnostic) : Option JsonValue := do
  let location ← d.primarySpan?.mapM (location? view)
  let labels ← d.labels.mapM (label? view)
  let suggestion ← (d.help.bind (·.suggestion)).mapM (suggestion? view)
  return .object ([("severity", .string d.severity.text)] ++
    member? "code" (d.code.map .string) ++
    member? "category" ((category? d).map .string) ++
    [("message", .string d.message)] ++
    member? "location" location ++
    [("labels", .array labels)] ++
    (if d.notes.isEmpty then [] else [("notes", .array (d.notes.map .string))]) ++
    member? "help" (d.help.map fun help => .string help.message) ++
    member? "suggestion" suggestion)

/-- The report of a file. -/
def ofDiagnostics? (ds : List Diagnostic) (source file : String) : Option JsonValue := do
  let diagnostics ← ds.mapM (diagnostic? (.ofSource source))
  let errors := ds.countP (·.severity == .error)
  let warnings := ds.countP (·.severity == .warning)
  return .object [("version", .number version), ("file", .string file),
    ("success", .bool (errors == 0)), ("diagnostics", .array diagnostics),
    ("error_count", .number errors), ("warning_count", .number warnings)]

section

variable {source : String} (hsize : byteLength source.toList < LineMap.offsetModulus - 1)

include hsize

theorem positionMembers?_eq {offset : Nat} (h : offset < LineMap.offsetModulus - 1) :
    positionMembers? (.ofSource source) offset =
      some (positionMembers (.ofSource source) offset) := by
  rw [positionMembers?, SourceView.position?_ofSource hsize h]
  rfl

theorem location?_eq {span : Span} (h : span.Fits) :
    location? (.ofSource source) span = some (location (.ofSource source) span) := by
  rw [location?, positionMembers?_eq hsize h.start, SourceView.position?_ofSource hsize h.start]
  rfl

theorem label?_eq {l : Label} (h : l.span.Fits) :
    label? (.ofSource source) l = some (label (.ofSource source) l) := by
  rw [label?, positionMembers?_eq hsize h.start, positionMembers?_eq hsize h.stop]
  rfl

theorem suggestion?_eq {s : Suggestion} (h : s.span.Fits) :
    suggestion? (.ofSource source) s = some (suggestion (.ofSource source) s) := by
  have hline : byteLength
      (lineText (.ofSource source) ((SourceView.ofSource source).position s.span.start).line).toList <
        LineMap.offsetModulus - 1 :=
    Nat.lt_of_le_of_lt (SourceView.byteLength_lineText_le _ _) hsize
  have hcut := EditedLine.cut?_eq h (SourceView.column_pos (.ofSource source) s.span.start) hline
  rw [suggestion?, resultLine?, SourceView.position?_ofSource hsize h.start]
  simp only [Option.bind_eq_bind, Option.bind_some, hcut]
  rfl

theorem diagnostic?_eq {d : Diagnostic} (h : d.Fits) :
    diagnostic? (.ofSource source) d = some (diagnostic (.ofSource source) d) := by
  have hlocation : d.primarySpan?.mapM (location? (.ofSource source)) =
      some (d.primarySpan?.map (location (.ofSource source))) :=
    mapM_option fun _ hspan => location?_eq hsize (h.primarySpan hspan)
  have hlabels : d.labels.mapM (label? (.ofSource source)) =
      some (d.labels.map (label (.ofSource source))) :=
    mapM_eq_map fun l hl => label?_eq hsize (h.labels l hl)
  have hsuggestion : (d.help.bind (·.suggestion)).mapM (suggestion? (.ofSource source)) =
      some ((d.help.bind (·.suggestion)).map (suggestion (.ofSource source))) :=
    mapM_option fun s hs => suggestion?_eq hsize (h.suggestion s hs)
  rw [diagnostic?, hlocation, hlabels, hsuggestion]
  rfl

/-- Diagnostics whose spans fit are reported. -/
theorem ofDiagnostics?_eq {ds : List Diagnostic} (h : ∀ d ∈ ds, d.Fits) (file : String) :
    ofDiagnostics? ds source file = some (ofDiagnostics ds source file) := by
  have hall : ds.mapM (diagnostic? (.ofSource source)) =
      some (ds.map (diagnostic (.ofSource source))) :=
    mapM_eq_map fun d hd => diagnostic?_eq hsize (h d hd)
  rw [ofDiagnostics?, hall]
  rfl

end

end ActorFrontend.Report
