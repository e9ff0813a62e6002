import ActorFrontend.Source.LineMap
import ActorFrontend.Source.Span

/-!
# The source that diagnostics point into

Positions, lines, and lines as they look after a change.
-/

namespace ActorFrontend

/-- A source with its line map. -/
structure SourceView where
  source : String
  lines : LineMap

namespace SourceView

def ofSource (source : String) : SourceView := ⟨source, .ofSource source⟩

def position (v : SourceView) (offset : Nat) : Position := v.lines.position offset

/-- The text of a line; lines are counted in 32 bits. -/
def lineText? (v : SourceView) (line : Nat) : Option String := v.lines.lineText? v.source line

end SourceView

/-- A line on both sides of a change. -/
structure EditedLine where
  before : String
  /-- The number of bytes before the change. -/
  beforeLength : Nat
  after : String
  deriving DecidableEq, Repr

namespace EditedLine

/-- The two sides of a change that takes so many bytes out from the column on.  A change beyond
the end of the line happens at its end. -/
def cut (line : String) (column length : Nat) : EditedLine :=
  let chars := line.toList
  let size := Source.byteLength chars
  let start := min (column - 1) size
  let stop := min (start + length) size
  { before := ((Source.takeBytes? start chars).map String.ofList).getD line
    beforeLength := start
    after := ((Source.dropBytes? stop chars).map String.ofList).getD "" }

/-- The line with a text put in. -/
def fill (e : EditedLine) (replacement : String) : String := e.before ++ replacement ++ e.after

end EditedLine

end ActorFrontend
