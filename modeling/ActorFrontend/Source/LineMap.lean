import ActorFrontend.Source.Bytes

/-!
# Lines and columns

A line map answers on which line a byte offset lies and what text a line holds.  Lines are
separated by line feeds; lines and columns count from 1, columns in bytes.
-/

namespace ActorFrontend

/-- A line and a column, both counted from 1. -/
structure Position where
  line : Nat
  column : Nat
  deriving DecidableEq, Repr

/-- The offsets at which the lines of a text start.  The first line starts at 0, and the starts
of the others are kept in order. -/
structure LineMap where
  laterStarts : List Nat
  deriving DecidableEq, Repr

namespace LineMap

/-- The offsets just after the line feeds of a text whose first byte is at `offset`. -/
def startsAfter : Nat → List Char → List Nat
  | _, [] => []
  | offset, c :: cs =>
      let next := offset + c.utf8Size
      if c = '\n' then next :: startsAfter next cs else startsAfter next cs

def ofSource (source : String) : LineMap := ⟨startsAfter 0 source.toList⟩

/-- All line starts, the first line's included. -/
def starts (m : LineMap) : List Nat := 0 :: m.laterStarts

/-- A text of `n` line feeds has `n + 1` lines. -/
def lineCount (m : LineMap) : Nat := m.starts.length

/-- Offsets are counted in 32 bits. -/
def offsetModulus : Nat := UInt32.size

/-- The position of an offset: its line is the last one that starts at or before it, and the
columns of that line go on past its end. -/
def position (m : LineMap) (offset : Nat) : Position :=
  let offset := offset % offsetModulus
  let begun := m.laterStarts.takeWhile (· ≤ offset)
  ⟨begun.length + 1, offset - begun.getLastD 0 + 1⟩

/-- The text of a line, without its line feed. -/
def lineText? (m : LineMap) (source : String) (line : Nat) : Option String :=
  if line = 0 then none
  else
    (m.starts[line - 1]?).bind fun start =>
      let stop := match m.starts[line]? with
        | some next => next - 1
        | none => Source.byteLength source.toList
      (Source.slice? start stop source.toList).map String.ofList

end LineMap

end ActorFrontend
