import ActorFrontend.Source.Bytes

/-!
# Spans

A span is a half-open range of byte offsets in one source text.
-/

namespace ActorFrontend

/-- The bytes from `start` up to, not including, `stop`. -/
structure Span where
  start : Nat
  stop : Nat
  deriving DecidableEq, Repr, Inhabited

namespace Span

/-- The span of no bytes at `offset`. -/
def empty (offset : Nat) : Span := ⟨offset, offset⟩

/-- The smallest span that covers both. -/
def cover (a b : Span) : Span := ⟨min a.start b.start, max a.stop b.stop⟩

/-- Whether `b` lies entirely within `a`. -/
def contains (a b : Span) : Bool := decide (a.start ≤ b.start) && decide (b.stop ≤ a.stop)

/-- The number of bytes covered. -/
def length (s : Span) : Nat := s.stop - s.start

def isEmpty (s : Span) : Bool := s.start == s.stop

/-- The same range, `n` bytes further on. -/
def shift (n : Nat) (s : Span) : Span := ⟨s.start + n, s.stop + n⟩

/-- The text covered by the span; a range that is not made of whole characters of the source
covers no text. -/
def slice (s : Span) (source : String) : String :=
  String.ofList ((Source.slice? s.start s.stop source.toList).getD [])

end Span

end ActorFrontend
