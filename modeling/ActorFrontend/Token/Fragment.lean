import ActorFrontend.Token.Basic

/-!
# The bodies of string literals

A string literal ends at its closing quote, or, left open, at the end of its line.  In an
interpolated string an opening brace starts a splice, which ends at the matching closing brace;
a splice may hold strings and braces of its own, but no line feed outside the escapes of those
strings.  A splice left open ends the whole literal.
-/

namespace ActorFrontend

/-- A closing delimiter, if it is there. -/
def closing (delimiter : Char) : Bool → List Char
  | true => [delimiter]
  | false => []

/-- A piece of the body of an interpolated string, as written. -/
inductive Piece where
  | text (chars : List Char)
  /-- The characters between the braces; `closed` tells whether the closing brace is there. -/
  | splice (chars : List Char) (closed : Bool)
  deriving DecidableEq, Repr

namespace Piece

/-- The source text of the piece, its braces included. -/
def source : Piece → List Char
  | .text chars => chars
  | .splice chars closed => '{' :: chars ++ closing '}' closed

end Piece

/-- A string body that has been read: its pieces, whether the closing quote was found, and the
characters after it. -/
structure Body where
  pieces : List Piece
  closed : Bool
  rest : List Char
  deriving DecidableEq, Repr

namespace Body

/-- A body without text, left open before `rest`. -/
def cutOff (rest : List Char) : Body := ⟨[], false, rest⟩

/-- Puts literal text in front of a body; text next to text is one piece. -/
def consText (c : Char) (b : Body) : Body :=
  match b.pieces with
  | .text chars :: pieces => { b with pieces := .text (c :: chars) :: pieces }
  | pieces => { b with pieces := .text [c] :: pieces }

/-- Puts a character in front of the splice that a body starts with. -/
def consSplice (c : Char) (b : Body) : Body :=
  match b.pieces with
  | .splice chars closed :: pieces => { b with pieces := .splice (c :: chars) closed :: pieces }
  | _ => b

/-- Starts a splice that ends here, at its closing brace or for want of one. -/
def endSplice (closed : Bool) (b : Body) : Body :=
  { b with pieces := .splice [] closed :: b.pieces }

/-- The source text of a body, without the quotes. -/
def source (b : Body) : List Char := b.pieces.flatMap Piece.source

end Body

/-- Reads the body of a plain string literal.  A backslash hides the character after it, except
a line feed. -/
def plainBody : List Char → List Char × Bool × List Char
  | [] => ([], false, [])
  | '"' :: cs => ([], true, cs)
  | '\n' :: cs => ([], false, '\n' :: cs)
  | '\\' :: '\n' :: cs => (['\\'], false, '\n' :: cs)
  | '\\' :: c :: cs =>
      let (body, closed, rest) := plainBody cs
      ('\\' :: c :: body, closed, rest)
  | c :: cs =>
      let (body, closed, rest) := plainBody cs
      (c :: body, closed, rest)

/-- Where in the body of an interpolated string a character stands. -/
inductive Region where
  /-- In literal text. -/
  | text
  /-- In a splice, within as many further braces. -/
  | splice (depth : Nat)
  /-- In a string inside a splice. -/
  | quoted (depth : Nat)
  deriving DecidableEq, Repr

/-- Reads the body of an interpolated string from a point inside `region` on.  In literal text a
backslash hides the character after it, except a line feed; in a string inside a splice it hides
any character. -/
def interpolatedBody : Region → List Char → Body
  | .text, [] => .cutOff []
  | .text, '"' :: cs => ⟨[], true, cs⟩
  | .text, '\n' :: cs => .cutOff ('\n' :: cs)
  | .text, '\\' :: '\n' :: cs => .consText '\\' (.cutOff ('\n' :: cs))
  | .text, '\\' :: c :: cs => .consText '\\' (.consText c (interpolatedBody .text cs))
  | .text, '{' :: cs => interpolatedBody (.splice 0) cs
  | .text, c :: cs => .consText c (interpolatedBody .text cs)
  | .splice _, [] => .endSplice false (.cutOff [])
  | .splice _, '\n' :: cs => .endSplice false (.cutOff ('\n' :: cs))
  | .splice depth, '"' :: cs => .consSplice '"' (interpolatedBody (.quoted depth) cs)
  | .splice depth, '{' :: cs => .consSplice '{' (interpolatedBody (.splice (depth + 1)) cs)
  | .splice 0, '}' :: cs => .endSplice true (interpolatedBody .text cs)
  | .splice (depth + 1), '}' :: cs => .consSplice '}' (interpolatedBody (.splice depth) cs)
  | .splice depth, c :: cs => .consSplice c (interpolatedBody (.splice depth) cs)
  | .quoted _, [] => .endSplice false (.cutOff [])
  | .quoted _, '\n' :: cs => .endSplice false (.cutOff ('\n' :: cs))
  | .quoted depth, '"' :: cs => .consSplice '"' (interpolatedBody (.splice depth) cs)
  | .quoted _, ['\\'] => .consSplice '\\' (.endSplice false (.cutOff []))
  | .quoted depth, '\\' :: c :: cs =>
      .consSplice '\\' (.consSplice c (interpolatedBody (.quoted depth) cs))
  | .quoted depth, c :: cs => .consSplice c (interpolatedBody (.quoted depth) cs)

/-! ## Nothing is lost -/

/-- Reading a plain body loses nothing. -/
theorem plainBody_append (cs : List Char) :
    (plainBody cs).1 ++ (closing '"' (plainBody cs).2.1 ++ (plainBody cs).2.2) = cs := by
  fun_induction plainBody cs <;> simp_all [closing]

namespace Body

/-- All that a body was read from: its pieces, its closing quote and what follows. -/
def whole (b : Body) : List Char := b.source ++ (closing '"' b.closed ++ b.rest)

/-- The body starts with a splice, and what it was read from goes on after the opening brace
with the given characters. -/
def OpensOn (cs : List Char) (b : Body) : Prop :=
  b.whole = '{' :: cs ∧ ∃ chars closed pieces, b.pieces = .splice chars closed :: pieces

theorem whole_cutOff (rest : List Char) : (cutOff rest).whole = rest := by
  simp [cutOff, whole, source, closing]

theorem whole_closed (rest : List Char) : (⟨[], true, rest⟩ : Body).whole = '"' :: rest := by
  simp [whole, source, closing]

theorem whole_consText (c : Char) (b : Body) : (b.consText c).whole = c :: b.whole := by
  obtain ⟨pieces, closed, rest⟩ := b
  unfold consText
  split <;> simp_all [whole, source, Piece.source]

theorem opensOn_cutOff (rest : List Char) : ((cutOff rest).endSplice false).OpensOn rest :=
  ⟨by simp [endSplice, cutOff, whole, source, Piece.source, closing], _, _, _, rfl⟩

theorem opensOn_endSplice {b : Body} {cs : List Char} (h : b.whole = cs) :
    (b.endSplice true).OpensOn ('}' :: cs) :=
  ⟨by simp [← h, endSplice, whole, source, Piece.source, closing], _, _, _, rfl⟩

theorem OpensOn.consSplice {b : Body} {cs : List Char} (h : b.OpensOn cs) (c : Char) :
    (b.consSplice c).OpensOn (c :: cs) := by
  obtain ⟨pieces, closed, rest⟩ := b
  obtain ⟨hw, chars, ended, pieces, rfl⟩ := h
  exact ⟨by simp_all [Body.consSplice, whole, source, Piece.source], _, _, _, rfl⟩

end Body

/-- What a body read from `cs` on inside a region accounts for: `cs`, and the brace that opened
the splice if the region lies in one. -/
def Region.Accounts (cs : List Char) (b : Body) : Region → Prop
  | .text => b.whole = cs
  | .splice _ | .quoted _ => b.OpensOn cs

/-- Reading the body of an interpolated string loses nothing. -/
theorem accounts_interpolatedBody (r : Region) (cs : List Char) :
    r.Accounts cs (interpolatedBody r cs) := by
  fun_induction interpolatedBody r cs <;>
    grind [Region.Accounts, Body.OpensOn.consSplice, Body.opensOn_cutOff, Body.opensOn_endSplice,
      Body.whole_cutOff, Body.whole_closed, Body.whole_consText, Body.OpensOn]

end ActorFrontend
