import ActorFrontend.Number.Integer
import ActorFrontend.Token.Error

/-!
# Escapes in string literals

A backslash and the characters after it stand for one character.  A sequence that stands for
nothing is reported and kept as it is written.
-/

namespace ActorFrontend.Escape

/-- The character that a backslash and `c` stand for.  Braces are escaped only in interpolated
strings, where they would otherwise open and close a splice. -/
def simple? (interpolated : Bool) (c : Char) : Option Char :=
  match c with
  | 'n' => some '\n'
  | 'r' => some '\r'
  | 't' => some '\t'
  | '\\' => some '\\'
  | '"' => some '"'
  | '0' => some '\x00'
  | '{' | '}' => if interpolated then some c else none
  | _ => none

/-- The character whose number is written by two hexadecimal digits. -/
def hex? (high low : Char) : Option Char :=
  (Radix.hexValue? high).bind fun h => (Radix.hexValue? low).map fun l => Char.ofNat (16 * h + l)

/-- The error for a sequence at `offset` that stands for nothing. -/
def invalid (offset : Nat) (sequence : List Char) : LexicalError :=
  ⟨.invalidEscape (String.ofList sequence), offset, offset + Source.byteLength sequence⟩

/-- Decoded text and the errors met on the way. -/
abbrev Decoded := List Char × List LexicalError

/-- Puts a character in front of decoded text. -/
def Decoded.cons (c : Char) (d : Decoded) : Decoded := (c :: d.1, d.2)

/-- Puts a sequence that stands for nothing, found at `offset`, in front of decoded text. -/
def Decoded.keep (offset : Nat) (sequence : List Char) (d : Decoded) : Decoded :=
  (sequence ++ d.1, invalid offset sequence :: d.2)

/-- Decodes the text of a string literal that starts at `offset`.  Two hexadecimal digits must
follow `\x`; where they do not, only the backslash and the `x` are at fault. -/
def decode (interpolated : Bool) : Nat → List Char → Decoded
  | _, [] => ([], [])
  | offset, ['\\'] => Decoded.keep offset ['\\'] ([], [])
  | offset, '\\' :: 'x' :: high :: low :: cs =>
      match hex? high low with
      | some c => Decoded.cons c (decode interpolated (offset + 4) cs)
      | none =>
          Decoded.keep offset ['\\', 'x'] (decode interpolated (offset + 2) (high :: low :: cs))
  | offset, '\\' :: c :: cs =>
      let next := offset + 1 + c.utf8Size
      match simple? interpolated c with
      | some d => Decoded.cons d (decode interpolated next cs)
      | none => Decoded.keep offset ['\\', c] (decode interpolated next cs)
  | offset, c :: cs => Decoded.cons c (decode interpolated (offset + c.utf8Size) cs)

end ActorFrontend.Escape
