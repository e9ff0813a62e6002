import ActorFrontend.Source.Span

/-!
# Lexical errors

What can be wrong with the characters of a source, and how it is put to the reader.
-/

namespace ActorFrontend

/-- What is wrong with a piece of source text. -/
inductive LexicalCause where
  | unexpectedChar (c : Char)
  | unterminatedString
  | unterminatedBlockComment
  | unterminatedInterpolation
  /-- The backslash and the character after it, if there is one. -/
  | invalidEscape (sequence : String)
  | invalidNumber
  deriving DecidableEq, Repr

namespace LexicalCause

def message : LexicalCause → String
  | .unexpectedChar c => "Unexpected character '" ++ c.toString ++ "'"
  | .unterminatedString => "Unterminated string"
  | .unterminatedBlockComment => "Unterminated block comment"
  | .unterminatedInterpolation => "Unterminated interpolation in string"
  | .invalidEscape sequence => "Invalid escape sequence '" ++ sequence ++ "'"
  | .invalidNumber => "Invalid number"

/-- Advice on mending the error. -/
def hint? : LexicalCause → Option String
  | .unexpectedChar _ => none
  | .unterminatedString => some "Add a closing '\"'"
  | .unterminatedBlockComment => some "Add '*/' to close the comment"
  | .unterminatedInterpolation => some "Close the interpolation with '\x7d'"
  | .invalidEscape _ => some "Valid: \\n \\r \\t \\\\ \\\" \\0 \\xHH"
  | .invalidNumber => some "Integers must fit in 64 bits; hex and binary need at least one digit"

end LexicalCause

/-- A lexical error and the text it is about. -/
structure LexicalError where
  cause : LexicalCause
  span : Span
  deriving DecidableEq, Repr

end ActorFrontend
