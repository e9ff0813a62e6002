import ActorFrontend.Diagnostic.Basic
import ActorFrontend.Grammar.Source

/-!
# Diagnostics for errors

Every error has one code and marks one place.
-/

namespace ActorFrontend

/-- The code of a lexical error, and what its label says. -/
def LexicalCause.codeAndLabel : LexicalCause → String × String
  | .unexpectedChar _ => ("E0001", "unexpected character")
  | .unterminatedString => ("E0002", "string starts here")
  | .invalidEscape _ => ("E0003", "invalid escape")
  | .invalidNumber => ("E0004", "invalid number")
  | .unterminatedBlockComment => ("E0005", "comment starts here")
  | .unterminatedInterpolation => ("E0006", "interpolation starts here")

/-- The code of a parse error, and what its label says. -/
def ParseErrorKind.codeAndLabel : ParseErrorKind → String × String
  | .unexpectedToken => ("E0100", "unexpected token")
  | .missingToken => ("E0101", "expected here")
  | .tooDeep => ("E0102", "nested too deeply")
  | .duplicate => ("E0103", "second occurrence")

namespace Diagnostic

/-- An error with its code and its place. -/
def ofParts (message : String) (codeAndLabel : String × String) (span : Span) : Diagnostic :=
  ((ofMessage .error message).withCode codeAndLabel.1).withPrimary span codeAndLabel.2

/-- Advice, if there is any. -/
def withHint (hint : Option String) (d : Diagnostic) : Diagnostic :=
  match hint with
  | some hint => d.withHelp hint
  | none => d

def ofLexicalError (e : LexicalError) : Diagnostic :=
  (ofParts e.cause.message e.cause.codeAndLabel e.span).withHint e.cause.hint?

/-- An error for a semicolon that was left out comes with the change that puts it there. -/
def ofParseError (e : ParseError) : Diagnostic :=
  let d := ofParts e.cause.message e.cause.kind.codeAndLabel e.span
  let d := match e.cause.note? with
    | some note => d.withNote note
    | none => d
  let d := d.withHint e.cause.hint?
  match e.cause with
  | .missingSemicolon _ => d.withSuggestion e.span ";"
  | _ => d

def ofSyntaxError : SyntaxError → Diagnostic
  | .lexical e => ofLexicalError e
  | .parse e => ofParseError e

/-- The diagnostics of a source, in source order. -/
def ofSource (source : String) : List Diagnostic :=
  (parseSource source .standard).errors.map ofSyntaxError

end Diagnostic

end ActorFrontend
