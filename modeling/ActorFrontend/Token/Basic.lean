import ActorFrontend.Number.Binary64
import ActorFrontend.Source.Span
import ActorFrontend.Token.Keyword
import ActorFrontend.Token.Symbol

/-!
# Tokens

A token is a piece of source text together with what it means.  White space, comments and
characters that begin no token are tokens too, so the texts of all tokens of a source make up
the source.  An interpolated string carries its fragments, and the tokens of the expressions
spliced into it.
-/

namespace ActorFrontend

mutual

/-- A piece of source text with its meaning and its place. -/
structure Token where
  kind : TokenKind
  text : String
  span : Span

/-- What a token means. -/
inductive TokenKind where
  | int (value : UInt64)
  | float (value : Binary64)
  /-- A string literal, its escapes decoded. -/
  | string (value : String)
  /-- A string literal with expressions spliced into it. -/
  | interpolated (fragments : List Fragment)
  | bool (value : Bool)
  | ident (name : String)
  /-- The name of a loop; the quote before it is not part of the name. -/
  | label (name : String)
  | keyword (keyword : Keyword)
  | symbol (symbol : Symbol)
  | whitespace
  | lineComment
  | blockComment
  /-- A character that begins no token; always reported as an error as well. -/
  | unknown
  | endOfFile

/-- A part of an interpolated string. -/
inductive Fragment where
  /-- Literal text, its escapes decoded; the span covers the text as written. -/
  | text (value : String) (span : Span)
  /-- The tokens between a pair of braces; the span leaves the braces out. -/
  | splice (tokens : List Token) (span : Span)

end

namespace TokenKind

/-- Tokens that the grammar passes over. -/
def isTrivia : TokenKind → Bool
  | .whitespace | .lineComment | .blockComment | .unknown => true
  | _ => false

/-- How messages name a token of this kind. -/
def displayName : TokenKind → String
  | .int _ | .float _ => "a number"
  | .string _ => "a string"
  | .interpolated _ => "an interpolated string"
  | .bool _ => "'true' or 'false'"
  | .ident _ => "a name"
  | .label _ => "a label"
  | .keyword k => k.displayName
  | .symbol s => s.displayName
  | .whitespace => "whitespace"
  | .lineComment | .blockComment => "a comment"
  | .unknown => "an unknown character"
  | .endOfFile => "end of file"

def isEndOfFile : TokenKind → Bool
  | .endOfFile => true
  | _ => false

def isSymbol (s : Symbol) : TokenKind → Bool
  | .symbol t => t == s
  | _ => false

def isKeyword (k : Keyword) : TokenKind → Bool
  | .keyword l => l == k
  | _ => false

/-- Any name at all. -/
def isName : TokenKind → Bool
  | .ident _ => true
  | _ => false

/-- The given name, as words are recognised that mean something only in certain places. -/
def isWord (word : String) : TokenKind → Bool
  | .ident name => name == word
  | _ => false

end TokenKind

namespace Token

def isTrivia (t : Token) : Bool := t.kind.isTrivia

/-- The keyword that the token is, if it is one. -/
def keyword? (t : Token) : Option Keyword :=
  match t.kind with
  | .keyword k => some k
  | _ => none

def hasLineBreak (t : Token) : Bool := t.text.toList.any (· == '\n')

end Token

end ActorFrontend
