import ActorFrontend.Grammar.Suggestion
import ActorFrontend.Token.Basic

/-!
# Parse errors

What can be wrong with a sequence of tokens.  An error holds its cause; the kind, the message,
the hint and the note that are shown follow from the cause.
-/

namespace ActorFrontend

/-- What the grammar wanted at a point where it found something else. -/
inductive Expected where
  | symbol (s : Symbol)
  | keyword (k : Keyword)
  /-- A name with a meaning at this place. -/
  | word (word : String)
  | name
  | string
  | integer
  | duration
  | expression
  | fieldName
  | type
  | pattern
  | item
  /-- The name of a trait, where another type was written before `for`. -/
  | traitName
  /-- The result type that a generator must have. -/
  | yieldType
  | wireKind
  | wireType
  | aliasOrFields
  | actorMember
  | overflowPolicy
  | fallbackPolicy
  | restartPolicy
  | restartStrategy
  | labelledLoop
  | armSeparator
  | scopeBody
  | scopeOperation
  | endOfInput
  deriving DecidableEq, Repr

namespace Expected

/-- How messages name what was wanted. -/
def describe : Expected → String
  | .symbol s => s.displayName
  | .keyword k => k.displayName
  | .word w => "'" ++ w ++ "'"
  | .name => "name"
  | .string => "a string"
  | .integer => "an integer"
  | .duration => "duration"
  | .expression => "expression"
  | .fieldName => "field name"
  | .type => "type"
  | .pattern => "pattern"
  | .item => "item"
  | .traitName => "trait name"
  | .yieldType => "'->'"
  | .wireKind => "'struct' or 'enum'"
  | .wireType => "wire type"
  | .aliasOrFields => "'=' or '\x7b'"
  | .actorMember => "actor member"
  | .overflowPolicy => "overflow policy"
  | .fallbackPolicy => "fallback policy"
  | .restartPolicy => "restart policy"
  | .restartStrategy => "restart strategy"
  | .labelledLoop => "'loop', 'for' or 'while' after a label"
  | .armSeparator => "',' or '\x7d'"
  | .scopeBody => "'\x7b' or '.'"
  | .scopeOperation => "'launch', 'cancel' or 'is_cancelled'"
  | .endOfInput => "end of input"

/-- The message for a token found in place of what was wanted. -/
def message (e : Expected) (found : TokenKind) : String :=
  match e, found with
  | .symbol .leftBrace, _ => "Expected '\x7b' to start block, found " ++ found.displayName
  | .symbol .rightBrace, .endOfFile => "Unclosed '\x7b' - missing '\x7d'"
  | .symbol .rightBrace, _ => "Expected '\x7d' to close block, found " ++ found.displayName
  | .symbol .rightParen, .endOfFile => "Unclosed '(' - missing ')'"
  | .symbol .rightBracket, .endOfFile => "Unclosed '[' - missing ']'"
  | _, _ => "Expected " ++ e.describe ++ ", found " ++ found.displayName

/-- The general advice to somebody who wanted to write a declaration. -/
def itemHint : String := "start with 'fn', 'struct', 'enum', 'actor', 'import', etc."

/-- Advice on what to write in place of the token found. -/
def hint? (e : Expected) (found : TokenKind) : Option String :=
  match e, found with
  | .symbol .colon, .symbol .eq => some "use ':' for types, '=' for values"
  | .symbol .colon, _ => some "syntax: name: Type"
  | .symbol .leftBrace, _ => some "blocks start with '\x7b'"
  | .symbol .rightBrace, _ => some "every '\x7b' needs a matching '\x7d'"
  | .symbol .leftParen, _ => some "parameter and argument lists need parentheses"
  | .symbol .rightParen, .endOfFile => some "add ')' to close the parenthesis"
  | .symbol .rightBracket, .endOfFile => some "add ']' to close the bracket"
  | .symbol .gt, _ => some "close the generic parameter list with '>'"
  | .symbol .fatArrow, .symbol .arrow => some "arms use '=>', return types use '->'"
  | .symbol .fatArrow, _ => some "separate the pattern from the arm body with '=>'"
  | .symbol .semicolon, _ => some "end statements with ';'"
  | .expression, .symbol .eq => some "put the value after '='"
  | .expression, .symbol .semicolon => some "statement is incomplete"
  | .expression, _ => some "try a value, variable, or function call"
  | .name, .int _ => some "names can't start with a number"
  | .name, .keyword _ => some "keywords can't be used as names"
  | .name, _ => some "names start with a letter or '_'"
  | .string, _ => some "expected a quoted string like \"C\""
  | .type, _ => some "try a type like 'i32', 'string', or a struct name"
  | .wireType, _ => some "wire fields use primitives, named wire types or list[T]"
  | .pattern, _ => some "try a name, literal, or constructor like Some(x)"
  | .item, .ident w =>
      match Suggestion.itemKeyword? w with
      | some k => some ("did you mean '" ++ k.text ++ "'?")
      | none => some itemHint
  | .item, _ => some itemHint
  | .traitName, _ => some "only named traits can be implemented"
  | .yieldType, _ => some "generators declare what they yield: gen fn name() -> T"
  | .actorMember, _ =>
      some "actors contain 'init', 'let'/'var' fields, 'mailbox', 'receive fn' and 'fn'"
  | .overflowPolicy, _ => some "one of block, drop_new, drop_old, fail, coalesce(fn)"
  | .fallbackPolicy, _ => some "a coalesce fallback is one of block, drop_new, drop_old, fail"
  | .duration, _ => some "durations are an integer with a unit: ns, us, ms, s, m, h"
  | _, _ => none

end Expected

/-- A clause that may appear only once. -/
inductive Clause where
  | afterArm
  | initBlock
  deriving DecidableEq, Repr

def Clause.describe : Clause → String
  | .afterArm => "'after' arm"
  | .initBlock => "'init' block per actor"

/-- What is wrong with a sequence of tokens. -/
inductive ParseCause where
  | expected (wanted : Expected) (found : TokenKind)
  /-- A semicolon was left out before a token, and has been assumed. -/
  | missingSemicolon (before : TokenKind)
  | tooDeep (limit : Nat)
  | duplicate (clause : Clause)

/-- The category of a parse error. -/
inductive ParseErrorKind where
  /-- A token that cannot appear here. -/
  | unexpectedToken
  /-- The input ended, or a terminator was left out. -/
  | missingToken
  | tooDeep
  | duplicate
  deriving DecidableEq, Repr

namespace ParseCause

def kind : ParseCause → ParseErrorKind
  | .expected _ .endOfFile => .missingToken
  | .expected _ _ => .unexpectedToken
  | .missingSemicolon _ => .missingToken
  | .tooDeep _ => .tooDeep
  | .duplicate _ => .duplicate

def message : ParseCause → String
  | .expected wanted found => wanted.message found
  | .missingSemicolon before => "Expected ';' before " ++ before.displayName
  | .tooDeep limit => "Nesting exceeds the limit of " ++ toString limit ++ " levels"
  | .duplicate clause => "Only one " ++ clause.describe ++ " is allowed"

def hint? : ParseCause → Option String
  | .expected wanted found => wanted.hint? found
  | .missingSemicolon _ => some "end statements with ';'"
  | .tooDeep _ => some "split the expression into smaller parts"
  | .duplicate _ => none

def note? : ParseCause → Option String
  | .missingSemicolon _ => some "inserted missing ';'"
  | _ => none

end ParseCause

/-- A parse error and the text it is about. -/
structure ParseError where
  cause : ParseCause
  span : Span

end ActorFrontend
