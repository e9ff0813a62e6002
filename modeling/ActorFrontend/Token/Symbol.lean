/-!
# Symbols

Operators and delimiters.  A symbol is the longest one that the text starts with.
-/

namespace ActorFrontend

/-- Operators and delimiters. -/
inductive Symbol where
  | dotDotEq
  | dotDotDot
  | eqEq
  | bangEq
  | ltEq
  | gtEq
  | ampAmp
  | pipePipe
  | dotDot
  | arrow
  | fatArrow
  | leftArrow
  | colonColon
  | plusEq
  | minusEq
  | starEq
  | slashEq
  | percentEq
  | plus
  | minus
  | star
  | slash
  | percent
  | eq
  | lt
  | gt
  | bang
  | question
  | atSign
  | dot
  | pipe
  | leftBrace
  | rightBrace
  | leftParen
  | rightParen
  | leftBracket
  | rightBracket
  | colon
  | semicolon
  | comma
  deriving DecidableEq, Repr

namespace Symbol

/-- Every symbol, longer ones first. -/
def all : List Symbol :=
  [.dotDotEq, .dotDotDot, .eqEq, .bangEq, .ltEq, .gtEq, .ampAmp, .pipePipe, .dotDot, .arrow,
   .fatArrow, .leftArrow, .colonColon, .plusEq, .minusEq, .starEq, .slashEq, .percentEq, .plus,
   .minus, .star, .slash, .percent, .eq, .lt, .gt, .bang, .question, .atSign, .dot, .pipe,
   .leftBrace, .rightBrace, .leftParen, .rightParen, .leftBracket, .rightBracket, .colon,
   .semicolon, .comma]

/-- How the symbol is spelled. -/
def chars : Symbol → List Char
  | .dotDotEq => ['.', '.', '=']
  | .dotDotDot => ['.', '.', '.']
  | .eqEq => ['=', '=']
  | .bangEq => ['!', '=']
  | .ltEq => ['<', '=']
  | .gtEq => ['>', '=']
  | .ampAmp => ['&', '&']
  | .pipePipe => ['|', '|']
  | .dotDot => ['.', '.']
  | .arrow => ['-', '>']
  | .fatArrow => ['=', '>']
  | .leftArrow => ['<', '-']
  | .colonColon => [':', ':']
  | .plusEq => ['+', '=']
  | .minusEq => ['-', '=']
  | .starEq => ['*', '=']
  | .slashEq => ['/', '=']
  | .percentEq => ['%', '=']
  | .plus => ['+']
  | .minus => ['-']
  | .star => ['*']
  | .slash => ['/']
  | .percent => ['%']
  | .eq => ['=']
  | .lt => ['<']
  | .gt => ['>']
  | .bang => ['!']
  | .question => ['?']
  | .atSign => ['@']
  | .dot => ['.']
  | .pipe => ['|']
  | .leftBrace => ['{']
  | .rightBrace => ['}']
  | .leftParen => ['(']
  | .rightParen => [')']
  | .leftBracket => ['[']
  | .rightBracket => [']']
  | .colon => [':']
  | .semicolon => [';']
  | .comma => [',']

def text (s : Symbol) : String := String.ofList s.chars

/-- How messages name the symbol. -/
def displayName (s : Symbol) : String := "'" ++ s.text ++ "'"

/-- The longest symbol that the text starts with. -/
def longest? (cs : List Char) : Option Symbol := all.find? (·.chars.isPrefixOf cs)

/-- Symbols that open a bracketed group. -/
def opens : Symbol → Bool
  | .leftBrace | .leftParen | .leftBracket => true
  | _ => false

/-- Symbols that close a bracketed group. -/
def closes : Symbol → Bool
  | .rightBrace | .rightParen | .rightBracket => true
  | _ => false

theorem isPrefixOf_longest? {cs : List Char} {s : Symbol} (h : longest? cs = some s) :
    s.chars <+: cs := by
  simpa using List.find?_some h

theorem chars_ne_nil (s : Symbol) : s.chars ≠ [] := by cases s <;> simp [chars]

end Symbol

end ActorFrontend
