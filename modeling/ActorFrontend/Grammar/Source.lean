import ActorFrontend.Grammar.Session
import ActorFrontend.Token.Lexer

/-!
# Reading sources

From source text to a program or an expression, with all errors in it, lexical ones and others,
in the order of the places where they start.
-/

namespace ActorFrontend

/-- Any error found in a source. -/
inductive SyntaxError where
  | lexical (error : LexicalError)
  | parse (error : ParseError)

namespace SyntaxError

def span : SyntaxError → Span
  | .lexical e => e.span
  | .parse e => e.span

/-- All errors by the places where they start, lexical ones first where they start together; no
more than `limit` of them. -/
def merge (lexical : List LexicalError) (parse : List ParseError) (limit : Nat) :
    List SyntaxError :=
  ((lexical.map SyntaxError.lexical ++ parse.map SyntaxError.parse).mergeSort fun a b =>
    decide (a.span.start ≤ b.span.start)).take limit

end SyntaxError

/-- A source that has been read. -/
structure ParsedSource where
  program : Program
  errors : List SyntaxError
  /-- White space, comments and unknown characters. -/
  trivia : List Token

/-- Reads a whole source within limits. -/
def parseSource (source : String) (limits : Limits) : ParsedSource :=
  let lexed := tokenize source
  let (program, session) := (Session.ofTokens lexed.tokens limits).program
  { program
    errors := SyntaxError.merge lexed.errors session.errors limits.maxErrors
    trivia := session.trivia }

/-- Reads a source that is a single expression; any error refuses it. -/
def parseExpression (source : String) : Except (List SyntaxError) Expr :=
  let lexed := tokenize source
  let whole (g : Rules) : Parser Expr := do
    let e ← g.expr 0
    if ← Parser.atEnd then pure e else Parser.expected .endOfInput
  let session := Session.ofTokens lexed.tokens .standard
  match session.run (whole session.rules) with
  | (.ok e, session) =>
      match SyntaxError.merge lexed.errors session.errors Limits.standard.maxErrors with
      | [] => .ok e
      | errors => .error errors
  | (.error e, session) =>
      .error (SyntaxError.merge lexed.errors (session.errors ++ [e]) Limits.standard.maxErrors)

end ActorFrontend
