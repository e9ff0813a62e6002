import ActorFrontend.Grammar.Items

/-!
# Sessions

A session holds a token sequence that is being read, from one reading to the next.  Errors and
trivia stay in it until they are taken.
-/

namespace ActorFrontend

/-- A token sequence that is being read. -/
structure Session where
  setting : Setting
  state : State
  /-- White space, comments and unknown characters, in source order. -/
  trivia : List Token

namespace Session

/-- Where a token sequence ends: at its end-of-file token, or else where its last token ends. -/
def endOf (tokens : List Token) : Span :=
  match tokens.find? (·.kind.isEndOfFile) with
  | some t => t.span
  | none =>
      match tokens.getLast? with
      | some t => .empty t.span.stop
      | none => .empty 0

/-- A session at the first token. -/
def ofTokens (tokens : List Token) (limits : Limits) : Session :=
  let setting : Setting := ⟨limits, endOf tokens⟩
  { setting
    state := .initial setting (Lexeme.significant false tokens)
    trivia := tokens.filter Token.isTrivia }

/-- The rules of the grammar under the session's limits. -/
def rules (s : Session) : Rules := .within s.setting.limits.maxDepth

/-- Runs a parser where the session stands. -/
def run {α : Type} (p : Parser α) (s : Session) : Except ParseError α × Session :=
  match p s.setting s.state with
  | .ok a state => (.ok a, { s with state })
  | .fail e state => (.error e, { s with state })

/-- Reads an expression whose operators all bind at least so tightly.  An error that is returned
is not recorded. -/
def expr (minPower : Nat) (s : Session) : Except ParseError Expr × Session :=
  s.run (s.rules.expr minPower)

/-- Reads declarations up to the end of the input. -/
def program (s : Session) : Program × Session :=
  match s.run (Parser.program s.rules) with
  | (.ok program, s) => (program, s)
  | (.error _, s) => (⟨[], ⟨0, s.setting.endOfInput.stop⟩⟩, s)

/-- The errors recorded since they were last taken. -/
def errors (s : Session) : List ParseError := s.state.errors

def takeErrors (s : Session) : List ParseError × Session :=
  (s.errors, { s with state := { s.state with errors := [] } })

def takeTrivia (s : Session) : List Token × Session := (s.trivia, { s with trivia := [] })

/-- Whether every significant token has been read. -/
def atEnd (s : Session) : Bool := s.state.atEnd

end Session

end ActorFrontend
