import ActorFrontend.Proofs.Course.Expressions
import Mathlib.Data.List.Forall2

/-!
# A semicolon more

Two token sequences may be the same but for one semicolon that the second one has in addition.  This
module says what such sequences have in common, what a reading that looks further ahead makes of
them, and where a reading breaks off that has mistaken the head of a lambda for something else.
-/

namespace ActorFrontend

/-- Where a span is once another byte stands at `p`.  A span that ends at `p` stays before that
byte. -/
def Span.insertAt (p : Nat) (span : Span) : Span :=
  if p ≤ span.start then span.shift 1
  else ⟨span.start, if p < span.stop then span.stop + 1 else span.stop⟩

/-! ## Token sequences -/

/-- The same kinds of tokens, whatever the strings are made of. -/
inductive TokenKind.Resembles : TokenKind → TokenKind → Prop where
  | same (kind : TokenKind) : Resembles kind kind
  | interpolated (fragments fragments' : List Fragment) :
      Resembles (.interpolated fragments) (.interpolated fragments')

/-- Sequences of tokens of the same kinds. -/
def Lexeme.Resembling (rest rest' : List Lexeme) : Prop :=
  List.Forall₂ (fun a a' : Lexeme => a.token.kind.Resembles a'.token.kind) rest rest'

/-- The second sequence has one more token, a semicolon.  In the first one `behind` follows where it
is missing. -/
inductive Lexeme.Gapped (behind : List Lexeme) : List Lexeme → List Lexeme → Prop where
  | here {semicolon : Lexeme} {behind' : List Lexeme}
      (hkind : semicolon.token.kind = .symbol .semicolon) (h : Resembling behind behind') :
      Gapped behind behind (semicolon :: behind')
  | cons {a a' : Lexeme} {rest rest' : List Lexeme} (hkind : a.token.kind.Resembles a'.token.kind)
      (h : Gapped behind rest rest') : Gapped behind (a :: rest) (a' :: rest')

namespace Parser

variable {α : Type}

/-- The second one of two readings that start before the missing semicolon fails there, or it reads
what the first one cannot read without recording an error, or it answers as `r'` does. -/
def Deflected (behind : List Lexeme) (p p' r' : Parser α) (setting setting' : Setting)
    (s s' : State) : Prop :=
  (∃ e after, p' setting' s' = .fail e after ∧ after.rest.length = behind.length + 1) ∨
    ((p' setting' s').state.rest.length ≤ behind.length ∧ (p setting s).state.errors = s.errors) ∨
      p' setting' s' = r' setting' s'

end Parser

/-! ## The text of a lambda head -/

/-- The kind of the first of some tokens. -/
def Lexeme.firstKind : List Lexeme → TokenKind
  | [] => .endOfFile
  | lexeme :: _ => lexeme.token.kind

/-- Tokens of which the head of a lambda is made, up to its arrow. -/
def TokenKind.inHead : TokenKind → Bool
  | .ident _ | .int _ => true
  | .symbol s =>
      s == .leftParen || s == .rightParen || s == .leftBracket || s == .rightBracket ||
        s == .semicolon || s == .comma || s == .arrow || s == .star || s == .plus || s == .lt ||
        s == .gt || s == .colonColon || s == .colon
  | .keyword k => k == .fnKw || k == .constKw || k == .dynKw
  | _ => false

/-- A token from the head of a lambda with what follows it: `fn` has no name, a semicolon stands
before the length of an array, and `const` does not start a declaration. -/
structure Lexeme.InHead (lexeme : Lexeme) (rest : List Lexeme) : Prop where
  kind : lexeme.token.kind.inHead = true
  function : lexeme.token.kind = .keyword .fnKw → firstKind rest = .symbol .leftParen
  length : lexeme.token.kind = .symbol .semicolon → ∃ n, firstKind rest = .int n
  pointer : lexeme.token.kind = .keyword .constKw → firstKind rest ≠ .symbol .semicolon ∧
    ((firstKind rest).isName = true → firstKind (rest.drop 1) ≠ .symbol .colon)

/-- The tokens before `stop` are from the head of a lambda, and no semicolon stands outside the
brackets that are open among them; `depth` are open before. -/
inductive Lexeme.HeadText (stop : List Lexeme) : Nat → List Lexeme → Prop where
  | stop (depth : Nat) : HeadText stop depth stop
  | symbol {lexeme : Lexeme} {rest : List Lexeme} {s : Symbol} {depth : Nat}
      (hkind : lexeme.token.kind = .symbol s) (hin : lexeme.InHead rest)
      (hsemicolon : s = .semicolon → depth ≠ 0)
      (h : HeadText stop (Recovery.depthAfter s depth) rest) : HeadText stop depth (lexeme :: rest)
  | other {lexeme : Lexeme} {rest : List Lexeme} {depth : Nat}
      (hkind : ∀ s, lexeme.token.kind ≠ .symbol s) (hin : lexeme.InHead rest)
      (h : HeadText stop depth rest) : HeadText stop depth (lexeme :: rest)

/-- The reading stopped before the missing semicolon, in the midst of the head of a lambda, and has
recorded nothing.  A value was read only if an arrow follows it. -/
def Reply.Slips {α : Type} (behind : List Lexeme) (s : State) (r : Reply α) : Prop :=
  (∃ k, r.state.rest = s.rest.drop k ∧ r.state.previousEnd = (s.skip k).previousEnd) ∧
  behind.length < r.state.rest.length ∧ Lexeme.HeadText behind 0 r.state.rest ∧
  r.state.errors = s.errors ∧ r.state.halted = s.halted ∧
  match r with
  | .ok _ after => after.kind = .symbol .arrow ∧ after.context.lambdas = true
  | .fail e _ => e.cause.stops = true

/-! ## Parts read one after another -/

/-- What a construct with recovery from errors is made of. -/
inductive Parts where
  | statements
  | members
  | items
  deriving DecidableEq

namespace Parts

def recovery : Parts → Recovery
  | .statements => .statements
  | .members => .members
  | .items => .items

/-- A place in the head of a lambda where a recovery may resume. -/
inductive Mistaken : Parts → List Lexeme → Prop where
  | function {lexeme : Lexeme} {rest : List Lexeme} (hkind : lexeme.token.kind = .keyword .fnKw)
      (hrest : Lexeme.firstKind rest = .symbol .leftParen) : Mistaken .members (lexeme :: rest)
  | paren {lexeme : Lexeme} {rest : List Lexeme}
      (hkind : lexeme.token.kind = .symbol .leftParen) : Mistaken .members (lexeme :: rest)
  | token {lexeme : Lexeme} {rest : List Lexeme} (h : lexeme.InHead rest) :
      Mistaken .items (lexeme :: rest)

/-- A part that starts in the head of a lambda breaks off at once. -/
def BreaksOff {α : Type} (parts : Parts) (part : Parser α) : Prop :=
  ∀ setting s, parts.Mistaken s.rest →
    ∃ e k, part setting s = .fail e (s.skip k) ∧ e.cause.stops = true ∧
      (parts = .members → k = 0 ∨ k = 1 ∧ s.kind = .keyword .fnKw)

end Parts

/-- One turn of a repetition that reads parts until it is told to stop. -/
def Parser.turnUntil {σ : Type} (stop : State → Bool) (recovery : Recovery) (part : σ → Parser σ)
    (a : σ) : Parser (Bool × σ) := do
  if ← query stop then pure (false, a) else resilient recovery part a

namespace Parser

variable {σ : Type} {stop : State → Bool} {recovery : Recovery} {part : σ → Parser σ} {a : σ}
  {setting : Setting} {s : State}

theorem turnUntil_of_stop (h : stop s = true) :
    turnUntil stop recovery part a setting s = .ok (false, a) s := by
  rw [turnUntil, query_bind, if_pos h]
  rfl

theorem turnUntil_of_not_stop (h : stop s = false) :
    turnUntil stop recovery part a setting s = resilient recovery part a setting s := by
  rw [turnUntil, query_bind, if_neg (by simp [h])]

/-- Where nothing more belongs to the construct the repetition ends. -/
theorem loop_of_stop (h : stop s = true) :
    loop (turnUntil stop recovery part) a setting s = .ok a s := by
  unfold loop
  cases s.rest with
  | nil =>
    rw [repeatAlong, bind_ok (turnUntil_of_stop h)]
    rfl
  | cons lexeme rest =>
    rw [repeatAlong, bind_ok (turnUntil_of_stop h)]
    rfl

end Parser

end ActorFrontend
