import ActorFrontend.Grammar.Parser

/-!
# Recovery from errors

A reading that fails inside a block, a body or a program is recorded, and the reading resumes at
a point where the next statement, member or declaration is likely to start.  Once the limit of
errors is reached, what is left of the construct is passed over.

Where to resume is told by the number of tokens to pass over.
-/

namespace ActorFrontend

namespace State

/-- Passes over so many tokens. -/
def skip : Nat → State → State
  | 0, s => s
  | n + 1, s => skip n s.advance

theorem rest_advance (s : State) : s.advance.rest = s.rest.drop 1 := by
  unfold advance
  split <;> simp_all

theorem rest_skip (n : Nat) (s : State) : (s.skip n).rest = s.rest.drop n := by
  induction n generalizing s with
  | zero => simp [skip]
  | succ n ih => rw [skip, ih, rest_advance, List.drop_drop, Nat.add_comm]

end State

namespace Recovery

/-- To the closing brace that matches as many opening ones as `depth` and one more. -/
def toClosingBrace : Nat → List Lexeme → Nat
  | _, [] => 0
  | depth, lexeme :: rest =>
      match lexeme.token.kind with
      | .symbol .leftBrace => toClosingBrace (depth + 1) rest + 1
      | .symbol .rightBrace =>
          match depth with
          | 0 => 0
          | depth + 1 => toClosingBrace depth rest + 1
      | _ => toClosingBrace depth rest + 1

/-- How many brackets are open after a symbol; a bracket that closes none changes nothing. -/
def depthAfter (s : Symbol) (depth : Nat) : Nat :=
  if s.opens then depth + 1 else if s.closes then depth - 1 else depth

/-- To the next statement of a block: behind a semicolon, before the block's closing brace or
before a keyword that starts a statement, all of them outside the brackets opened on the way. -/
def toStatement : Nat → List Lexeme → Nat
  | _, [] => 0
  | depth, lexeme :: rest =>
      match lexeme.token.kind, depth with
      | .symbol .semicolon, 0 => 1
      | .symbol .rightBrace, 0 => 0
      | .symbol s, depth => toStatement (depthAfter s depth) rest + 1
      | .keyword k, 0 => if k.startsStatement then 0 else toStatement 0 rest + 1
      | _, depth => toStatement depth rest + 1

/-- To the next member of a body: behind a semicolon or a group in braces, before the body's
closing brace or before a keyword that starts a member. -/
def toMember : Nat → List Lexeme → Nat
  | _, [] => 0
  | depth, lexeme :: rest =>
      match lexeme.token.kind, depth with
      | .symbol .semicolon, 0 => 1
      | .symbol .rightBrace, 0 => 0
      | .symbol .rightBrace, 1 => 1
      | .symbol s, depth => toMember (depthAfter s depth) rest + 1
      | .keyword k, 0 => if k.startsMember then 0 else toMember 0 rest + 1
      | _, depth => toMember depth rest + 1

/-- To the next declaration: behind a semicolon or a group in braces, or before a keyword that
starts a declaration.  Only braces are matched, and one that closes nothing is passed over. -/
def toItem : Nat → List Lexeme → Nat
  | _, [] => 0
  | depth, lexeme :: rest =>
      match lexeme.token.kind, depth with
      | .symbol .leftBrace, depth => toItem (depth + 1) rest + 1
      | .symbol .rightBrace, 0 => toItem 0 rest + 1
      | .symbol .rightBrace, 1 => 1
      | .symbol .rightBrace, depth + 2 => toItem (depth + 1) rest + 1
      | .symbol .semicolon, 0 => 1
      | .keyword k, 0 => if k.startsItem then 0 else toItem 0 rest + 1
      | _, depth => toItem depth rest + 1

/-! ## Recovery stays within the input -/

theorem toClosingBrace_le (depth : Nat) (rest : List Lexeme) :
    toClosingBrace depth rest ≤ rest.length := by
  fun_induction toClosingBrace depth rest <;> simp <;> omega

theorem toStatement_le (depth : Nat) (rest : List Lexeme) :
    toStatement depth rest ≤ rest.length := by
  fun_induction toStatement depth rest <;> simp <;> omega

theorem toMember_le (depth : Nat) (rest : List Lexeme) : toMember depth rest ≤ rest.length := by
  fun_induction toMember depth rest <;> simp <;> omega

theorem toItem_le (depth : Nat) (rest : List Lexeme) : toItem depth rest ≤ rest.length := by
  fun_induction toItem depth rest <;> simp <;> omega

end Recovery

/-- How a construct made of a sequence of parts goes on after an error in one of them. -/
structure Recovery where
  /-- The number of tokens to pass over to get to the next part. -/
  resume : List Lexeme → Nat
  /-- The number of tokens to pass over to get to the end, when nothing more is recorded. -/
  abandon : List Lexeme → Nat

namespace Recovery

def statements : Recovery := ⟨toStatement 0, toClosingBrace 0⟩

def members : Recovery := ⟨toMember 0, toClosingBrace 0⟩

def items : Recovery := ⟨toItem 0, List.length⟩

end Recovery

namespace Parser

variable {σ : Type}

/-- Reads one part and tells whether another one may follow.  An error in it is recorded, and the
part is left out; at least one token is passed over then. -/
def resilient (recovery : Recovery) (part : σ → Parser σ) (a : σ) : Parser (Bool × σ) :=
  fun setting s =>
    if s.halted then .ok (false, a) (s.skip (recovery.abandon s.rest))
    else
      match part a setting s with
      | .ok a after => .ok (true, a) after
      | .fail error after =>
          let noted := after.record setting error
          if noted.halted then .ok (false, a) (noted.skip (recovery.abandon noted.rest))
          else
            let resumed := noted.skip (recovery.resume noted.rest)
            .ok (true, a)
              (if resumed.rest.length = s.rest.length then resumed.advance else resumed)

/-- Whether the token at hand closes a braced body, or the input is at its end. -/
def atBodyEnd : Parser Bool := query fun s => s.kind.isSymbol .rightBrace || s.atEnd

/-- The parts of a braced body, up to its closing brace, added to what was there before. -/
def bodyParts (recovery : Recovery) (part : σ → Parser σ) : σ → Parser σ :=
  loop fun a => do
    if ← atBodyEnd then pure (false, a) else resilient recovery part a

end Parser

end ActorFrontend
