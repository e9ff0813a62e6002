import ActorFrontend.Grammar.State

/-!
# Parsers

A parser reads from a state and answers with a value or an error, and with the state after it.
An error is an answer like any other: what was read and recorded before it stays so, and the
caller decides whether to pass it on, to record it, or to try something else.
-/

namespace ActorFrontend

/-- The answer of a parser. -/
inductive Reply (α : Type) where
  | ok (value : α) (state : State)
  | fail (error : ParseError) (state : State)

/-- The state after the parser, whatever it answered. -/
def Reply.state {α : Type} : Reply α → State
  | .ok _ s => s
  | .fail _ s => s

/-- The same answer, in a changed state. -/
def Reply.mapState {α : Type} (f : State → State) : Reply α → Reply α
  | .ok a s => .ok a (f s)
  | .fail e s => .fail e (f s)

@[simp] theorem Reply.state_mapState {α : Type} (f : State → State) (r : Reply α) :
    (r.mapState f).state = f r.state := by
  cases r <;> rfl

/-- A reading of part of the input. -/
def Parser (α : Type) : Type := Setting → State → Reply α

namespace Parser

variable {α β σ : Type}

def bind (p : Parser α) (f : α → Parser β) : Parser β := fun setting s =>
  match p setting s with
  | .ok a s => f a setting s
  | .fail e s => .fail e s

instance : Monad Parser where
  pure a := fun _ s => .ok a s
  bind := bind

/-! ## Looking and moving -/

/-- Reads something off the state. -/
def query (f : State → α) : Parser α := fun _ s => .ok (f s) s

/-- Changes the state. -/
def update (f : State → State) : Parser Unit := fun _ s => .ok () (f s)

/-- Passes over the token at hand. -/
def advance : Parser Unit := update State.advance

/-- The kind of the token at hand. -/
def kind : Parser TokenKind := query State.kind

/-- The place of the token at hand. -/
def span : Parser Span := fun setting s => .ok (s.span setting) s

/-- Where the token at hand starts. -/
def start : Parser Nat := fun setting s => .ok (s.span setting).start s

/-- From `start` to the end of the token read last. -/
def spanFrom (start : Nat) : Parser Span := query fun s => ⟨start, max s.previousEnd start⟩

def atEnd : Parser Bool := query State.atEnd

/-- Whether the token at hand is the symbol. -/
def sees (symbol : Symbol) : Parser Bool := query fun s => s.kind.isSymbol symbol

def seesKeyword (keyword : Keyword) : Parser Bool := query fun s => s.kind.isKeyword keyword

def seesWord (word : String) : Parser Bool := query fun s => s.kind.isWord word

/-! ## Errors -/

/-- Fails at the token at hand, something else being wanted. -/
def expected (wanted : Expected) : Parser α := fun setting s =>
  .fail (s.expectedError setting wanted) s

/-- Records an error and goes on. -/
def record (error : ParseError) : Parser Unit := fun setting s => .ok () (s.record setting error)

/-! ## Single tokens -/

/-- Passes over the token at hand if `test` holds of it, and tells whether it did. -/
def acceptIf (test : TokenKind → Bool) : Parser Bool := do
  if ← query fun s => test s.kind then
    advance
    pure true
  else
    pure false

def accept (symbol : Symbol) : Parser Bool := acceptIf (·.isSymbol symbol)

def acceptKeyword (keyword : Keyword) : Parser Bool := acceptIf (·.isKeyword keyword)

def acceptWord (word : String) : Parser Bool := acceptIf (·.isWord word)

/-- Passes over the token at hand, which must satisfy `test`. -/
def require (test : TokenKind → Bool) (wanted : Expected) : Parser Unit := do
  if ← acceptIf test then
    pure ()
  else
    expected wanted

def expect (symbol : Symbol) : Parser Unit := require (·.isSymbol symbol) (.symbol symbol)

def expectKeyword (keyword : Keyword) : Parser Unit :=
  require (·.isKeyword keyword) (.keyword keyword)

def expectWord (word : String) : Parser Unit := require (·.isWord word) (.word word)

/-- Reads a token that carries a value. -/
def valueOf (value? : TokenKind → Option α) (wanted : Expected) : Parser α := do
  match value? (← kind) with
  | some a =>
      advance
      pure a
  | none => expected wanted

def name : Parser String :=
  valueOf (fun | .ident name => some name | _ => none) .name

def string : Parser String :=
  valueOf (fun | .string value => some value | _ => none) .string

def integer : Parser UInt64 :=
  valueOf (fun | .int value => some value | _ => none) .integer

/-- The semicolon that ends a statement or a member.  Before a line break, a closing brace or the
end of the input it may have been left out: that is recorded, and the reading goes on as if it
were there. -/
def semicolon : Parser Unit := fun setting s =>
  if s.kind.isSymbol .semicolon then .ok () s.advance
  else if s.afterLineBreak || s.kind.isSymbol .rightBrace || s.atEnd then
    .ok () (s.record setting ⟨.missingSemicolon s.kind, .empty s.previousEnd⟩)
  else .fail (s.expectedError setting (.symbol .semicolon)) s

/-! ## Nodes -/

/-- The number for a node that is finished. -/
def freshId : Parser NodeId := fun _ s => .ok s.nextId { s with nextId := s.nextId + 1 }

/-- A node that began at `start` and is finished here. -/
def node (start : Nat) (make : NodeId → Span → α) : Parser α := do
  let id ← freshId
  let span ← spanFrom start
  pure (make id span)

/-! ## Context, nesting and speculation -/

/-- Reads in another context; the present one is back afterwards. -/
def withContext (context : Context) (p : Parser α) : Parser α := fun setting s =>
  (p setting { s with context }).mapState fun after => { after with context := s.context }

/-- Reads where every form of expression is possible. -/
def enclosed (p : Parser α) : Parser α := withContext .anything p

/-- Fails because nothing may nest any deeper. -/
def tooDeep : Parser α := fun setting s =>
  .fail ⟨.tooDeep setting.limits.maxDepth, s.span setting⟩ s

/-- Reads one level deeper, if the limits allow it. -/
def nested (p : Parser α) : Parser α := fun setting s =>
  if setting.limits.maxDepth ≤ s.depth then tooDeep setting s
  else
    (p setting { s with depth := s.depth + 1 }).mapState fun after =>
      { after with depth := after.depth - 1 }

/-- Tries a reading.  If it fails, everything is as it was before, except that a reading which
used up the last error allowed has stopped the recording for good. -/
def attempt (p : Parser α) : Parser (Option α) := fun setting s =>
  match p setting s with
  | .ok a s => .ok (some a) s
  | .fail _ after =>
      .ok none { s with errors := after.errors.take s.errors.length, halted := after.halted }

/-! ## Repetition -/

/-- Repeats `step` as long as it asks for it, for at most one turn more than there are entries in
the list. -/
def repeatAlong (step : σ → Parser (Bool × σ)) : List Lexeme → σ → Parser σ
  | [], a => do
      let (_, a) ← step a
      pure a
  | _ :: fuel, a => do
      let (again, a) ← step a
      if again then repeatAlong step fuel a else pure a

/-- Repeats `step` as long as it asks for it.  Every turn that asks for another one reads a token
at least, so the tokens that are left bound the number of turns. -/
def loop (step : σ → Parser (Bool × σ)) (a : σ) : Parser σ := fun setting s =>
  repeatAlong step s.rest a setting s

/-- Every turn of a repetition that asks for another one reads a token at least. -/
def Progresses (step : σ → Parser (Bool × σ)) : Prop :=
  ∀ setting s a b after, step a setting s = .ok (true, b) after →
    after.rest.length < s.rest.length

/-- Entries that outnumber the tokens left make no difference. -/
theorem repeatAlong_congr {step : σ → Parser (Bool × σ)} (h : Progresses step)
    {fuel fuel' : List Lexeme} {setting : Setting} {s : State} (hf : s.rest.length ≤ fuel.length)
    (hf' : s.rest.length ≤ fuel'.length) (a : σ) :
    repeatAlong step fuel a setting s = repeatAlong step fuel' a setting s := by
  induction fuel generalizing fuel' s a with
  | nil =>
    cases fuel' with
    | nil => rfl
    | cons _ fuel' =>
      simp only [repeatAlong, Bind.bind, bind]
      split
      case h_1 again after hstep =>
        obtain ⟨again, b⟩ := again
        cases again with
        | false => rfl
        | true => exact absurd (h _ _ _ _ _ hstep) (by simp_all)
      case h_2 => rfl
  | cons _ fuel ih =>
    cases fuel' with
    | nil =>
      simp only [repeatAlong, Bind.bind, bind]
      split
      case h_1 again after hstep =>
        obtain ⟨again, b⟩ := again
        cases again with
        | false => rfl
        | true => exact absurd (h _ _ _ _ _ hstep) (by simp_all)
      case h_2 => rfl
    | cons _ fuel' =>
      simp only [repeatAlong, Bind.bind, bind]
      split
      case h_1 again after hstep =>
        obtain ⟨again, b⟩ := again
        cases again with
        | false => rfl
        | true =>
          have hlt := h _ _ _ _ _ hstep
          simp only [List.length_cons] at hf hf'
          exact ih (by omega) (by omega) b
      case h_2 => rfl

/-- A repetition is its first turn, and the repetition after it if that asks for it. -/
theorem loop_eq {step : σ → Parser (Bool × σ)} (h : Progresses step) (a : σ) (setting : Setting)
    (s : State) :
    loop step a setting s =
      match step a setting s with
      | .ok (true, b) after => loop step b setting after
      | .ok (false, b) after => .ok b after
      | .fail e after => .fail e after := by
  cases hrest : s.rest with
  | nil =>
    simp only [loop, hrest, repeatAlong, Bind.bind, bind]
    split
    case h_1 again after hstep =>
      obtain ⟨again, b⟩ := again
      cases again with
      | false => rw [hstep]; rfl
      | true => exact absurd (h _ _ _ _ _ hstep) (by simp [hrest])
    case h_2 hstep => rw [hstep]
  | cons _ rest =>
    simp only [loop, hrest, repeatAlong, Bind.bind, bind]
    split
    case h_1 again after hstep =>
      obtain ⟨again, b⟩ := again
      cases again with
      | false => rw [hstep]; rfl
      | true =>
        have hlt := h _ _ _ _ _ hstep
        simp only [hrest, List.length_cons] at hlt
        rw [hstep]
        exact repeatAlong_congr h (Nat.le_of_lt_succ hlt) (Nat.le_refl _) b
    case h_2 hstep => rw [hstep]

/-- What `step` reads, turn by turn, until it reads nothing more. -/
def collect (step : Parser (Bool × List α)) : Parser (List α) := do
  let turns ← loop (fun turns => do
    let (again, found) ← step
    pure (again, found :: turns)) []
  pure turns.reverse.flatten

/-- Elements with commas between them, up to and including `close`; a comma may follow the last
one. -/
def commaList (close : Symbol) (elem : Parser α) : Parser (List α) := do
  let elems ← collect do
    if ← sees close then
      pure (false, [])
    else
      let a ← elem
      pure (← accept .comma, [a])
  expect close
  pure elems

/-- The elements that follow a first one, each after a comma, up to and including `close`; a comma
may follow the last one. -/
def commaTail (close : Symbol) (elem : Parser α) : Parser (List α) := do
  let elems ← collect do
    if ← accept .comma then
      if ← sees close then
        pure (false, [])
      else
        let a ← elem
        pure (true, [a])
    else
      pure (false, [])
  expect close
  pure elems

end Parser

end ActorFrontend
