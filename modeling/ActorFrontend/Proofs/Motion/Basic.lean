import ActorFrontend.Proofs.Alike.Kept
import ActorFrontend.Proofs.Alike.Relabel
import ActorFrontend.Proofs.Course.Steps
import ActorFrontend.Proofs.Lexing.Shift

/-!
# Readings that move

A reading of tokens that stand further on, with numbers that start higher, does the same and answers
with the same trees, further on and with higher numbers.
-/

namespace ActorFrontend

variable {α β σ : Type} {n : Nat}

/-- How far places and numbers are moved. -/
structure Motion where
  bytes : Nat
  ids : Nat

/-- The places and numbers of the nodes of a tree, moved. -/
def Motion.renaming (m : Motion) : Renaming := ⟨Span.shift m.bytes, (· + m.ids)⟩

variable {m : Motion}

@[simp] theorem Motion.span_renaming (m : Motion) (span : Span) :
    m.renaming.span span = span.shift m.bytes := rfl

@[simp] theorem Motion.id_renaming (m : Motion) (id : NodeId) : m.renaming.id id = id + m.ids := rfl

theorem Span.cover_shift (n : Nat) (a b : Span) :
    (a.cover b).shift n = (a.shift n).cover (b.shift n) := by
  simp [cover, shift]

/-! ## Tokens and errors -/

namespace TokenKind

/-- What does not look into strings does not see the difference. -/
theorem apply_shift {f : TokenKind → α}
    (hstring : ∀ fragments fragments', f (.interpolated fragments) = f (.interpolated fragments'))
    (kind : TokenKind) : f (kind.shift n) = f kind := by
  cases kind with
  | interpolated fragments => exact hstring _ _
  | _ => rfl

@[simp] theorem isSymbol_shift (kind : TokenKind) (s : Symbol) :
    (kind.shift n).isSymbol s = kind.isSymbol s := apply_shift (fun _ _ => rfl) kind

@[simp] theorem isKeyword_shift (kind : TokenKind) (k : Keyword) :
    (kind.shift n).isKeyword k = kind.isKeyword k := apply_shift (fun _ _ => rfl) kind

@[simp] theorem isWord_shift (kind : TokenKind) (word : String) :
    (kind.shift n).isWord word = kind.isWord word := apply_shift (fun _ _ => rfl) kind

@[simp] theorem isName_shift (kind : TokenKind) : (kind.shift n).isName = kind.isName :=
  apply_shift (fun _ _ => rfl) kind

@[simp] theorem isTrivia_shift (kind : TokenKind) : (kind.shift n).isTrivia = kind.isTrivia :=
  apply_shift (fun _ _ => rfl) kind

@[simp] theorem isEndOfFile_shift (kind : TokenKind) :
    (kind.shift n).isEndOfFile = kind.isEndOfFile := apply_shift (fun _ _ => rfl) kind

end TokenKind

namespace Token

@[simp] theorem kind_shift (t : Token) : (t.shift n).kind = t.kind.shift n := by
  cases t
  rw [shift]

@[simp] theorem text_shift (t : Token) : (t.shift n).text = t.text := by
  cases t
  rw [shift]

@[simp] theorem span_shift (t : Token) : (t.shift n).span = t.span.shift n := by
  cases t
  rw [shift]

@[simp] theorem isTrivia_shift (t : Token) : (t.shift n).isTrivia = t.isTrivia := by
  simp [isTrivia]

@[simp] theorem hasLineBreak_shift (t : Token) : (t.shift n).hasLineBreak = t.hasLineBreak := by
  simp [hasLineBreak]

end Token

/-- The same token, `n` bytes further on. -/
def Lexeme.shift (n : Nat) (lexeme : Lexeme) : Lexeme := { lexeme with token := lexeme.token.shift n }

theorem Lexeme.significant_shift (lineBreak : Bool) (ts : List Token) :
    significant lineBreak (ts.map (Token.shift n)) = (significant lineBreak ts).map (shift n) := by
  induction ts generalizing lineBreak with
  | nil => rfl
  | cons t ts ih =>
    rw [List.map_cons, significant, significant]
    simp only [Token.isTrivia_shift, Token.hasLineBreak_shift, Token.kind_shift,
      TokenKind.isEndOfFile_shift, ih]
    split
    · rfl
    · split <;> rfl

def ParseCause.shift (n : Nat) : ParseCause → ParseCause
  | .expected wanted found => .expected wanted (found.shift n)
  | .missingSemicolon before => .missingSemicolon (before.shift n)
  | .tooDeep limit => .tooDeep limit
  | .duplicate clause => .duplicate clause

/-- The same error, `n` bytes further on. -/
def ParseError.shift (n : Nat) (e : ParseError) : ParseError := ⟨e.cause.shift n, e.span.shift n⟩

/-! ## Places in a reading -/

/-- The same input, further on. -/
def Setting.move (m : Motion) (setting : Setting) : Setting :=
  { setting with endOfInput := setting.endOfInput.shift m.bytes }

@[simp] theorem Setting.limits_move (setting : Setting) : (setting.move m).limits = setting.limits := rfl

namespace State

/-- The same place in the input, further on. -/
def move (m : Motion) (s : State) : State :=
  { s with
    rest := s.rest.map (Lexeme.shift m.bytes)
    previousEnd := s.previousEnd + m.bytes
    nextId := s.nextId + m.ids
    errors := s.errors.map (ParseError.shift m.bytes) }

variable {setting : Setting} (s : State)

@[simp] theorem rest_move : (s.move m).rest = s.rest.map (Lexeme.shift m.bytes) := rfl

@[simp] theorem context_move : (s.move m).context = s.context := rfl

@[simp] theorem depth_move : (s.move m).depth = s.depth := rfl

@[simp] theorem halted_move : (s.move m).halted = s.halted := rfl

@[simp] theorem kind_move : (s.move m).kind = s.kind.shift m.bytes := by
  unfold kind
  rw [rest_move]
  cases s.rest with
  | nil => rfl
  | cons lexeme rest => exact lexeme.token.kind_shift

@[simp] theorem peek_move (n : Nat) : (s.move m).peek n = (s.peek n).shift m.bytes := by
  unfold peek
  rw [rest_move, List.getElem?_map]
  cases s.rest[n]? with
  | none => rfl
  | some lexeme => exact lexeme.token.kind_shift

@[simp] theorem span_move : (s.move m).span (setting.move m) = (s.span setting).shift m.bytes := by
  unfold span
  rw [rest_move]
  cases s.rest with
  | nil => rfl
  | cons lexeme rest => exact lexeme.token.span_shift

@[simp] theorem text_move : (s.move m).text = s.text := by
  unfold text
  rw [rest_move]
  cases s.rest with
  | nil => rfl
  | cons lexeme rest => exact lexeme.token.text_shift

@[simp] theorem afterLineBreak_move : (s.move m).afterLineBreak = s.afterLineBreak := by
  unfold afterLineBreak
  rw [rest_move]
  cases s.rest <;> rfl

@[simp] theorem atEnd_move : (s.move m).atEnd = s.atEnd := by
  unfold atEnd
  rw [rest_move]
  cases s.rest <;> rfl

@[simp] theorem advance_move : (s.move m).advance = s.advance.move m := by
  unfold advance
  rw [rest_move]
  cases s.rest with
  | nil => rfl
  | cons lexeme rest => simp [move, Lexeme.shift, Span.shift]

@[simp] theorem skip_move (n : Nat) : (s.move m).skip n = (s.skip n).move m := by
  induction n generalizing s with
  | zero => rfl
  | succ n ih => rw [skip, skip, advance_move, ih]

@[simp] theorem expectedError_move (wanted : Expected) :
    (s.move m).expectedError (setting.move m) wanted =
      (s.expectedError setting wanted).shift m.bytes := by
  simp [expectedError, ParseError.shift, ParseCause.shift]

@[simp] theorem record_move (error : ParseError) :
    (s.move m).record (setting.move m) (error.shift m.bytes) = (s.record setting error).move m := by
  unfold record
  rw [halted_move]
  split
  · rfl
  · simp [move]

theorem initial_move (lexemes : List Lexeme) (nextId : NodeId) (depth : Nat) :
    { initial (setting.move m) (lexemes.map (Lexeme.shift m.bytes)) with
      nextId := nextId + m.ids, depth } =
      State.move m { initial setting lexemes with nextId, depth } := by
  cases lexemes with
  | nil => rfl
  | cons lexeme lexemes => simp [initial, move, Lexeme.shift, Span.shift]

end State

/-! ## Recovery -/

namespace Recovery

theorem toClosingBrace_shift (depth : Nat) (rest : List Lexeme) :
    toClosingBrace depth (rest.map (Lexeme.shift n)) = toClosingBrace depth rest := by
  induction rest generalizing depth with
  | nil => rfl
  | cons lexeme rest ih =>
    rw [List.map_cons]
    unfold toClosingBrace
    simp only [Lexeme.shift, Token.kind_shift, ih]
    cases lexeme.token.kind with
    | interpolated fragments => rfl
    | _ => rfl

theorem toStatement_shift (depth : Nat) (rest : List Lexeme) :
    toStatement depth (rest.map (Lexeme.shift n)) = toStatement depth rest := by
  induction rest generalizing depth with
  | nil => rfl
  | cons lexeme rest ih =>
    rw [List.map_cons]
    unfold toStatement
    simp only [Lexeme.shift, Token.kind_shift, ih]
    cases lexeme.token.kind with
    | interpolated fragments => rfl
    | _ => rfl

end Recovery

/-! ## Answers -/

/-- The same answer, further on. -/
def Reply.move (m : Motion) (f : α → β) : Reply α → Reply β
  | .ok a s => .ok (f a) (s.move m)
  | .fail e s => .fail (e.shift m.bytes) (s.move m)

namespace Parser

/-- Further on the second parser does what the first one does here. -/
def Moves (m : Motion) (f : α → β) (p : Parser α) (p' : Parser β) : Prop :=
  ∀ setting s, p' (setting.move m) (s.move m) = (p setting s).move m f

end Parser

end ActorFrontend
