import ActorFrontend.Token.Escape
import ActorFrontend.Token.Shape

/-!
# Reading tokens

A source is read token by token: the longest match at the head of what is left is given its
meaning, and its errors are noted.  The splices of an interpolated string are read in the same
way, at their place in the source.
-/

namespace ActorFrontend

/-- Tokens in source order and the errors found in them. -/
structure Lexed where
  tokens : List Token
  errors : List LexicalError

namespace Lexed

def empty : Lexed := ⟨[], []⟩

/-- Puts a token and its errors in front. -/
def cons (t : Token) (errors : List LexicalError) (l : Lexed) : Lexed :=
  ⟨t :: l.tokens, errors ++ l.errors⟩

end Lexed

namespace Token

/-- A word is a truth value, a keyword or a name. -/
def ofWord (word : String) : TokenKind :=
  if word == "true" then .bool true
  else if word == "false" then .bool false
  else match Keyword.ofText? word with
    | some k => .keyword k
    | none => .ident word

/-- The fragments of an interpolated string whose pieces start at `offset`.  `read` reads the
text of a splice at its place; an open splice is reported before the errors inside it. -/
def fragments (read : Nat → List Char → Lexed) :
    Nat → List Piece → List Fragment × List LexicalError
  | _, [] => ([], [])
  | offset, .text chars :: pieces =>
      let next := offset + Source.byteLength chars
      let (value, errors) := Escape.decode true offset chars
      let (more, moreErrors) := fragments read next pieces
      (.text (String.ofList value) ⟨offset, next⟩ :: more, errors ++ moreErrors)
  | offset, .splice chars closed :: pieces =>
      let stop := offset + 1 + Source.byteLength chars
      let inner := read (offset + 1) chars
      let errors := if closed then [] else [⟨.unterminatedInterpolation, offset, stop⟩]
      let (more, moreErrors) := fragments read (if closed then stop + 1 else stop) pieces
      (.splice inner.tokens ⟨offset + 1, stop⟩ :: more, errors ++ inner.errors ++ moreErrors)

/-- What a match at `span` means, and the errors in it.  An integer that cannot be read counts as
zero.  An open interpolated string is reported as such unless an open splice was reported. -/
def interpret (read : Nat → List Char → Lexed) (m : Match) (span : Span) :
    TokenKind × List LexicalError :=
  match m.shape with
  | .whitespace => (.whitespace, [])
  | .lineComment => (.lineComment, [])
  | .blockComment closed =>
      (.blockComment, if closed then [] else [⟨.unterminatedBlockComment, span⟩])
  | .symbol s => (.symbol s, [])
  | .integer radix body =>
      match radix.read? body with
      | some value => (.int value, [])
      | none => (.int 0, [⟨.invalidNumber, span⟩])
  | .float => (.float (Binary64.read m.text), [])
  | .string body closed =>
      let (value, errors) := Escape.decode false (span.start + 1) body
      (.string (String.ofList value),
        if closed then errors else ⟨.unterminatedString, span⟩ :: errors)
  | .interpolated pieces closed =>
      let (parts, errors) := fragments read (span.start + 2) pieces
      let spliceOpen := errors.any (·.cause == .unterminatedInterpolation)
      (.interpolated parts,
        if closed || spliceOpen then errors else errors ++ [⟨.unterminatedString, span⟩])
  | .label name => (.label (String.ofList name), [])
  | .word => (ofWord (String.ofList m.text), [])
  | .unknown c => (.unknown, [⟨.unexpectedChar c, span⟩])

/-- The token of a match at `offset`, and the errors in it. -/
def ofMatch (read : Nat → List Char → Lexed) (offset : Nat) (m : Match) :
    Token × List LexicalError :=
  let span : Span := ⟨offset, offset + Source.byteLength m.text⟩
  let (kind, errors) := interpret read m span
  (⟨kind, String.ofList m.text, span⟩, errors)

/-- The tokens of a text that starts at `offset`, as far as `fuel` tokens go.  Every token takes a
character at least, and so does every level of splices: as much fuel as there are characters is
enough. -/
def readWithin : Nat → Nat → List Char → Lexed
  | 0, _, _ => .empty
  | _ + 1, _, [] => .empty
  | fuel + 1, offset, c :: cs =>
      let m := Match.longest c cs
      let (token, errors) := ofMatch (readWithin fuel) offset m
      (readWithin fuel token.span.stop m.rest).cons token errors

/-- The tokens of a text that starts at `offset`, without a token for its end. -/
def readAll (offset : Nat) (cs : List Char) : Lexed := readWithin cs.length offset cs

/-! ## Fuel does not show -/

theorem fragments_congr {read read' : Nat → List Char → Lexed} {pieces : List Piece}
    (h : ∀ chars closed, .splice chars closed ∈ pieces →
      ∀ offset, read offset chars = read' offset chars)
    (offset : Nat) : fragments read offset pieces = fragments read' offset pieces := by
  induction pieces generalizing offset with
  | nil => rfl
  | cons piece pieces ih =>
    have ih := ih fun chars closed hmem => h chars closed (by simp [hmem])
    cases piece with
    | text chars => simp [fragments, ih]
    | splice chars closed => simp [fragments, ih, h chars closed (by simp)]

/-- The splices of a match are the only text of it that is read again. -/
theorem ofMatch_congr {read read' : Nat → List Char → Lexed} {m : Match}
    (h : ∀ pieces closed, m.shape = .interpolated pieces closed →
      ∀ chars ended, .splice chars ended ∈ pieces →
        ∀ offset, read offset chars = read' offset chars)
    (offset : Nat) : ofMatch read offset m = ofMatch read' offset m := by
  unfold ofMatch interpret
  split <;> try rfl
  case h_8 pieces closed hshape => simp [fragments_congr (h pieces closed hshape)]

/-- Any fuel that is at least the number of characters gives the same reading. -/
theorem readWithin_eq_readWithin {fuel fuel' : Nat} {cs : List Char} (h : cs.length ≤ fuel)
    (h' : cs.length ≤ fuel') (offset : Nat) :
    readWithin fuel offset cs = readWithin fuel' offset cs := by
  induction fuel generalizing fuel' cs offset with
  | zero =>
    obtain rfl := List.length_eq_zero_iff.1 (Nat.le_zero.1 h)
    cases fuel' <;> rfl
  | succ fuel ih =>
    match cs, fuel' with
    | [], fuel' => cases fuel' <;> rfl
    | c :: cs, fuel' + 1 =>
      simp only [List.length_cons, Nat.add_le_add_iff_right] at h h'
      have hrest := Match.length_rest_longest c cs
      have hmatch : ofMatch (readWithin fuel) offset (Match.longest c cs) =
          ofMatch (readWithin fuel') offset (Match.longest c cs) := by
        refine ofMatch_congr (fun pieces closed hshape chars ended hmem offset => ?_) offset
        have hlt := Match.length_lt_of_splice hshape hmem
        simp only [List.length_cons] at hlt
        exact ih (by omega) (by omega) offset
      simp only [readWithin, hmatch]
      rw [ih (by omega : _ ≤ fuel) (by omega : _ ≤ fuel')]

/-- What is read, token by token. -/
theorem readAll_cons (offset : Nat) (c : Char) (cs : List Char) :
    readAll offset (c :: cs) =
      let m := Match.longest c cs
      let (token, errors) := ofMatch readAll offset m
      (readAll token.span.stop m.rest).cons token errors := by
  have hmatch : ofMatch (readWithin cs.length) offset (Match.longest c cs) =
      ofMatch readAll offset (Match.longest c cs) := by
    refine ofMatch_congr (fun pieces closed hshape chars ended hmem offset => ?_) offset
    have hlt := Match.length_lt_of_splice hshape hmem
    simp only [List.length_cons] at hlt
    exact readWithin_eq_readWithin (by omega) (Nat.le_refl _) offset
  have hrest := Match.length_rest_longest c cs
  rw [readAll, List.length_cons, readWithin]
  simp only [hmatch]
  rw [readAll, readWithin_eq_readWithin hrest (Nat.le_refl _)]

/-- The token that stands for the end of a source. -/
def endAt (offset : Nat) : Token := ⟨.endOfFile, "", .empty offset⟩

end Token

/-- A source that is being read: what is left of it, where that starts, and the errors noted since
they were last taken. -/
structure Lexer where
  rest : List Char
  offset : Nat
  errors : List LexicalError

namespace Lexer

/-- A lexer for a source whose first byte counts as `offset`. -/
def ofSource (source : String) (offset : Nat) : Lexer := ⟨source.toList, offset, []⟩

/-- Reads one token. -/
def next? (l : Lexer) : Option (Token × Lexer) :=
  match l.rest with
  | [] => none
  | c :: cs =>
      let m := Match.longest c cs
      let (token, errors) := Token.ofMatch (Token.readWithin cs.length) l.offset m
      some (token, ⟨m.rest, token.span.stop, l.errors ++ errors⟩)

def takeErrors (l : Lexer) : List LexicalError × Lexer := (l.errors, { l with errors := [] })

/-- Reads all tokens that are left. -/
def drain (l : Lexer) : List Token × Lexer :=
  let lexed := Token.readAll l.offset l.rest
  (lexed.tokens, ⟨[], l.offset + Source.byteLength l.rest, l.errors ++ lexed.errors⟩)

/-- Reads all tokens that are left and ends them with the token for the end of the source. -/
def finish (l : Lexer) : Lexed :=
  let (tokens, l) := l.drain
  ⟨tokens ++ [Token.endAt l.offset], l.errors⟩

end Lexer

/-- The tokens of a whole source, the token for its end included. -/
def tokenize (source : String) : Lexed := (Lexer.ofSource source 0).finish

end ActorFrontend
