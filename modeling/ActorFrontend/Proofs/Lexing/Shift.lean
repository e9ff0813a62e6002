import ActorFrontend.Token.Lexer

/-!
# Tokens further on

A text that starts at a later offset is read as the same tokens, at later places.  This holds of the
fragments of interpolated strings and of the tokens in their splices as well, and of the errors.
-/

namespace ActorFrontend

mutual

/-- The same token, `n` bytes further on. -/
def Token.shift (n : Nat) : Token → Token
  | ⟨kind, text, span⟩ => ⟨kind.shift n, text, span.shift n⟩

/-- The same meaning; what has a place in it is `n` bytes further on. -/
def TokenKind.shift (n : Nat) : TokenKind → TokenKind
  | .interpolated fragments => .interpolated (shiftFragments n fragments)
  | kind => kind

def Fragment.shift (n : Nat) : Fragment → Fragment
  | .text value span => .text value (span.shift n)
  | .splice tokens span => .splice (shiftTokens n tokens) (span.shift n)

def shiftFragments (n : Nat) : List Fragment → List Fragment
  | [] => []
  | fragment :: fragments => fragment.shift n :: shiftFragments n fragments

def shiftTokens (n : Nat) : List Token → List Token
  | [] => []
  | t :: ts => t.shift n :: shiftTokens n ts

end

/-- The same error, `n` bytes further on. -/
def LexicalError.shift (n : Nat) (e : LexicalError) : LexicalError := ⟨e.cause, e.span.shift n⟩

/-- The same tokens and errors, `n` bytes further on. -/
def Lexed.shift (n : Nat) (l : Lexed) : Lexed :=
  ⟨l.tokens.map (Token.shift n), l.errors.map (LexicalError.shift n)⟩

@[simp] theorem shiftTokens_eq (n : Nat) (ts : List Token) :
    shiftTokens n ts = ts.map (Token.shift n) := by
  induction ts with
  | nil => rfl
  | cons t ts ih => rw [shiftTokens, ih, List.map_cons]

@[simp] theorem shiftFragments_eq (n : Nat) (fragments : List Fragment) :
    shiftFragments n fragments = fragments.map (Fragment.shift n) := by
  induction fragments with
  | nil => rfl
  | cons fragment fragments ih => rw [shiftFragments, ih, List.map_cons]

/-- Only the fragments of strings have places. -/
theorem TokenKind.shift_of_ne {n : Nat} {kind : TokenKind}
    (h : ∀ fragments, kind ≠ .interpolated fragments) : kind.shift n = kind := by
  cases kind with
  | interpolated fragments => exact absurd rfl (h fragments)
  | _ => rfl

theorem Lexed.shift_cons (n : Nat) (t : Token) (errors : List LexicalError) (l : Lexed) :
    (l.cons t errors).shift n =
      (l.shift n).cons (t.shift n) (errors.map (LexicalError.shift n)) := by
  simp [Lexed.shift, Lexed.cons]

/-! ## Reading at a later offset -/

/-- The text of a literal means the same wherever it stands, and the same is wrong with it. -/
theorem Escape.decode_add (interpolated : Bool) (offset n : Nat) (cs : List Char) :
    decode interpolated (offset + n) cs =
      ((decode interpolated offset cs).1,
        (decode interpolated offset cs).2.map (LexicalError.shift n)) := by
  have hinvalid (offset : Nat) (sequence : List Char) :
      invalid (offset + n) sequence = (invalid offset sequence).shift n := by
    simp [invalid, LexicalError.shift, Span.shift, Nat.add_right_comm]
  fun_induction decode interpolated offset cs with
  | case1 => rfl
  | case2 offset => simp [decode, Decoded.keep, hinvalid]
  | case3 offset high low cs c hhex ih =>
    rw [decode, hhex, Nat.add_right_comm, ih]
    rfl
  | case4 offset high low cs hhex ih =>
    rw [decode, hhex, Nat.add_right_comm offset n 2]
    simp [ih, Decoded.keep, hinvalid]
  | case5 offset c cs hhex next d hsimple ih =>
    have hnext : offset + n + 1 + c.utf8Size = next + n := by omega
    rw [decode, hsimple]
    · simp only
      rw [hnext, ih]
      rfl
    · exact hhex
  | case6 offset c cs hhex next hsimple ih =>
    have hnext : offset + n + 1 + c.utf8Size = next + n := by omega
    rw [decode, hsimple]
    · simp only
      rw [hnext, ih]
      simp [Decoded.keep, hinvalid]
    · exact hhex
  | case7 offset c cs hlone hhex hescape ih =>
    rw [decode, Nat.add_right_comm, ih]
    · rfl
    all_goals assumption

namespace Token

variable {read : Nat → List Char → Lexed} {n : Nat}

/-- The pieces of a string mean the same wherever they stand, if the text of each splice does. -/
theorem fragments_add {pieces : List Piece}
    (hread : ∀ chars closed, .splice chars closed ∈ pieces →
      ∀ offset, read (offset + n) chars = (read offset chars).shift n) (offset : Nat) :
    fragments read (offset + n) pieces =
      ((fragments read offset pieces).1.map (Fragment.shift n),
        (fragments read offset pieces).2.map (LexicalError.shift n)) := by
  induction pieces generalizing offset with
  | nil => rfl
  | cons piece pieces ih =>
    have ih := ih fun chars closed hmem => hread chars closed (List.mem_cons_of_mem _ hmem)
    cases piece with
    | text chars =>
      simp [fragments, Escape.decode_add, Nat.add_right_comm _ n, ih, Fragment.shift, Span.shift]
    | splice chars closed =>
      have hinner := hread chars closed (by simp) (offset + 1)
      cases closed with
      | true =>
        simp [fragments, Nat.add_right_comm _ n, ih, hinner, Fragment.shift, Span.shift, Lexed.shift]
      | false =>
        simp [fragments, Nat.add_right_comm _ n, ih, hinner, Fragment.shift, Span.shift, Lexed.shift,
          LexicalError.shift]

/-- What a match means does not depend on its place, if that is so for the text of its splices. -/
theorem interpret_add {m : Match}
    (hread : ∀ pieces closed, m.shape = .interpolated pieces closed →
      ∀ chars ended, .splice chars ended ∈ pieces →
        ∀ offset, read (offset + n) chars = (read offset chars).shift n) (span : Span) :
    interpret read m (span.shift n) =
      ((interpret read m span).1.shift n, (interpret read m span).2.map (LexicalError.shift n)) := by
  have hstart (k : Nat) : (span.shift n).start + k = span.start + k + n := by
    simp [Span.shift, Nat.add_right_comm]
  unfold interpret
  split
  case h_3 closed hshape => cases closed <;> rfl
  case h_5 radix body hshape => cases radix.read? body <;> rfl
  case h_7 body closed hshape =>
    rw [hstart, Escape.decode_add]
    cases closed <;> rfl
  case h_8 pieces closed hshape =>
    rw [hstart, fragments_add (hread pieces closed hshape)]
    -- whether an open splice is reported does not depend on places
    have hopen : ((fragments read (span.start + 2) pieces).2.map (LexicalError.shift n)).any
          (·.cause == .unterminatedInterpolation) =
        (fragments read (span.start + 2) pieces).2.any (·.cause == .unterminatedInterpolation) := by
      rw [List.any_map]
      rfl
    simp only [hopen]
    split <;> simp [TokenKind.shift, LexicalError.shift]
  case h_10 =>
    have hword : (ofWord (String.ofList m.text)).shift n = ofWord (String.ofList m.text) :=
      TokenKind.shift_of_ne fun fragments => by
        unfold ofWord
        split <;> (try split) <;> (try split) <;> simp
    simp [hword]
  all_goals rfl

/-- A match means the same wherever it stands, if the text of each of its splices does. -/
theorem ofMatch_add {m : Match}
    (hread : ∀ pieces closed, m.shape = .interpolated pieces closed →
      ∀ chars ended, .splice chars ended ∈ pieces →
        ∀ offset, read (offset + n) chars = (read offset chars).shift n) (offset : Nat) :
    ofMatch read (offset + n) m =
      ((ofMatch read offset m).1.shift n, (ofMatch read offset m).2.map (LexicalError.shift n)) := by
  have hspan : (⟨offset + n, offset + n + Source.byteLength m.text⟩ : Span) =
      Span.shift n ⟨offset, offset + Source.byteLength m.text⟩ := by
    simp [Span.shift, Nat.add_right_comm]
  have hinterpret := interpret_add hread ⟨offset, offset + Source.byteLength m.text⟩
  simp only [ofMatch, hspan, hinterpret]
  rfl

/-- A text is read as the same tokens wherever it starts. -/
theorem readAll_add (offset n : Nat) (cs : List Char) :
    readAll (offset + n) cs = (readAll offset cs).shift n := by
  induction hlength : cs.length using Nat.strongRecOn generalizing cs offset with
  | ind length ih =>
    cases cs with
    | nil => rfl
    | cons c cs =>
      rw [List.length_cons] at hlength
      have hrest := Match.length_rest_longest c cs
      have hmatch := ofMatch_add (n := n) (m := Match.longest c cs)
        (fun pieces closed hshape chars ended hmem offset => by
          have hlt := Match.length_lt_of_splice hshape hmem
          rw [List.length_cons] at hlt
          show readAll (offset + n) chars = (readAll offset chars).shift n
          exact ih chars.length (by omega) offset chars rfl)
        offset
      have hnext := ih _ (by omega) (ofMatch readAll offset (Match.longest c cs)).1.span.stop
        (Match.longest c cs).rest rfl
      rw [readAll_cons, readAll_cons]
      simp only [hmatch]
      rw [Lexed.shift_cons, ← hnext]
      rfl

end Token

end ActorFrontend
