import ActorFrontend.Token.Fragment

/-!
# The longest match

What the text at hand starts with: the shape of its first token, the characters of that token
and the characters after them.  Of two shapes that fit, the one that takes more characters is
meant.
-/

namespace ActorFrontend

/-- The shape of a token, before its text is given a meaning. -/
inductive Shape where
  | whitespace
  | lineComment
  | blockComment (closed : Bool)
  | symbol (symbol : Symbol)
  /-- An integer literal; `body` leaves out the mark of its radix. -/
  | integer (radix : Radix) (body : List Char)
  | float
  /-- A plain string literal with the text between its quotes. -/
  | string (body : List Char) (closed : Bool)
  /-- An interpolated string literal with the pieces between its quotes. -/
  | interpolated (pieces : List Piece) (closed : Bool)
  | label (name : List Char)
  | word
  | unknown (c : Char)
  deriving DecidableEq, Repr

/-- A token's shape, its characters and the characters after it. -/
structure Match where
  shape : Shape
  text : List Char
  rest : List Char
  deriving DecidableEq, Repr

namespace Match

def isBlank (c : Char) : Bool := c == ' ' || c == '\t' || c == '\r' || c == '\n' || c == '\x0c'

/-- Words are ASCII letters, digits and underscores, and do not start with a digit. -/
def isWordStart (c : Char) : Bool := c.isAlpha || c == '_'

def isWordChar (c : Char) : Bool := c.isAlphanum || c == '_'

def isDigitOrUnderscore (c : Char) : Bool := c.isDigit || c == '_'

def isHexOrUnderscore (c : Char) : Bool := (Radix.hexValue? c).isSome || c == '_'

/-- A token made of `lead` and all the characters after it that satisfy `p`. -/
def run (shape : List Char → Shape) (lead : List Char) (p : Char → Bool) (cs : List Char) : Match :=
  ⟨shape (cs.takeWhile p), lead ++ cs.takeWhile p, cs.dropWhile p⟩

/-- The text up to and including the first `*/`, whether there is one, and the text after it. -/
def blockCommentBody : List Char → List Char × Bool × List Char
  | [] => ([], false, [])
  | '*' :: '/' :: cs => (['*', '/'], true, cs)
  | c :: cs =>
      let (body, closed, rest) := blockCommentBody cs
      (c :: body, closed, rest)

/-- An exponent: `e` or `E`, an optional sign and at least one digit. -/
def exponent (cs : List Char) : List Char × List Char :=
  let digitsAfter (lead digits : List Char) : List Char × List Char :=
    if (digits.takeWhile Char.isDigit).isEmpty then ([], cs)
    else (lead ++ digits.takeWhile Char.isDigit, digits.dropWhile Char.isDigit)
  match cs with
  | e :: sign :: digits =>
      if e = 'e' ∨ e = 'E' then
        if sign = '+' ∨ sign = '-' then digitsAfter [e, sign] digits
        else digitsAfter [e] (sign :: digits)
      else ([], cs)
  | _ => ([], cs)

/-- A number in decimal, the first character being a digit: a point makes it a float only if a
digit follows. -/
def decimal (cs : List Char) : Match :=
  let whole := cs.takeWhile isDigitOrUnderscore
  match cs.dropWhile isDigitOrUnderscore with
  | '.' :: d :: more =>
      if d.isDigit then
        let fraction := d :: more.takeWhile isDigitOrUnderscore
        let (power, rest) := exponent (more.dropWhile isDigitOrUnderscore)
        ⟨.float, whole ++ '.' :: fraction ++ power, rest⟩
      else ⟨.integer .decimal whole, whole, '.' :: d :: more⟩
  | rest => ⟨.integer .decimal whole, whole, rest⟩

/-- An interpolated string, after its opening. -/
def interpolated (cs : List Char) : Match :=
  let body := interpolatedBody .text cs
  ⟨.interpolated body.pieces body.closed,
    'f' :: '"' :: body.source ++ closing '"' body.closed, body.rest⟩

/-- A plain string, after its opening quote. -/
def string (cs : List Char) : Match :=
  let (body, closed, rest) := plainBody cs
  ⟨.string body closed, '"' :: body ++ closing '"' closed, rest⟩

/-- A symbol, or a character that begins no token. -/
def symbolOrUnknown (c : Char) (cs : List Char) : Match :=
  match Symbol.longest? (c :: cs) with
  | some s => ⟨.symbol s, s.chars, (c :: cs).drop s.chars.length⟩
  | none => ⟨.unknown c, [c], cs⟩

/-- The longest match at the head of the text `c :: cs`. -/
def longest (c : Char) (cs : List Char) : Match :=
  match c, cs with
  | '/', '/' :: cs => run (fun _ => .lineComment) ['/', '/'] (· ≠ '\n') cs
  | '/', '*' :: cs =>
      let (body, closed, rest) := blockCommentBody cs
      ⟨.blockComment closed, '/' :: '*' :: body, rest⟩
  | '"', cs => string cs
  | 'f', '"' :: cs => interpolated cs
  | '0', 'x' :: cs => run (.integer .hexadecimal) ['0', 'x'] isHexOrUnderscore cs
  | '0', 'X' :: cs => run (.integer .hexadecimal) ['0', 'X'] isHexOrUnderscore cs
  | '0', 'b' :: cs => run (.integer .binary) ['0', 'b'] isDigitOrUnderscore cs
  | '0', 'B' :: cs => run (.integer .binary) ['0', 'B'] isDigitOrUnderscore cs
  | '\'', d :: cs =>
      if isWordStart d then run (fun more => .label (d :: more)) ['\'', d] isWordChar cs
      else symbolOrUnknown '\'' (d :: cs)
  | c, cs =>
      if isBlank c then run (fun _ => .whitespace) [c] isBlank cs
      else if c.isDigit then decimal (c :: cs)
      else if isWordStart c then run (fun _ => .word) [c] isWordChar cs
      else symbolOrUnknown c cs

/-! ## Nothing is lost -/

/-- A match takes the text `cs` apart, and takes at least one character. -/
def Splits (cs : List Char) (m : Match) : Prop := m.text ++ m.rest = cs ∧ m.text ≠ []

theorem splits_run (shape : List Char → Shape) {lead : List Char} (h : lead ≠ [])
    (p : Char → Bool) (cs : List Char) : (run shape lead p cs).Splits (lead ++ cs) :=
  ⟨by simp [run], by simp [run, h]⟩

theorem blockCommentBody_append (cs : List Char) :
    (blockCommentBody cs).1 ++ (blockCommentBody cs).2.2 = cs := by
  fun_induction blockCommentBody cs <;> simp_all

theorem exponent_append (cs : List Char) : (exponent cs).1 ++ (exponent cs).2 = cs := by
  unfold exponent
  grind [List.takeWhile_append_dropWhile]

theorem splits_string (cs : List Char) : (string cs).Splits ('"' :: cs) := by
  have h := plainBody_append cs
  exact ⟨by simp_all [string], by simp [string]⟩

theorem splits_interpolated (cs : List Char) : (interpolated cs).Splits ('f' :: '"' :: cs) := by
  have h := accounts_interpolatedBody .text cs
  simp only [Region.Accounts, Body.whole] at h
  exact ⟨by simp_all [interpolated], by simp [interpolated]⟩

theorem splits_symbolOrUnknown (c : Char) (cs : List Char) :
    (symbolOrUnknown c cs).Splits (c :: cs) := by
  unfold symbolOrUnknown
  split
  case h_1 s h =>
    obtain ⟨rest, hrest⟩ := Symbol.isPrefixOf_longest? h
    exact ⟨by simp [← hrest], s.chars_ne_nil⟩
  case h_2 => exact ⟨by simp, by simp⟩

theorem splits_decimal {c : Char} (h : c.isDigit) (cs : List Char) :
    (decimal (c :: cs)).Splits (c :: cs) := by
  have hc : isDigitOrUnderscore c := by simp [isDigitOrUnderscore, h]
  have hwhole : (c :: cs).takeWhile isDigitOrUnderscore ++ (c :: cs).dropWhile isDigitOrUnderscore =
      c :: cs := List.takeWhile_append_dropWhile
  have hne : (c :: cs).takeWhile isDigitOrUnderscore ≠ [] := by simp [hc]
  unfold decimal
  split
  case h_1 d more hrest =>
    split
    case isTrue =>
      have hpower := exponent_append (more.dropWhile isDigitOrUnderscore)
      refine ⟨?_, by simp [hc]⟩
      rw [hrest] at hwhole
      simp [hpower, hwhole]
    case isFalse => exact ⟨by rw [← hrest]; exact hwhole, hne⟩
  case h_2 => exact ⟨hwhole, hne⟩

/-- Every text has a match at its head. -/
theorem splits_longest (c : Char) (cs : List Char) : (longest c cs).Splits (c :: cs) := by
  unfold longest
  split
  case h_1 cs => exact splits_run _ (by simp) _ cs
  case h_2 cs =>
    have h := blockCommentBody_append cs
    exact ⟨by simp [h], by simp⟩
  case h_3 => exact splits_string _
  case h_4 => exact splits_interpolated _
  case h_5 cs => exact splits_run _ (by simp) _ cs
  case h_6 cs => exact splits_run _ (by simp) _ cs
  case h_7 cs => exact splits_run _ (by simp) _ cs
  case h_8 cs => exact splits_run _ (by simp) _ cs
  case h_9 d cs =>
    split
    case isTrue => exact splits_run _ (by simp) _ cs
    case isFalse => exact splits_symbolOrUnknown _ _
  case h_10 =>
    split
    case isTrue => exact splits_run _ (by simp : [_] ≠ []) _ _
    case isFalse =>
      split
      case isTrue h => exact splits_decimal h _
      case isFalse =>
        split
        case isTrue => exact splits_run _ (by simp : [_] ≠ []) _ _
        case isFalse => exact splits_symbolOrUnknown _ _

/-- Only an interpolated string has pieces: those of its body. -/
theorem longest_eq_interpolated {c : Char} {cs : List Char} {pieces : List Piece} {closed : Bool}
    (h : (longest c cs).shape = .interpolated pieces closed) :
    ∃ body, c :: cs = 'f' :: '"' :: body ∧ longest c cs = interpolated body := by
  have hsymbol (c : Char) (cs : List Char) :
      (symbolOrUnknown c cs).shape ≠ .interpolated pieces closed := by
    unfold symbolOrUnknown
    split <;> simp
  have hdecimal (cs : List Char) : (decimal cs).shape ≠ .interpolated pieces closed := by
    unfold decimal
    split <;> (try split) <;> simp
  revert h
  unfold longest
  split <;> (try split) <;> (try split) <;> (try split) <;>
    simp_all [run, string]

/-- A match leaves less text than there was. -/
theorem length_rest_longest (c : Char) (cs : List Char) : (longest c cs).rest.length ≤ cs.length := by
  have hsplit := splits_longest c cs
  have hlen := congrArg List.length hsplit.1
  have hpos := List.length_pos_iff.2 hsplit.2
  simp only [List.length_append, List.length_cons] at hlen
  omega

/-- A splice is shorter than the match that it is part of. -/
theorem length_lt_of_splice {c : Char} {cs chars : List Char} {pieces : List Piece}
    {closed ended : Bool} (h : (longest c cs).shape = .interpolated pieces closed)
    (hmem : .splice chars ended ∈ pieces) : chars.length < (c :: cs).length := by
  obtain ⟨body, hbody, hlongest⟩ := longest_eq_interpolated h
  obtain rfl : (interpolatedBody .text body).pieces = pieces := by
    simpa [hlongest, interpolated] using And.left (Shape.interpolated.inj (hlongest ▸ h))
  have hread := accounts_interpolatedBody .text body
  obtain ⟨before, after, hsplit⟩ := List.append_of_mem hmem
  simp only [Region.Accounts, Body.whole, Body.source, hsplit] at hread
  rw [hbody, ← hread]
  simp [Piece.source]
  omega

end Match

end ActorFrontend
