import ActorFrontend.Proofs.Checked.Basic
import ActorFrontend.Proofs.Checked.Pieces

/-!
# Reading tokens by offsets

The lexer once more, with every piece of text cut out of another one by its byte offsets: the bodies
of comments and strings, the digits behind the mark of a radix, the name of a label, the pieces of a
string and the sequences of its escapes.  A cut has no answer at an offset that is not one of the
text; none of them is ever made there, and what is read is what the lexer reads.
-/

namespace ActorFrontend

open Source

/-- A text that is known up to an offset goes on there in one way only. -/
theorem Source.append_inj_of_byteLength {as bs cs ds : List Char} (h : as ++ bs = cs ++ ds)
    (hlength : byteLength as = byteLength cs) : as = cs ∧ bs = ds := by
  have hdrop : dropBytes? (byteLength as) (as ++ bs) = some bs := dropBytes?_append as bs
  rw [h, hlength, dropBytes?_append] at hdrop
  obtain rfl : ds = bs := Option.some.inj hdrop
  exact ⟨List.append_cancel_right h, rfl⟩

/-! ## Escapes -/

namespace Escape

/-- The character written by the two hexadecimal digits at an offset, if they are there. -/
def hexAt? (text : List Char) (offset : Nat) : Option Char :=
  match slice? offset (offset + 2) text with
  | some [high, low] => hex? high low
  | _ => none

/-- Keeps a sequence that stands for nothing, cut out of the text between two offsets. -/
def keepSlice? (text : List Char) (start i stop : Nat) (d : Decoded) : Option Decoded :=
  (slice? i stop text).map fun sequence => d.keep (start + i) sequence

/-- Where what is left of a text begins, `i` bytes being passed already. -/
def offsetOf (text : List Char) (i : Nat) (rest : List Char) : Nat :=
  if rest.isEmpty then byteLength text else i

/-- Decodes a text that starts at `start`, of which the first `i` bytes have been decoded. -/
def decodeFrom? (interpolated : Bool) (text : List Char) (start : Nat) :
    Nat → List Char → Option Decoded
  | _, [] => some ([], [])
  | i, c :: cs =>
      if c ≠ '\\' then
        (decodeFrom? interpolated text start (i + c.utf8Size) cs).map (Decoded.cons c)
      else
        match cs with
        | [] => keepSlice? text start i (byteLength text) ([], [])
        | d :: cs =>
            let decoded := if d = 'x' then hexAt? text (i + 2) else simple? interpolated d
            match decoded with
            | some c =>
                let skipped := if d = 'x' then 2 else 0
                (decodeFrom? interpolated text start (i + 1 + d.utf8Size + skipped)
                  (cs.drop skipped)).map (Decoded.cons c)
            | none =>
                (decodeFrom? interpolated text start (i + 1 + d.utf8Size) cs).bind
                  (keepSlice? text start i (offsetOf text (i + 1 + d.utf8Size) cs))
termination_by _ cs => cs.length
decreasing_by all_goals simp only [List.length_drop, List.length_cons]; omega

theorem utf8Size_of_hex? {high low c : Char} (h : hex? high low = some c) :
    high.utf8Size = 1 ∧ low.utf8Size = 1 := by
  have hsize {d : Char} {n : Nat} (hd : Radix.hexValue? d = some n) : d.utf8Size = 1 := by
    have hrange := Radix.toNat_of_hexValue? hd
    have hcode : d.toNat ≤ 127 := by omega
    exact Char.utf8Size_eq_one_iff.2 hcode
  obtain ⟨m, hhigh, h⟩ := Option.bind_eq_some_iff.1 h
  obtain ⟨n, hlow, -⟩ := Option.map_eq_some_iff.1 h
  exact ⟨hsize hhigh, hsize hlow⟩

/-- The character written by the two hexadecimal digits that a text starts with, if it does. -/
def hexAhead? : List Char → Option Char
  | high :: low :: _ => hex? high low
  | _ => none

/-- The digits at an offset are the next two characters, if those are digits. -/
theorem hexAt?_append (front cs : List Char) :
    hexAt? (front ++ cs) (byteLength front) = hexAhead? cs := by
  cases hslice : slice? (byteLength front) (byteLength front + 2) (front ++ cs) with
  | none =>
    have hnone : hexAt? (front ++ cs) (byteLength front) = none := by rw [hexAt?, hslice]
    rw [hnone]
    -- two digits would have been cut out
    match cs with
    | [] | [_] => rfl
    | high :: low :: more =>
      cases hhex : hex? high low with
      | none => exact hhex.symm
      | some c =>
        obtain ⟨hhigh, hlow⟩ := utf8Size_of_hex? hhex
        have hsome : slice? (byteLength front) (byteLength front + 2) (front ++ high :: low :: more) =
            some [high, low] :=
          slice?_eq_some_iff.2 ⟨front, more, by simp, rfl, by simp [hhigh, hlow]⟩
        rw [hslice] at hsome
        cases hsome
  | some mid =>
    obtain ⟨front', back, hcs, hlength, hmid⟩ := slice?_eq_some_iff.1 hslice
    rw [List.append_assoc] at hcs
    obtain ⟨rfl, rfl⟩ := append_inj_of_byteLength hcs hlength.symm
    have hsize : byteLength mid = 2 := by omega
    rw [hexAt?, hslice]
    match mid with
    | [] => cases hsize
    | [high, low] => rfl
    | [c] =>
      -- one character of two bytes is no digit
      match back with
      | [] => rfl
      | d :: back =>
        cases hhex : hex? c d with
        | none => exact hhex.symm
        | some e =>
          rw [byteLength_cons, (utf8Size_of_hex? hhex).1] at hsize
          cases hsize
    | a :: b :: c :: more =>
      have ha := a.utf8Size_pos
      have hb := b.utf8Size_pos
      have hc := c.utf8Size_pos
      simp only [byteLength_cons] at hsize
      omega

/-- What the lexer makes of a backslash and the character behind it. -/
theorem decode_escape (interpolated : Bool) (offset : Nat) (d : Char) (cs : List Char) :
    decode interpolated offset ('\\' :: d :: cs) =
      (if d = 'x' then hexAhead? cs else simple? interpolated d).elim
        ((decode interpolated (offset + 1 + d.utf8Size) cs).keep offset ['\\', d])
        fun c =>
          (decode interpolated (offset + 1 + d.utf8Size + if d = 'x' then 2 else 0)
            (cs.drop (if d = 'x' then 2 else 0))).cons c := by
  by_cases hd : d = 'x'
  · subst hd
    rw [if_pos rfl, if_pos rfl]
    rcases cs with _ | ⟨high, _ | ⟨low, cs⟩⟩
    case cons.cons =>
      rw [decode.eq_3, hexAhead?]
      cases hex? high low <;> rfl
    all_goals
      rw [decode.eq_4]
      · rfl
      · intro _ _ _ _ h
        cases h
  · rw [if_neg hd, if_neg hd, decode.eq_4]
    · cases simple? interpolated d <;> rfl
    · exact fun _ _ _ h _ => hd h

theorem decodeFrom?_char {c : Char} (hc : c ≠ '\\') (interpolated : Bool) (text : List Char)
    (start i : Nat) (cs : List Char) :
    decodeFrom? interpolated text start i (c :: cs) =
      (decodeFrom? interpolated text start (i + c.utf8Size) cs).map (Decoded.cons c) := by
  rw [decodeFrom?.eq_def]
  exact if_pos hc

theorem decodeFrom?_escape (interpolated : Bool) (text : List Char) (start i : Nat) (d : Char)
    (cs : List Char) :
    decodeFrom? interpolated text start i ('\\' :: d :: cs) =
      (if d = 'x' then hexAt? text (i + 2) else simple? interpolated d).elim
        ((decodeFrom? interpolated text start (i + 1 + d.utf8Size) cs).bind
          (keepSlice? text start i (offsetOf text (i + 1 + d.utf8Size) cs)))
        fun c =>
          (decodeFrom? interpolated text start (i + 1 + d.utf8Size + if d = 'x' then 2 else 0)
            (cs.drop (if d = 'x' then 2 else 0))).map (Decoded.cons c) := by
  rw [decodeFrom?.eq_def]
  simp only [ne_eq, not_true_eq_false, if_false]
  cases if d = 'x' then hexAt? text (i + 2) else simple? interpolated d <;> rfl

/-- Where the text goes on, even if that is at its end. -/
theorem offsetOf_append (front rest : List Char) :
    offsetOf (front ++ rest) (byteLength front) rest = byteLength front := by
  cases rest with
  | nil =>
    rw [List.append_nil]
    rfl
  | cons c rest => rfl

/-- A sequence that stands for nothing is cut out as it is written. -/
theorem keepSlice?_append (front sequence rest : List Char) (start : Nat) (d : Decoded) :
    keepSlice? (front ++ sequence ++ rest) start (byteLength front)
        (offsetOf (front ++ sequence ++ rest) (byteLength (front ++ sequence)) rest) d =
      some (d.keep (start + byteLength front) sequence) := by
  have hslice : slice? (byteLength front) (byteLength (front ++ sequence))
      (front ++ sequence ++ rest) = some sequence :=
    slice?_eq_some_iff.2 ⟨front, rest, rfl, rfl, (byteLength_append ..).symm⟩
  rw [offsetOf_append, keepSlice?, hslice]
  rfl

/-- Decoding by offsets is decoding. -/
theorem decodeFrom?_append (interpolated : Bool) (front cs : List Char) (start : Nat) :
    decodeFrom? interpolated (front ++ cs) start (byteLength front) cs =
      some (decode interpolated (start + byteLength front) cs) := by
  have hslash : Char.utf8Size '\\' = 1 := rfl
  have again (mid rest : List Char) (h : rest.length < cs.length) (hcs : cs = mid ++ rest) :
      decodeFrom? interpolated (front ++ cs) start (byteLength front + byteLength mid) rest =
        some (decode interpolated (start + byteLength front + byteLength mid) rest) := by
    have hrest := decodeFrom?_append interpolated (front ++ mid) rest start
    rwa [List.append_assoc, ← hcs, byteLength_append, ← Nat.add_assoc] at hrest
  cases cs with
  | nil => rw [decodeFrom?.eq_def, decode]
  | cons c cs =>
    by_cases hc : c = '\\'
    · subst hc
      cases cs with
      | nil =>
        have hkeep := keepSlice?_append front ['\\'] [] start ([], [])
        rw [List.append_nil] at hkeep
        rw [decodeFrom?.eq_def, decode.eq_2]
        exact hkeep
      | cons d cs =>
        rw [decodeFrom?_escape, decode_escape]
        have hmid : byteLength ['\\', d] = 1 + d.utf8Size := by simp [hslash]
        have hdigits : (if d = 'x' then hexAt? (front ++ '\\' :: d :: cs) (byteLength front + 2)
            else simple? interpolated d) =
            if d = 'x' then hexAhead? cs else simple? interpolated d := by
          by_cases hd : d = 'x'
          · subst hd
            rw [if_pos rfl, if_pos rfl, ← hexAt?_append (front ++ ['\\', 'x']) cs]
            simp [hslash]
            rfl
          · rw [if_neg hd, if_neg hd]
        rw [hdigits]
        cases hdecoded : if d = 'x' then hexAhead? cs else simple? interpolated d with
        | some e =>
          by_cases hd : d = 'x'
          · subst hd
            rw [if_pos rfl] at hdecoded
            rcases cs with _ | ⟨high, _ | ⟨low, more⟩⟩
            case nil => cases hdecoded
            case cons.nil => cases hdecoded
            case cons.cons =>
              obtain ⟨hhigh, hlow⟩ := utf8Size_of_hex? hdecoded
              have hlength : byteLength ['\\', 'x', high, low] = 1 + Char.utf8Size 'x' + 2 := by
                simp [hslash, hhigh, hlow]
                rfl
              have hrest := again ['\\', 'x', high, low] more (by simp only [List.length_cons]; omega)
                rfl
              simp only [hlength, ← Nat.add_assoc] at hrest
              simp only [if_pos, List.drop_succ_cons, List.drop_zero, hrest]
              rfl
          · have hrest := again ['\\', d] cs (by simp only [List.length_cons]; omega) rfl
            simp only [hmid, ← Nat.add_assoc] at hrest
            simp only [if_neg hd, Nat.add_zero, List.drop_zero, hrest]
            rfl
        | none =>
          have hrest := again ['\\', d] cs (by simp only [List.length_cons]; omega) rfl
          have hkeep := keepSlice?_append front ['\\', d] cs start
            (decode interpolated (start + byteLength front + byteLength ['\\', d]) cs)
          rw [byteLength_append] at hkeep
          simp only [hmid, ← Nat.add_assoc] at hrest hkeep
          simp only [hrest]
          simpa using hkeep
    · have hrest := again [c] cs (Nat.lt_succ_self _) rfl
      have hlength : byteLength [c] = c.utf8Size := by simp
      rw [hlength] at hrest
      rw [decodeFrom?_char hc, hrest, decode.eq_5]
      · rfl
      · exact fun h _ => hc h
      · exact fun _ _ _ h _ => hc h
      · exact fun _ _ h _ => hc h
termination_by cs.length

end Escape

/-! ## Matches -/

namespace Match

/-- The offset of the first `*/` of a text whose first byte is number `i`. -/
def findClosing (i : Nat) : List Char → Option Nat
  | [] => none
  | '*' :: '/' :: _ => some i
  | c :: cs => findClosing (i + c.utf8Size) cs

/-- Cuts a text in two at an offset. -/
def bump? (offset : Nat) (cs : List Char) : Option (List Char × List Char) := do
  return (← takeBytes? offset cs, ← dropBytes? offset cs)

/-- A block comment, after its opening. -/
def blockComment? (cs : List Char) : Option Match := do
  let found := findClosing 0 cs
  let (body, rest) ← bump? ((found.map (· + 2)).getD (byteLength cs)) cs
  return ⟨.blockComment found.isSome, '/' :: '*' :: body, rest⟩

/-- What stands behind the `opening` bytes at the front of a literal and before its quote. -/
def contents? (text : List Char) (opening : Nat) (closed : Bool) : Option (List Char) := do
  let stop ← if closed then Checked.sub? (byteLength text) 1 else some (byteLength text)
  slice? opening (max stop opening) text

/-- A plain string, after its opening quote. -/
def string? (cs : List Char) : Option Match := do
  let (stop, closed) := bodyEnd false 0 (utf8 cs)
  let (body, rest) ← bump? stop cs
  let contents ← contents? ('"' :: body) 1 closed
  return ⟨.string contents closed, '"' :: body, rest⟩

/-- An interpolated string, after its opening. -/
def interpolated? (cs : List Char) : Option Match := do
  let (stop, closed) := bodyEnd true 0 (utf8 cs)
  let (body, rest) ← bump? stop cs
  let contents ← contents? ('f' :: '"' :: body) 2 closed
  let pieces ← Piece.cut? contents 0 0 (utf8 contents)
  return ⟨.interpolated pieces closed, 'f' :: '"' :: body, rest⟩

/-- A match of which a part has a meaning of its own: the digits behind a mark, the name behind a
quote. -/
def cutInside? (m : Match) : Option Match :=
  match m.shape with
  | .integer .decimal _ => some { m with shape := .integer .decimal m.text }
  | .integer radix _ => (dropBytes? 2 m.text).map fun body => { m with shape := .integer radix body }
  | .label _ => (dropBytes? 1 m.text).map fun name => { m with shape := .label name }
  | _ => some m

/-- The longest match at the head of the text `c :: cs`, cut out of it by offsets. -/
def longest? (c : Char) (cs : List Char) : Option Match :=
  match c, cs with
  | '/', '*' :: cs => blockComment? cs
  | '"', cs => string? cs
  | 'f', '"' :: cs => interpolated? cs
  | c, cs => cutInside? (longest c cs)

theorem bump?_append {as bs cs : List Char} (h : as ++ bs = cs) :
    bump? (byteLength as) cs = some (as, bs) := by
  rw [bump?, ← h, takeBytes?_append, dropBytes?_append]
  rfl

/-- The comment ends behind the first `*/`, or with the text. -/
theorem findClosing_blockCommentBody (cs : List Char) (i : Nat) :
    (findClosing i cs).isSome = (blockCommentBody cs).2.1 ∧
      ((findClosing i cs).map (· + 2)).getD (i + byteLength cs) =
        i + byteLength (blockCommentBody cs).1 := by
  fun_induction blockCommentBody cs generalizing i with
  | case1 => exact ⟨rfl, rfl⟩
  | case2 cs => exact ⟨rfl, rfl⟩
  | case3 c cs hclosing body closed rest heq ih =>
    have hfind : findClosing i (c :: cs) = findClosing (i + c.utf8Size) cs := by
      rw [findClosing]
      exact hclosing
    have ih := ih (i + c.utf8Size)
    rw [heq] at ih
    rw [hfind, byteLength_cons, byteLength_cons, ← Nat.add_assoc, ← Nat.add_assoc]
    exact ih

theorem blockComment?_eq (cs : List Char) :
    blockComment? cs = some (longest '/' ('*' :: cs)) := by
  obtain ⟨hclosed, hstop⟩ := findClosing_blockCommentBody cs 0
  have hcs := blockCommentBody_append cs
  rw [Nat.zero_add, Nat.zero_add] at hstop
  simp only [blockComment?, hstop, bump?_append hcs, Option.bind_eq_bind, Option.bind_some, hclosed]
  rfl

/-- The contents of a literal are what stands between its delimiters. -/
theorem contents?_append (opening body : List Char) (closed : Bool) :
    contents? (opening ++ (body ++ closing '"' closed)) (byteLength opening) closed = some body := by
  have hquote : Char.utf8Size '"' = 1 := rfl
  have hslice : slice? (byteLength opening) (byteLength opening + byteLength body)
      (opening ++ (body ++ closing '"' closed)) = some body :=
    slice?_eq_some_iff.2 ⟨opening, closing '"' closed, by simp, rfl, rfl⟩
  have hmax : max (byteLength opening + byteLength body) (byteLength opening) =
      byteLength opening + byteLength body := Nat.max_eq_left (Nat.le_add_right ..)
  cases closed with
  | true =>
    have hlength : byteLength (opening ++ (body ++ closing '"' true)) =
        byteLength opening + byteLength body + 1 := by
      simp only [closing, byteLength_append, byteLength_cons, byteLength_nil, hquote]
      omega
    rw [contents?, if_pos rfl, hlength, Checked.sub?_of_le (Nat.le_add_left ..), Nat.add_sub_cancel]
    show slice? _ (max _ _) _ = _
    rw [hmax, hslice]
  | false =>
    have hlength : byteLength (opening ++ (body ++ closing '"' false)) =
        byteLength opening + byteLength body := by
      simp only [closing, List.append_nil, byteLength_append]
    rw [contents?, if_neg Bool.false_ne_true, hlength]
    show slice? _ (max _ _) _ = _
    rw [hmax, hslice]

theorem string?_eq (cs : List Char) : string? cs = some (string cs) := by
  have hcs := plainBody_append cs
  rw [← List.append_assoc] at hcs
  have hstop := bodyEnd_plainBody cs 0
  rw [Nat.zero_add] at hstop
  have hcontents : contents? ('"' :: ((plainBody cs).1 ++ closing '"' (plainBody cs).2.1)) 1
      (plainBody cs).2.1 = some (plainBody cs).1 := contents?_append ['"'] _ _
  simp only [string?, hstop, bump?_append hcs, Option.bind_eq_bind, Option.bind_some, hcontents]
  rfl

theorem interpolated?_eq (cs : List Char) : interpolated? cs = some (interpolated cs) := by
  have hcs : (interpolatedBody .text cs).source ++ closing '"' (interpolatedBody .text cs).closed ++
      (interpolatedBody .text cs).rest = cs := by
    rw [List.append_assoc]
    exact accounts_interpolatedBody .text cs
  have hstop := bodyEnd_interpolatedBody cs 0
  rw [Nat.zero_add] at hstop
  have hcontents : contents? ('f' :: '"' :: ((interpolatedBody .text cs).source ++
      closing '"' (interpolatedBody .text cs).closed)) 2 (interpolatedBody .text cs).closed =
      some (interpolatedBody .text cs).source := contents?_append ['f', '"'] _ _
  have hpieces : Piece.cut? (interpolatedBody .text cs).source 0 0
      (utf8 (interpolatedBody .text cs).source) = some (interpolatedBody .text cs).pieces := by
    have hcut := Piece.cut?_interpolatedBody cs [] []
    rwa [Piece.joinText_nil] at hcut
  simp only [interpolated?, hstop, bump?_append hcs, Option.bind_eq_bind, Option.bind_some,
    hcontents, hpieces]
  rfl

theorem cutInside?_longest (c : Char) (cs : List Char) :
    cutInside? (longest c cs) = some (longest c cs) := by
  have hsymbol (c : Char) (cs : List Char) :
      cutInside? (symbolOrUnknown c cs) = some (symbolOrUnknown c cs) := by
    unfold symbolOrUnknown
    split <;> rfl
  have hdecimal (cs : List Char) : cutInside? (decimal cs) = some (decimal cs) := by
    unfold decimal
    split <;> (try split) <;> rfl
  have hmark {radix : Radix} (hradix : radix ≠ .decimal) {x : Char} (hx : x.utf8Size = 1)
      (p : Char → Bool) (cs : List Char) :
      cutInside? (run (.integer radix) ['0', x] p cs) = some (run (.integer radix) ['0', x] p cs) := by
    have hlength : byteLength ['0', x] = 2 := by
      rw [byteLength_cons, byteLength_cons, hx]
      rfl
    have hdrop := dropBytes?_append ['0', x] (cs.takeWhile p)
    rw [hlength] at hdrop
    cases radix with
    | decimal => exact absurd rfl hradix
    | hexadecimal | binary => simp only [cutInside?, run, hdrop, Option.map_some]
  unfold longest
  split
  case h_1 | h_2 | h_3 | h_4 => rfl
  case h_5 | h_6 | h_7 | h_8 => exact hmark (by decide) rfl _ _
  case h_9 d cs =>
    split
    case isTrue =>
      have hname : dropBytes? 1 ('\'' :: d :: cs.takeWhile isWordChar) =
          some (d :: cs.takeWhile isWordChar) := dropBytes?_append ['\''] _
      simp only [cutInside?, run, List.cons_append, List.nil_append, hname, Option.map_some]
    case isFalse => exact hsymbol _ _
  case h_10 =>
    split
    case isTrue => rfl
    case isFalse =>
      split
      case isTrue => exact hdecimal _
      case isFalse =>
        split
        case isTrue => rfl
        case isFalse => exact hsymbol _ _

/-- No cut of a match is made where none can be. -/
theorem longest?_eq (c : Char) (cs : List Char) : longest? c cs = some (longest c cs) := by
  unfold longest?
  split
  case h_1 => exact blockComment?_eq _
  case h_2 => rw [string?_eq]; rfl
  case h_3 => rw [interpolated?_eq]; rfl
  case h_4 => exact cutInside?_longest c cs

end Match

/-! ## Tokens -/

namespace Token

/-- The fragments of an interpolated string whose pieces start at `offset`, their escapes decoded by
offsets. -/
def fragments? (read : Nat → List Char → Option Lexed) :
    Nat → List Piece → Option (List Fragment × List LexicalError)
  | _, [] => some ([], [])
  | offset, .text chars :: pieces => do
      let next := offset + byteLength chars
      let (value, errors) ← Escape.decodeFrom? true chars offset 0 chars
      let (more, moreErrors) ← fragments? read next pieces
      return (.text (String.ofList value) ⟨offset, next⟩ :: more, errors ++ moreErrors)
  | offset, .splice chars closed :: pieces => do
      let stop := offset + 1 + byteLength chars
      let inner ← read (offset + 1) chars
      let errors := if closed then [] else [⟨.unterminatedInterpolation, offset, stop⟩]
      let (more, moreErrors) ← fragments? read (if closed then stop + 1 else stop) pieces
      return (.splice inner.tokens ⟨offset + 1, stop⟩ :: more, errors ++ inner.errors ++ moreErrors)

/-- What a match at `span` means, strings being decoded by offsets. -/
def interpret? (read : Nat → List Char → Option Lexed) (m : Match) (span : Span) :
    Option (TokenKind × List LexicalError) :=
  match m.shape with
  | .string body closed => do
      let (value, errors) ← Escape.decodeFrom? false body (span.start + 1) 0 body
      return (.string (String.ofList value),
        if closed then errors else ⟨.unterminatedString, span⟩ :: errors)
  | .interpolated pieces closed => do
      let (parts, errors) ← fragments? read (span.start + 2) pieces
      let spliceOpen := errors.any (·.cause == .unterminatedInterpolation)
      return (.interpolated parts,
        if closed || spliceOpen then errors else errors ++ [⟨.unterminatedString, span⟩])
  | _ => some (interpret (fun _ _ => .empty) m span)

def ofMatch? (read : Nat → List Char → Option Lexed) (offset : Nat) (m : Match) :
    Option (Token × List LexicalError) := do
  let span : Span := ⟨offset, offset + byteLength m.text⟩
  let (kind, errors) ← interpret? read m span
  return (⟨kind, String.ofList m.text, span⟩, errors)

/-- The tokens of a text that starts at `offset`, cut out of it by offsets. -/
def readWithin? : Nat → Nat → List Char → Option Lexed
  | 0, _, _ => some .empty
  | _ + 1, _, [] => some .empty
  | fuel + 1, offset, c :: cs => do
      let m ← Match.longest? c cs
      let (token, errors) ← ofMatch? (readWithin? fuel) offset m
      let more ← readWithin? fuel token.span.stop m.rest
      return more.cons token errors

theorem decodeFrom?_eq (interpolated : Bool) (start : Nat) (cs : List Char) :
    Escape.decodeFrom? interpolated cs start 0 cs = some (Escape.decode interpolated start cs) :=
  Escape.decodeFrom?_append interpolated [] cs start

variable {read : Nat → List Char → Option Lexed} {total : Nat → List Char → Lexed}

theorem fragments?_eq (hread : ∀ offset chars, read offset chars = some (total offset chars))
    (offset : Nat) (pieces : List Piece) :
    fragments? read offset pieces = some (fragments total offset pieces) := by
  induction pieces generalizing offset with
  | nil => rfl
  | cons piece pieces ih =>
    cases piece with
    | text chars => simp [fragments?, fragments, decodeFrom?_eq, ih]
    | splice chars closed => simp [fragments?, fragments, hread, ih]

theorem ofMatch?_eq (hread : ∀ offset chars, read offset chars = some (total offset chars))
    (offset : Nat) (m : Match) : ofMatch? read offset m = some (ofMatch total offset m) := by
  have hkind (span : Span) : interpret? read m span = some (interpret total m span) := by
    unfold interpret? interpret
    cases m.shape with
    | string body closed => simp [decodeFrom?_eq]
    | interpolated pieces closed => simp [fragments?_eq hread]
    | _ => rfl
  rw [ofMatch?, hkind]
  rfl

/-- Reading by offsets is reading. -/
theorem readWithin?_eq (fuel offset : Nat) (cs : List Char) :
    readWithin? fuel offset cs = some (readWithin fuel offset cs) := by
  induction fuel generalizing offset cs with
  | zero => rfl
  | succ fuel ih =>
    cases cs with
    | nil => rfl
    | cons c cs =>
      simp [readWithin?, readWithin, Match.longest?_eq, ofMatch?_eq ih, ih]

end Token

/-- The tokens of a whole source, cut out of it by offsets. -/
def tokenize? (source : String) : Option Lexed :=
  (Token.readWithin? source.toList.length 0 source.toList).map fun lexed =>
    ⟨lexed.tokens ++ [Token.endAt (byteLength source.toList)], lexed.errors⟩

/-- No text is cut at an offset that is not one of its own. -/
theorem tokenize?_eq (source : String) : tokenize? source = some (tokenize source) := by
  rw [tokenize?, Token.readWithin?_eq, ← Nat.zero_add (byteLength source.toList)]
  rfl

end ActorFrontend
