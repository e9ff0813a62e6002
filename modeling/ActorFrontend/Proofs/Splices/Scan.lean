import ActorFrontend.Proofs.Lexing.Boundary

/-!
# The scan for the end of a splice

The end of a splice is looked for character by character, with the braces counted and plain strings
passed over.  The scan passes over the text of a token just as it passes over the token, unless the
token is a comment or an interpolated string that deceives it, or a line ends in a string.
-/

namespace ActorFrontend

namespace Region

/-- What follows the brace that closes the splice, for a scan from inside a region on: if neither a
line nor the text ends before. -/
def behindBrace : Region → List Char → Option (List Char)
  | _, [] => none
  | .text, _ :: _ => none
  | .splice _, '\n' :: _ => none
  | .splice depth, '"' :: cs => behindBrace (.quoted depth) cs
  | .splice depth, '{' :: cs => behindBrace (.splice (depth + 1)) cs
  | .splice 0, '}' :: cs => some cs
  | .splice (depth + 1), '}' :: cs => behindBrace (.splice depth) cs
  | .splice depth, _ :: cs => behindBrace (.splice depth) cs
  | .quoted _, '\n' :: _ => none
  | .quoted depth, '"' :: cs => behindBrace (.splice depth) cs
  | .quoted _, ['\\'] => none
  | .quoted depth, '\\' :: _ :: cs => behindBrace (.quoted depth) cs
  | .quoted depth, _ :: cs => behindBrace (.quoted depth) cs

end Region

/-- The characters that the scan for the end of a splice stops at outside of strings. -/
def Source.steers (c : Char) : Bool := c == '"' || c == '{' || c == '}' || c == '\n'

variable {r : Region} {c : Char} {cs more rest : List Char} {depth : Nat}

/-- A character that none of the cases of the scan in a splice is about. -/
theorem Source.steers_eq_false (hfeed : c ≠ '\n') (hquote : c ≠ '"') (hopen : c ≠ '{')
    (hclose : depth = 0 → c ≠ '}') (hclose' : ∀ d, depth = d + 1 → c ≠ '}') :
    steers c = false := by
  have hbrace : c ≠ '}' := by
    cases depth with
    | zero => exact hclose rfl
    | succ depth => exact hclose' depth rfl
  simp [steers, hfeed, hquote, hopen, hbrace]

/-! ## Where the scan gets to -/

namespace Region

/-- In a splice, a character that does not steer the scan. -/
theorem behindBrace_splice (h : Source.steers c = false) :
    (splice depth).behindBrace (c :: cs) = (splice depth).behindBrace cs := by
  simp only [Source.steers, Bool.or_eq_false_iff, beq_eq_false_iff_ne] at h
  obtain ⟨⟨⟨hquote, hopen⟩, hclose⟩, hfeed⟩ := h
  cases depth with
  | zero => simp [behindBrace, hclose]
  | succ depth => simp [behindBrace, hclose]

/-- In a string, a character that neither ends it nor hides another one. -/
theorem behindBrace_quoted (hquote : c ≠ '"') (hfeed : c ≠ '\n') (hslash : c ≠ '\\') :
    (quoted depth).behindBrace (c :: cs) = (quoted depth).behindBrace cs := by
  rw [behindBrace]
  · exact hfeed
  · exact hquote
  · exact fun h _ => hslash h
  · exact fun _ _ h _ => hslash h

/-- A brace stands where the scan ends, and what is behind the brace does not matter. -/
theorem exists_append_of_behindBrace (h : r.behindBrace cs = some rest) :
    ∃ front, cs = front ++ '}' :: rest ∧ ∀ more, r.behindBrace (front ++ '}' :: more) = some more := by
  fun_induction behindBrace r cs with
  | case6 cs => exact ⟨[], by rw [Option.some.inj h]; rfl, fun more => rfl⟩
  | case1 | case2 | case3 | case9 | case11 => cases h
  | case12 depth c cs ih =>
    obtain ⟨front, rfl, hscan⟩ := ih h
    exact ⟨'\\' :: c :: front, rfl, hscan⟩
  | case4 depth cs ih | case5 depth cs ih | case7 depth cs ih | case10 depth cs ih =>
    obtain ⟨front, rfl, hscan⟩ := ih h
    exact ⟨_ :: front, rfl, hscan⟩
  | case8 depth c cs hfeed hquote hopen hclose hclose' ih =>
    obtain ⟨front, rfl, hscan⟩ := ih h
    have hc : Source.steers c = false := Source.steers_eq_false hfeed hquote hopen hclose hclose'
    refine ⟨c :: front, rfl, fun more => ?_⟩
    rw [List.cons_append, behindBrace_splice hc]
    exact hscan more
  | case13 depth c cs hfeed hquote hlone hescape ih =>
    obtain ⟨front, rfl, hscan⟩ := ih h
    have hslash : c ≠ '\\' := by
      rintro rfl
      cases front with
      | nil => exact hescape _ _ rfl rfl
      | cons d front => exact hescape _ _ rfl rfl
    refine ⟨c :: front, rfl, fun more => ?_⟩
    rw [List.cons_append, behindBrace_quoted hquote hfeed hslash]
    exact hscan more

/-- Characters that do not steer the scan. -/
theorem behindBrace_ordinary {text : List Char} (h : ∀ c ∈ text, Source.steers c = false) :
    (splice depth).behindBrace (text ++ more) = (splice depth).behindBrace more := by
  induction text with
  | nil => rfl
  | cons c text ih =>
    obtain ⟨hc, htext⟩ := List.forall_mem_cons.1 h
    rw [List.cons_append, behindBrace_splice hc, ih htext]

end Region

open Body in
theorem Body.pieces_consSplice {b : Body} {chars : List Char} {ended : Bool} {pieces : List Piece}
    (hb : b.OpensOn cs) (h : (b.consSplice c).pieces = .splice chars ended :: pieces) :
    ∃ inner, chars = c :: inner ∧ b.pieces = .splice inner ended :: pieces := by
  obtain ⟨-, inner, closed, others, hpieces⟩ := hb
  simp only [consSplice, hpieces, List.cons.injEq, Piece.splice.injEq] at h
  obtain ⟨⟨hchars, hclosed⟩, hothers⟩ := h
  exact ⟨inner, hchars.symm, by rw [hpieces, hclosed, hothers]⟩

/-- A closed splice ends where the scan for its end does. -/
theorem behindBrace_of_splice {chars : List Char} {pieces : List Piece} (hr : r ≠ .text)
    (h : (interpolatedBody r cs).pieces = .splice chars true :: pieces) :
    ∃ rest, cs = chars ++ '}' :: rest ∧ r.behindBrace cs = some rest := by
  have hsplice (depth : Nat) (cs : List Char) : (interpolatedBody (.splice depth) cs).OpensOn cs :=
    accounts_interpolatedBody (.splice depth) cs
  have hquoted (depth : Nat) (cs : List Char) : (interpolatedBody (.quoted depth) cs).OpensOn cs :=
    accounts_interpolatedBody (.quoted depth) cs
  fun_induction interpolatedBody r cs generalizing chars with
  | case1 | case2 | case3 | case4 | case5 | case6 | case7 => exact absurd rfl hr
  | case8 | case9 | case15 | case16 => cases h
  | case18 => cases h
  | case10 depth cs ih =>
    obtain ⟨inner, rfl, hinner⟩ := Body.pieces_consSplice (hquoted depth cs) h
    obtain ⟨rest, rfl, hscan⟩ := ih (by simp) hinner
    exact ⟨rest, rfl, hscan⟩
  | case11 depth cs ih | case13 depth cs ih | case17 depth cs ih =>
    obtain ⟨inner, rfl, hinner⟩ := Body.pieces_consSplice (hsplice _ cs) h
    obtain ⟨rest, rfl, hscan⟩ := ih (by simp) hinner
    exact ⟨rest, rfl, hscan⟩
  | case12 cs =>
    obtain ⟨⟨rfl, -⟩, -⟩ : ([] = chars ∧ true = true) ∧ _ := by simpa [Body.endSplice] using h
    exact ⟨cs, rfl, rfl⟩
  | case14 depth c cs hfeed hquote hopen hclose hclose' ih =>
    obtain ⟨inner, rfl, hinner⟩ := Body.pieces_consSplice (hsplice _ cs) h
    obtain ⟨rest, rfl, hscan⟩ := ih (by simp) hinner
    have hc : Source.steers c = false := Source.steers_eq_false hfeed hquote hopen hclose hclose'
    exact ⟨rest, rfl, by rw [Region.behindBrace_splice hc, hscan]⟩
  | case19 depth c cs ih =>
    -- a backslash and the character that it hides
    obtain ⟨_, rfl, houter⟩ := Body.pieces_consSplice ((hquoted depth cs).consSplice c) h
    obtain ⟨inner, rfl, hinner⟩ := Body.pieces_consSplice (hquoted depth cs) houter
    obtain ⟨rest, rfl, hscan⟩ := ih (by simp) hinner
    exact ⟨rest, rfl, hscan⟩
  | case20 depth c cs hfeed hquote hlone hescape ih =>
    have hslash : c ≠ '\\' := by
      rintro rfl
      cases cs with
      | nil => exact hlone rfl rfl
      | cons d cs => exact hescape d cs rfl rfl
    obtain ⟨inner, rfl, hinner⟩ := Body.pieces_consSplice (hquoted depth cs) h
    obtain ⟨rest, rfl, hscan⟩ := ih (by simp) hinner
    exact ⟨rest, rfl, by rw [Region.behindBrace_quoted hquote hfeed hslash, hscan]⟩

/-- The scan for the end of a splice with these characters ends behind them, whatever follows. -/
def Region.Closes (chars : List Char) : Prop :=
  ∀ more, (splice 0).behindBrace (chars ++ '}' :: more) = some more

/-- The pieces of a body of which all characters are read in it, if it is read from inside a region
on. -/
def Region.whole : Region → List Piece → List Piece
  | .text, pieces => pieces
  | .splice _, pieces | .quoted _, pieces => pieces.tail

/-- The scan finds the ends of all closed splices. -/
theorem closes_interpolatedBody (r : Region) (cs : List Char) :
    ∀ chars, .splice chars true ∈ r.whole (interpolatedBody r cs).pieces → Region.Closes chars := by
  have htext (c : Char) (b : Body) (chars : List Char) (h : .splice chars true ∈ (b.consText c).pieces) :
      .splice chars true ∈ b.pieces := by
    unfold Body.consText at h
    split at h
    case h_1 inner pieces hpieces =>
      rw [hpieces]
      exact List.mem_cons_of_mem _ ((List.mem_cons.1 h).resolve_left (by simp))
    case h_2 => exact (List.mem_cons.1 h).resolve_left (by simp)
  have htail (c : Char) (b : Body) : (b.consSplice c).pieces.tail = b.pieces.tail := by
    unfold Body.consSplice
    split
    case h_1 hpieces => rw [hpieces]; rfl
    case h_2 => rfl
  fun_induction interpolatedBody r cs with
  | case1 | case2 | case3 | case8 | case9 | case15 | case16 | case18 =>
    exact fun chars h => absurd h List.not_mem_nil
  | case4 => exact fun chars h => absurd (htext _ _ _ h) List.not_mem_nil
  | case5 c cs hhidden ih => exact fun chars h => ih chars (htext _ _ _ (htext _ _ _ h))
  | case7 c cs hquote hfeed hhidden hescape hopen ih => exact fun chars h => ih chars (htext _ _ _ h)
  | case6 cs ih =>
    intro chars h
    obtain ⟨-, inner, closed, pieces, hpieces⟩ :
        (interpolatedBody (.splice 0) cs).OpensOn cs := accounts_interpolatedBody (.splice 0) cs
    have h : .splice chars true ∈ (interpolatedBody (.splice 0) cs).pieces := h
    rw [hpieces] at h
    obtain hfirst | hmore := List.mem_cons.1 h
    · -- the splice that starts here
      obtain ⟨rfl, rfl⟩ := Piece.splice.inj hfirst
      obtain ⟨rest, hcs, hscan⟩ := behindBrace_of_splice (r := .splice 0) (by simp) hpieces
      obtain ⟨front, hfront, hcloses⟩ := Region.exists_append_of_behindBrace hscan
      obtain rfl : chars = front := List.append_cancel_right (hcs.symm.trans hfront)
      exact hcloses
    · refine ih chars ?_
      show .splice chars true ∈ (interpolatedBody (.splice 0) cs).pieces.tail
      rw [hpieces]
      exact hmore
  | case12 cs ih => exact ih
  | case10 depth cs ih | case11 depth cs ih | case13 depth cs ih | case14 depth c cs _ _ _ _ _ ih
  | case17 depth cs ih | case20 depth c cs _ _ _ _ ih =>
    simp only [Region.whole, htail]
    exact ih
  | case19 depth c cs ih =>
    simp only [Region.whole, htail]
    exact ih

/-! ## Strings -/

/-- What a scan inside of a string makes of the string: it comes out of it where the string is closed;
of an open string the scan finds no end, or the backslash before the line feed hides that from it. -/
def ScansString (depth : Nat) (cs : List Char) (closed : Bool) (rest : List Char) : Prop :=
  if closed = true then
    (Region.quoted depth).behindBrace cs = (Region.splice depth).behindBrace rest
  else (Region.quoted depth).behindBrace cs = none ∨
    ∃ more, rest = '\n' :: more ∧
      (Region.quoted depth).behindBrace cs = (Region.quoted depth).behindBrace more

namespace ScansString

variable {closed : Bool}

/-- A character that neither ends the string nor hides another one. -/
theorem cons (h : ScansString depth cs closed rest) (hquote : c ≠ '"') (hfeed : c ≠ '\n')
    (hslash : c ≠ '\\') : ScansString depth (c :: cs) closed rest := by
  unfold ScansString at h ⊢
  rwa [Region.behindBrace_quoted hquote hfeed hslash]

/-- A backslash and the character that it hides. -/
theorem hidden (h : ScansString depth cs closed rest) : ScansString depth ('\\' :: c :: cs) closed rest := h

end ScansString

theorem scansString_plainBody (depth : Nat) (cs : List Char) :
    ScansString depth cs (plainBody cs).2.1 (plainBody cs).2.2 := by
  fun_induction plainBody cs with
  | case1 => exact .inl rfl
  | case2 cs => exact rfl
  | case3 cs => exact .inl rfl
  | case4 cs => exact .inr ⟨cs, rfl, rfl⟩
  | case5 c cs hhidden body closed rest hread ih =>
    rw [hread] at ih
    exact ih
  | case6 c cs hquote hfeed hhidden hescape body closed rest hread ih =>
    rw [hread] at ih
    by_cases hslash : c = '\\'
    · -- a backslash with nothing behind it
      cases cs with
      | nil =>
        cases hread
        exact .inl (by rw [hslash]; rfl)
      | cons d cs => exact absurd rfl (hescape d cs hslash)
    · exact ih.cons hquote hfeed hslash

/-- No quote stands in a splice of the body. -/
def Body.QuoteFree (b : Body) : Prop :=
  ∀ chars ended, .splice chars ended ∈ b.pieces → '"' ∉ chars

namespace Body

variable {b : Body}

theorem QuoteFree.of_consText (h : (b.consText c).QuoteFree) : b.QuoteFree := by
  intro chars ended hmem
  refine h chars ended ?_
  unfold consText
  split
  case h_1 inner pieces hpieces =>
    rw [hpieces] at hmem
    exact List.mem_cons_of_mem _ ((List.mem_cons.1 hmem).resolve_left (by simp))
  case h_2 => exact List.mem_cons_of_mem _ hmem

theorem QuoteFree.of_endSplice {ended : Bool} (h : (b.endSplice ended).QuoteFree) : b.QuoteFree :=
  fun chars ended hmem => h chars ended (List.mem_cons_of_mem _ hmem)

theorem QuoteFree.of_consSplice (hb : b.OpensOn cs) (h : (b.consSplice c).QuoteFree) :
    c ≠ '"' ∧ b.QuoteFree := by
  obtain ⟨-, inner, closed, pieces, hpieces⟩ := hb
  unfold QuoteFree consSplice at h
  rw [hpieces] at h
  have hfirst := h (c :: inner) closed List.mem_cons_self
  refine ⟨fun hc => hfirst (by simp [hc]), fun chars ended hmem => ?_⟩
  rw [hpieces] at hmem
  obtain hmem | hmem := List.mem_cons.1 hmem
  · obtain ⟨rfl, rfl⟩ := Piece.splice.inj hmem
    exact fun hquote => hfirst (List.mem_cons_of_mem c hquote)
  · exact h chars ended (List.mem_cons_of_mem _ hmem)

end Body

/-- Nor does the scan notice that a string is interpolated, if no quote stands in one of its splices. -/
theorem scansString_interpolatedBody (depth : Nat) (r : Region) (cs : List Char)
    (hr : ∀ d, r ≠ .quoted d) (hfree : (interpolatedBody r cs).QuoteFree) :
    ScansString depth cs (interpolatedBody r cs).closed (interpolatedBody r cs).rest ∧
      (r ≠ .text → ScansString depth ('\\' :: cs) (interpolatedBody r cs).closed
        (interpolatedBody r cs).rest) := by
  have hsplice (depth : Nat) (cs : List Char) : (interpolatedBody (.splice depth) cs).OpensOn cs :=
    accounts_interpolatedBody (.splice depth) cs
  fun_induction interpolatedBody r cs with
  | case1 | case3 => exact ⟨.inl rfl, fun h => absurd rfl h⟩
  | case2 cs => exact ⟨rfl, fun h => absurd rfl h⟩
  | case4 cs => exact ⟨.inr ⟨cs, rfl, rfl⟩, fun h => absurd rfl h⟩
  | case5 c cs hhidden ih =>
    have hstring := (ih (by simp) hfree.of_consText.of_consText).1
    refine ⟨?_, fun h => absurd rfl h⟩
    simp only [Body.closed_consText, Body.rest_consText]
    exact hstring.hidden
  | case6 cs ih => exact ⟨(ih (by simp) hfree).1, fun h => absurd rfl h⟩
  | case7 c cs hquote hfeed hhidden hescape hopen ih =>
    refine ⟨?_, fun h => absurd rfl h⟩
    have hstring := (ih (by simp) hfree.of_consText).1
    simp only [Body.closed_consText, Body.rest_consText]
    by_cases hslash : c = '\\'
    · -- a backslash with nothing behind it
      cases cs with
      | nil => exact .inl (by rw [hslash]; rfl)
      | cons d cs => exact absurd rfl (hescape d cs hslash)
    · exact hstring.cons hquote hfeed hslash
  | case8 depth => exact ⟨.inl rfl, fun _ => .inl rfl⟩
  | case9 depth cs => exact ⟨.inl rfl, fun _ => .inr ⟨cs, rfl, rfl⟩⟩
  | case10 depth cs ih =>
    have hquoted : (interpolatedBody (.quoted depth) cs).OpensOn cs :=
      accounts_interpolatedBody (.quoted depth) cs
    exact absurd rfl (hfree.of_consSplice hquoted).1
  | case11 depth cs ih | case13 depth cs ih =>
    have hstring := (ih (by simp) (hfree.of_consSplice (hsplice _ cs)).2).1
    simp only [Body.closed_consSplice, Body.rest_consSplice]
    exact ⟨hstring.cons (by decide) (by decide) (by decide), fun _ => hstring.hidden⟩
  | case12 cs ih =>
    have hstring := (ih (by simp) hfree.of_endSplice).1
    exact ⟨hstring.cons (by decide) (by decide) (by decide), fun _ => hstring.hidden⟩
  | case14 depth c cs hfeed hquote hopen hclose hclose' ih =>
    obtain ⟨hstring, hslashed⟩ := ih (by simp) (hfree.of_consSplice (hsplice _ cs)).2
    simp only [Body.closed_consSplice, Body.rest_consSplice]
    refine ⟨?_, fun _ => hstring.hidden⟩
    -- in a splice a backslash hides nothing, but the scan takes it to do so
    by_cases hslash : c = '\\'
    · rw [hslash]
      exact hslashed (by simp)
    · exact hstring.cons hquote hfeed hslash
  | case15 | case16 | case17 | case18 | case19 | case20 => exact absurd rfl (hr _)

end ActorFrontend
