import ActorFrontend.Proofs.Lines.Utf8
import ActorFrontend.Proofs.Splices.Scan
import ActorFrontend.Proofs.Strings.Escapes

/-!
# Scanning a string by its bytes

The end of a string literal, and the end of a splice in it, looked for byte by byte with an offset
that is counted along.  A scan may land between the bytes of a character, behind a backslash that
hides the first of them; yet it ends only where a character does, because all bytes but those of
ASCII characters are passed over.
-/

namespace ActorFrontend

open Source

/-! ## The scans -/

/-- Looks for the brace that closes a splice, from inside a region on, the byte at hand being number
`i`.  The answer is the offset of the brace, or, as an error, the offset at which there is no hope for
it. -/
def Region.spliceEnd : Region → Nat → List UInt8 → Except Nat Nat
  | _, i, [] => .error i
  | .text, i, _ :: _ => .error i
  | .splice depth, i, b :: bs =>
      if b = asciiByte '\n' then .error i
      else if b = asciiByte '"' then spliceEnd (.quoted depth) (i + 1) bs
      else if b = asciiByte '{' then spliceEnd (.splice (depth + 1)) (i + 1) bs
      else if b = asciiByte '}' then
        if depth = 0 then .ok i else spliceEnd (.splice (depth - 1)) (i + 1) bs
      else spliceEnd (.splice depth) (i + 1) bs
  | .quoted depth, i, b :: bs =>
      if b = asciiByte '"' then spliceEnd (.splice depth) (i + 1) bs
      else if b = asciiByte '\n' then .error i
      else if b = asciiByte '\\' then
        match bs with
        | [] => .error (i + 1)
        | _ :: bs => spliceEnd (.quoted depth) (i + 2) bs
      else spliceEnd (.quoted depth) (i + 1) bs

/-- Looks for the end of a string literal whose opening quote has been read, the byte at hand being
number `i`: where it ends, its closing quote included, and whether it has one. -/
def bodyEnd (interpolated : Bool) (i : Nat) (bytes : List UInt8) : Nat × Bool :=
  match bytes with
  | [] => (i, false)
  | b :: bs =>
      if b = asciiByte '"' then (i + 1, true)
      else if b = asciiByte '\\' ∧ bs.head?.any (· != asciiByte '\n') then
        bodyEnd interpolated (i + 2) (bs.drop 1)
      else if b = asciiByte '\n' then (i, false)
      else if b = asciiByte '{' ∧ interpolated then
        match (Region.splice 0).spliceEnd (i + 1) bs with
        | .ok close => bodyEnd interpolated (close + 1) (bs.drop (close - i))
        | .error stop => (stop, false)
      else bodyEnd interpolated (i + 1) bs
termination_by bytes.length
decreasing_by all_goals simp only [List.length_drop, List.length_cons]; omega

variable {c : Char} {cs : List Char} {depth : Nat} {r : Region}

/-! ## Bytes that are passed over -/

namespace Region

/-- Bytes that mean nothing in a splice. -/
theorem spliceEnd_splice_append {bytes : List UInt8} (i : Nat) (more : List UInt8)
    (h : ∀ b ∈ bytes, b ≠ asciiByte '\n' ∧ b ≠ asciiByte '"' ∧ b ≠ asciiByte '{' ∧ b ≠ asciiByte '}') :
    (splice depth).spliceEnd i (bytes ++ more) =
      (splice depth).spliceEnd (i + bytes.length) more := by
  induction bytes generalizing i with
  | nil => rfl
  | cons b bytes ih =>
    obtain ⟨⟨hfeed, hquote, hopen, hclose⟩, hbytes⟩ := List.forall_mem_cons.1 h
    rw [List.cons_append, spliceEnd, if_neg hfeed, if_neg hquote, if_neg hopen, if_neg hclose,
      ih _ hbytes, List.length_cons, Nat.add_assoc, Nat.add_comm 1]

/-- What the scan does with a byte in a splice. -/
theorem spliceEnd_splice_cons (i : Nat) (b : UInt8) (bs : List UInt8) :
    (splice depth).spliceEnd i (b :: bs) =
      if b = asciiByte '\n' then .error i
      else if b = asciiByte '"' then (quoted depth).spliceEnd (i + 1) bs
      else if b = asciiByte '{' then (splice (depth + 1)).spliceEnd (i + 1) bs
      else if b = asciiByte '}' then
        if depth = 0 then .ok i else (splice (depth - 1)).spliceEnd (i + 1) bs
      else (splice depth).spliceEnd (i + 1) bs := rfl

/-- What the scan does with a byte in a string. -/
theorem spliceEnd_quoted_cons (i : Nat) (b : UInt8) (bs : List UInt8) :
    (quoted depth).spliceEnd i (b :: bs) =
      if b = asciiByte '"' then (splice depth).spliceEnd (i + 1) bs
      else if b = asciiByte '\n' then .error i
      else if b = asciiByte '\\' then
        match bs with
        | [] => .error (i + 1)
        | _ :: bs => (quoted depth).spliceEnd (i + 2) bs
      else (quoted depth).spliceEnd (i + 1) bs := by
  rw [spliceEnd.eq_def]

theorem spliceEnd_feed (i : Nat) :
    (quoted depth).spliceEnd i (utf8 ('\n' :: cs)) = .error i := by
  rw [utf8_cons_of_ascii (by decide), spliceEnd_quoted_cons, if_neg (by decide), if_pos rfl]

theorem spliceEnd_quote (i : Nat) :
    (quoted depth).spliceEnd i (utf8 ('"' :: cs)) = (splice depth).spliceEnd (i + 1) (utf8 cs) := by
  rw [utf8_cons_of_ascii (by decide), spliceEnd_quoted_cons, if_pos rfl]

/-- Bytes that mean nothing in a string. -/
theorem spliceEnd_quoted_append {bytes : List UInt8} (i : Nat) (more : List UInt8)
    (h : ∀ b ∈ bytes, b ≠ asciiByte '"' ∧ b ≠ asciiByte '\n' ∧ b ≠ asciiByte '\\') :
    (quoted depth).spliceEnd i (bytes ++ more) =
      (quoted depth).spliceEnd (i + bytes.length) more := by
  induction bytes generalizing i with
  | nil => rfl
  | cons b bytes ih =>
    obtain ⟨⟨hquote, hfeed, hslash⟩, hbytes⟩ := List.forall_mem_cons.1 h
    rw [List.cons_append, spliceEnd_quoted_cons, if_neg hquote, if_neg hfeed, if_neg hslash,
      ih _ hbytes, List.length_cons, Nat.add_assoc, Nat.add_comm 1]

/-- In a splice, a character that does not steer the scan. -/
theorem spliceEnd_splice (i : Nat) (h : steers c = false) :
    (splice depth).spliceEnd i (utf8 (c :: cs)) =
      (splice depth).spliceEnd (i + c.utf8Size) (utf8 cs) := by
  simp only [steers, Bool.or_eq_false_iff, beq_eq_false_iff_ne] at h
  obtain ⟨⟨⟨hquote, hopen⟩, hclose⟩, hfeed⟩ := h
  rw [utf8_cons, spliceEnd_splice_append, String.length_utf8EncodeChar]
  intro b hb
  exact ⟨ne_asciiByte_of_mem hb (by decide) hfeed, ne_asciiByte_of_mem hb (by decide) hquote,
    ne_asciiByte_of_mem hb (by decide) hopen, ne_asciiByte_of_mem hb (by decide) hclose⟩

/-- In a string, a character that neither ends it nor hides another one. -/
theorem spliceEnd_quoted (i : Nat) (hquote : c ≠ '"') (hfeed : c ≠ '\n') (hslash : c ≠ '\\') :
    (quoted depth).spliceEnd i (utf8 (c :: cs)) =
      (quoted depth).spliceEnd (i + c.utf8Size) (utf8 cs) := by
  rw [utf8_cons, spliceEnd_quoted_append, String.length_utf8EncodeChar]
  intro b hb
  exact ⟨ne_asciiByte_of_mem hb (by decide) hquote, ne_asciiByte_of_mem hb (by decide) hfeed,
    ne_asciiByte_of_mem hb (by decide) hslash⟩

/-- In a string, a backslash and the character that it hides.  It hides only the first byte; the
others mean nothing. -/
theorem spliceEnd_hidden (i : Nat) :
    (quoted depth).spliceEnd i (utf8 ('\\' :: c :: cs)) =
      (quoted depth).spliceEnd (i + 1 + c.utf8Size) (utf8 cs) := by
  obtain ⟨b, bytes, hbytes, hhigh⟩ := exists_utf8EncodeChar c
  have hsize : c.utf8Size = bytes.length + 1 := by
    rw [← String.length_utf8EncodeChar, hbytes, List.length_cons]
  have hslash : asciiByte '\\' ≠ asciiByte '"' ∧ asciiByte '\\' ≠ asciiByte '\n' := by decide
  rw [utf8_cons_of_ascii (by decide), utf8_cons, hbytes, List.cons_append, spliceEnd_quoted_cons,
    if_neg hslash.1, if_neg hslash.2, if_pos rfl]
  show (quoted depth).spliceEnd (i + 2) (bytes ++ utf8 cs) = _
  rw [spliceEnd_quoted_append, hsize]
  · congr 1
    omega
  · intro x hx
    exact ⟨ne_asciiByte (hhigh x hx) (by decide), ne_asciiByte (hhigh x hx) (by decide),
      ne_asciiByte (hhigh x hx) (by decide)⟩

end Region

/-! ## The end of a splice -/

/-- What stands behind the splice that a body starts with: more of the body behind its brace, or
nothing, if the splice is open. -/
def Body.GoesOn (b : Body) (cs chars : List Char) (pieces : List Piece) : Bool → Prop
  | true => ∃ rest, cs = chars ++ '}' :: rest ∧ interpolatedBody .text rest = { b with pieces }
  | false => cs = chars ++ b.rest ∧ pieces = [] ∧ b.closed = false

theorem Body.GoesOn.consSplice {b : Body} {chars : List Char} {pieces : List Piece} {ended : Bool}
    (h : b.GoesOn cs chars pieces ended) (c : Char) :
    (b.consSplice c).GoesOn (c :: cs) (c :: chars) pieces ended := by
  have hsame : (b.consSplice c).closed = b.closed ∧ (b.consSplice c).rest = b.rest := by
    unfold Body.consSplice
    split <;> exact ⟨rfl, rfl⟩
  cases ended with
  | true =>
    obtain ⟨rest, rfl, hrest⟩ := h
    refine ⟨rest, rfl, ?_⟩
    rw [hrest, Body.mk.injEq]
    exact ⟨rfl, hsame.1.symm, hsame.2.symm⟩
  | false =>
    obtain ⟨rfl, hpieces, hclosed⟩ := h
    exact ⟨by rw [hsame.2]; rfl, hpieces, hsame.1.trans hclosed⟩

/-- A splice that is open from the start on. -/
theorem Body.pieces_cutOff {rest chars : List Char} {ended : Bool} {pieces : List Piece}
    (h : ((Body.cutOff rest).endSplice false).pieces = .splice chars ended :: pieces) :
    (chars = [] ∧ ended = false) ∧ pieces = [] := by
  simp only [Body.endSplice, Body.cutOff, List.cons.injEq, Piece.splice.injEq] at h
  exact ⟨⟨h.1.1.symm, h.1.2.symm⟩, h.2.symm⟩

/-- The answer of a scan that ends at an offset. -/
def answerAt (ended : Bool) (offset : Nat) : Except Nat Nat :=
  if ended then .ok offset else .error offset

/-- The scan ends where the splice does that is read. -/
theorem spliceEnd_of_splice {chars : List Char} {ended : Bool} {pieces : List Piece}
    (hr : r ≠ .text) (h : (interpolatedBody r cs).pieces = .splice chars ended :: pieces) (i : Nat) :
    r.spliceEnd i (utf8 cs) = answerAt ended (i + byteLength chars) ∧
      (interpolatedBody r cs).GoesOn cs chars pieces ended := by
  have hsplice (depth : Nat) (cs : List Char) : (interpolatedBody (.splice depth) cs).OpensOn cs :=
    accounts_interpolatedBody (.splice depth) cs
  have hquoted (depth : Nat) (cs : List Char) : (interpolatedBody (.quoted depth) cs).OpensOn cs :=
    accounts_interpolatedBody (.quoted depth) cs
  fun_induction interpolatedBody r cs generalizing chars i with
  | case1 | case2 | case3 | case4 | case5 | case6 | case7 => exact absurd rfl hr
  | case8 | case9 | case15 =>
    obtain ⟨⟨rfl, rfl⟩, rfl⟩ := Body.pieces_cutOff h
    exact ⟨rfl, rfl, rfl, rfl⟩
  | case16 =>
    obtain ⟨⟨rfl, rfl⟩, rfl⟩ := Body.pieces_cutOff h
    exact ⟨Region.spliceEnd_feed i, rfl, rfl, rfl⟩
  | case18 =>
    obtain ⟨inner, rfl, hinner⟩ := Body.pieces_consSplice (Body.opensOn_cutOff []) h
    obtain ⟨⟨rfl, rfl⟩, rfl⟩ := Body.pieces_cutOff hinner
    exact ⟨rfl, rfl, rfl, rfl⟩
  | case10 depth cs ih =>
    obtain ⟨inner, rfl, hinner⟩ := Body.pieces_consSplice (hquoted depth cs) h
    obtain ⟨hscan, hmore⟩ := ih (by simp) hinner (i + 1)
    refine ⟨?_, hmore.consSplice _⟩
    rw [byteLength_cons, ← Nat.add_assoc]
    exact hscan
  | case11 depth cs ih | case13 depth cs ih =>
    obtain ⟨inner, rfl, hinner⟩ := Body.pieces_consSplice (hsplice _ cs) h
    obtain ⟨hscan, hmore⟩ := ih (by simp) hinner (i + 1)
    refine ⟨?_, hmore.consSplice _⟩
    rw [byteLength_cons, ← Nat.add_assoc]
    exact hscan
  | case17 depth cs ih =>
    obtain ⟨inner, rfl, hinner⟩ := Body.pieces_consSplice (hsplice _ cs) h
    obtain ⟨hscan, hmore⟩ := ih (by simp) hinner (i + 1)
    refine ⟨?_, hmore.consSplice _⟩
    rw [Region.spliceEnd_quote, byteLength_cons, ← Nat.add_assoc]
    exact hscan
  | case12 cs =>
    obtain ⟨⟨rfl, rfl⟩, hpieces⟩ : ([] = chars ∧ true = ended) ∧ _ := by
      simpa [Body.endSplice] using h
    refine ⟨rfl, cs, rfl, ?_⟩
    rw [Body.mk.injEq]
    exact ⟨hpieces, rfl, rfl⟩
  | case14 depth c cs hfeed hquote hopen hclose hclose' ih =>
    obtain ⟨inner, rfl, hinner⟩ := Body.pieces_consSplice (hsplice _ cs) h
    obtain ⟨hscan, hmore⟩ := ih (by simp) hinner (i + c.utf8Size)
    have hc : steers c = false := steers_eq_false hfeed hquote hopen hclose hclose'
    refine ⟨?_, hmore.consSplice c⟩
    rw [Region.spliceEnd_splice i hc, hscan, byteLength_cons, Nat.add_assoc]
  | case19 depth c cs ih =>
    -- a backslash and the character that it hides
    obtain ⟨_, rfl, houter⟩ := Body.pieces_consSplice ((hquoted depth cs).consSplice c) h
    obtain ⟨inner, rfl, hinner⟩ := Body.pieces_consSplice (hquoted depth cs) houter
    obtain ⟨hscan, hmore⟩ := ih (by simp) hinner (i + 1 + c.utf8Size)
    have hslash : Char.utf8Size '\\' = 1 := rfl
    refine ⟨?_, (hmore.consSplice c).consSplice _⟩
    rw [Region.spliceEnd_hidden, hscan, byteLength_cons, byteLength_cons, hslash, Nat.add_assoc,
      Nat.add_assoc]
  | case20 depth c cs hfeed hquote hlone hescape ih =>
    have hslash : c ≠ '\\' := by
      rintro rfl
      cases cs with
      | nil => exact hlone rfl rfl
      | cons d cs => exact hescape d cs rfl rfl
    obtain ⟨inner, rfl, hinner⟩ := Body.pieces_consSplice (hquoted depth cs) h
    obtain ⟨hscan, hmore⟩ := ih (by simp) hinner (i + c.utf8Size)
    refine ⟨?_, hmore.consSplice c⟩
    rw [Region.spliceEnd_quoted i hquote hfeed hslash, hscan, byteLength_cons, Nat.add_assoc]

/-! ## The end of a string -/

section BodyEnd

variable {interpolated : Bool}

/-- Bytes that mean nothing in a string literal. -/
theorem bodyEnd_append {bytes : List UInt8} (i : Nat) (more : List UInt8)
    (h : ∀ b ∈ bytes, b ≠ asciiByte '"' ∧ b ≠ asciiByte '\\' ∧ b ≠ asciiByte '\n' ∧
      (interpolated = true → b ≠ asciiByte '{')) :
    bodyEnd interpolated i (bytes ++ more) = bodyEnd interpolated (i + bytes.length) more := by
  induction bytes generalizing i with
  | nil => rfl
  | cons b bytes ih =>
    obtain ⟨⟨hquote, hslash, hfeed, hopen⟩, hbytes⟩ := List.forall_mem_cons.1 h
    rw [List.cons_append, bodyEnd, if_neg hquote, if_neg fun h => hslash h.1, if_neg hfeed,
      if_neg fun h => hopen h.2 h.1, ih _ hbytes, List.length_cons, Nat.add_assoc, Nat.add_comm 1]

theorem bodyEnd_char (i : Nat) (hquote : c ≠ '"') (hslash : c ≠ '\\') (hfeed : c ≠ '\n')
    (hopen : interpolated = true → c ≠ '{') :
    bodyEnd interpolated i (utf8 (c :: cs)) = bodyEnd interpolated (i + c.utf8Size) (utf8 cs) := by
  rw [utf8_cons, bodyEnd_append, String.length_utf8EncodeChar]
  intro b hb
  exact ⟨ne_asciiByte_of_mem hb (by decide) hquote, ne_asciiByte_of_mem hb (by decide) hslash,
    ne_asciiByte_of_mem hb (by decide) hfeed, fun h => ne_asciiByte_of_mem hb (by decide) (hopen h)⟩

/-- A backslash and the character that it hides, of which only the first byte is passed over as
such. -/
theorem bodyEnd_hidden (i : Nat) (hfeed : c ≠ '\n') :
    bodyEnd interpolated i (utf8 ('\\' :: c :: cs)) =
      bodyEnd interpolated (i + 1 + c.utf8Size) (utf8 cs) := by
  obtain ⟨b, bytes, hbytes, hhigh⟩ := exists_utf8EncodeChar c
  have hsize : c.utf8Size = bytes.length + 1 := by
    rw [← String.length_utf8EncodeChar, hbytes, List.length_cons]
  have hb : b ≠ asciiByte '\n' :=
    ne_asciiByte_of_mem (by rw [hbytes]; exact List.mem_cons_self ..) (by decide) hfeed
  rw [utf8_cons_of_ascii (by decide), utf8_cons, hbytes, List.cons_append, bodyEnd,
    if_neg (by decide), if_pos ⟨rfl, by simpa using hb⟩, List.drop_succ_cons, List.drop_zero,
    bodyEnd_append, hsize]
  · congr 1
    omega
  · intro x hx
    exact ⟨ne_asciiByte (hhigh x hx) (by decide), ne_asciiByte (hhigh x hx) (by decide),
      ne_asciiByte (hhigh x hx) (by decide), fun _ => ne_asciiByte (hhigh x hx) (by decide)⟩

theorem bodyEnd_nil (i : Nat) : bodyEnd interpolated i (utf8 []) = (i, false) := by
  rw [utf8_nil, bodyEnd]

theorem bodyEnd_feed (i : Nat) : bodyEnd interpolated i (utf8 ('\n' :: cs)) = (i, false) := by
  have hfeed : asciiByte '\n' ≠ asciiByte '"' ∧ asciiByte '\n' ≠ asciiByte '\\' := by decide
  rw [utf8_cons_of_ascii (by decide), bodyEnd, if_neg hfeed.1, if_neg fun h => hfeed.2 h.1,
    if_pos rfl]

theorem bodyEnd_quote (i : Nat) : bodyEnd interpolated i (utf8 ('"' :: cs)) = (i + 1, true) := by
  rw [utf8_cons_of_ascii (by decide), bodyEnd, if_pos rfl]

/-- A backslash at the end of the text or of the line hides nothing. -/
theorem bodyEnd_slash (i : Nat) (h : cs = [] ∨ ∃ more, cs = '\n' :: more) :
    bodyEnd interpolated i (utf8 ('\\' :: cs)) = (i + 1, false) := by
  have hslash : asciiByte '\\' ≠ asciiByte '"' ∧ asciiByte '\\' ≠ asciiByte '\n' ∧
    asciiByte '\\' ≠ asciiByte '{' := by decide
  have hhead : (utf8 cs).head?.any (· != asciiByte '\n') = false := by
    obtain rfl | ⟨more, rfl⟩ := h
    · rfl
    · rw [utf8_cons_of_ascii (by decide)]
      rfl
  rw [utf8_cons_of_ascii (by decide), bodyEnd, if_neg hslash.1, hhead, if_neg (by simp),
    if_neg hslash.2.1, if_neg fun h => hslash.2.2 h.1]
  obtain rfl | ⟨more, rfl⟩ := h
  · exact bodyEnd_nil _
  · exact bodyEnd_feed _

/-- A brace that opens a splice. -/
theorem bodyEnd_brace (i : Nat) :
    bodyEnd true i (utf8 ('{' :: cs)) =
      match (Region.splice 0).spliceEnd (i + 1) (utf8 cs) with
      | .ok close => bodyEnd true (close + 1) ((utf8 cs).drop (close - i))
      | .error stop => (stop, false) := by
  have hopen : asciiByte '{' ≠ asciiByte '"' ∧ asciiByte '{' ≠ asciiByte '\\' ∧
    asciiByte '{' ≠ asciiByte '\n' := by decide
  rw [utf8_cons_of_ascii (by decide), bodyEnd, if_neg hopen.1, if_neg fun h => hopen.2.1 h.1,
    if_neg hopen.2.2, if_pos ⟨rfl, rfl⟩]

end BodyEnd

/-- A plain string ends where its body does, behind its quote. -/
theorem bodyEnd_plainBody (cs : List Char) (i : Nat) :
    bodyEnd false i (utf8 cs) =
      (i + byteLength ((plainBody cs).1 ++ closing '"' (plainBody cs).2.1), (plainBody cs).2.1) := by
  fun_induction plainBody cs generalizing i with
  | case1 => exact bodyEnd_nil i
  | case2 cs => exact bodyEnd_quote i
  | case3 cs => exact bodyEnd_feed i
  | case4 cs => exact bodyEnd_slash i (.inr ⟨cs, rfl⟩)
  | case5 c cs hfeed body closed rest heq ih =>
    have hslash : Char.utf8Size '\\' = 1 := rfl
    rw [bodyEnd_hidden i (by simpa using hfeed), ih, heq]
    simp only [List.cons_append, byteLength_cons, hslash, Nat.add_assoc]
  | case6 c cs hquote hfeed _ hescape body closed rest heq ih =>
    by_cases hc : c = '\\'
    · -- nothing follows the backslash
      subst hc
      cases cs with
      | nil =>
        obtain ⟨rfl, rfl, rfl⟩ : [] = body ∧ false = closed ∧ [] = rest := by
          simpa [plainBody] using heq
        exact bodyEnd_slash i (.inl rfl)
      | cons d cs => exact (hescape d cs rfl rfl).elim
    · rw [bodyEnd_char i hquote hc hfeed (fun h => absurd h Bool.false_ne_true), ih, heq]
      simp only [List.cons_append, byteLength_cons, Nat.add_assoc]

namespace Body

theorem source_consText (c : Char) (b : Body) : (b.consText c).source = c :: b.source := by
  unfold consText
  split
  case h_1 hpieces => simp [source, hpieces, Piece.source]
  case h_2 => simp [source, Piece.source]

theorem source_splice {b : Body} {chars : List Char} {ended : Bool} {pieces : List Piece}
    (h : b.pieces = .splice chars ended :: pieces) :
    b.source = '{' :: (chars ++ (closing '}' ended ++ pieces.flatMap Piece.source)) := by
  rw [source, h, List.flatMap_cons, Piece.source, List.cons_append, List.cons_append,
    List.append_assoc]

end Body

/-- The body of an interpolated string is read character by character, and splice by splice. -/
@[elab_as_elim]
theorem interpolated_induction {motive : List Char → Prop} (nil : motive [])
    (quote : ∀ cs, motive ('"' :: cs)) (feed : ∀ cs, motive ('\n' :: cs))
    (slash : ∀ cs, (cs = [] ∨ ∃ more, cs = '\n' :: more) → motive ('\\' :: cs))
    (hidden : ∀ c cs, c ≠ '\n' → motive cs → motive ('\\' :: c :: cs))
    (splice : ∀ cs chars ended pieces,
      (interpolatedBody (.splice 0) cs).pieces = .splice chars ended :: pieces →
        (interpolatedBody (.splice 0) cs).GoesOn cs chars pieces ended →
          (∀ rest, cs = chars ++ '}' :: rest → motive rest) → motive ('{' :: cs))
    (char : ∀ c cs, c ≠ '"' → c ≠ '\n' → c ≠ '\\' → c ≠ '{' → motive cs → motive (c :: cs))
    (cs : List Char) : motive cs := by
  have again (rest : List Char) (h : rest.length < cs.length) : motive rest :=
    interpolated_induction nil quote feed slash hidden splice char rest
  match cs with
  | [] => exact nil
  | c :: cs =>
    by_cases hquote : c = '"'
    · exact hquote ▸ quote cs
    by_cases hfeed : c = '\n'
    · exact hfeed ▸ feed cs
    by_cases hslash : c = '\\'
    · subst hslash
      match cs with
      | [] => exact slash [] (.inl rfl)
      | d :: cs =>
        by_cases hd : d = '\n'
        · exact slash (d :: cs) (.inr ⟨cs, by rw [hd]⟩)
        · exact hidden d cs hd (again cs (by simp only [List.length_cons]; omega))
    by_cases hopen : c = '{'
    · subst hopen
      obtain ⟨-, chars, ended, pieces, hpieces⟩ :
          (interpolatedBody (.splice 0) cs).OpensOn cs := accounts_interpolatedBody (.splice 0) cs
      refine splice cs chars ended pieces hpieces (spliceEnd_of_splice (by simp) hpieces 0).2
        fun rest hrest => again rest ?_
      rw [hrest]
      simp only [List.length_append, List.length_cons]
      omega
    · exact char c cs hquote hfeed hslash hopen (again cs (Nat.lt_succ_self _))
termination_by cs.length

/-- An interpolated string ends where its body does, behind its quote. -/
theorem bodyEnd_interpolatedBody (cs : List Char) (i : Nat) :
    bodyEnd true i (utf8 cs) =
      (i + byteLength ((interpolatedBody .text cs).source ++
        closing '"' (interpolatedBody .text cs).closed), (interpolatedBody .text cs).closed) := by
  induction cs using interpolated_induction generalizing i with
  | nil => exact bodyEnd_nil i
  | quote cs => exact bodyEnd_quote i
  | feed cs => exact bodyEnd_feed i
  | slash cs h =>
    rw [bodyEnd_slash i h]
    obtain rfl | ⟨more, rfl⟩ := h <;> rfl
  | hidden c cs hc ih =>
    have hslash : Char.utf8Size '\\' = 1 := rfl
    rw [bodyEnd_hidden i hc, ih, Escape.interpolatedBody_escape hc, Body.source_consText,
      Body.source_consText, Body.closed_consText, Body.closed_consText]
    simp only [List.cons_append, byteLength_cons, hslash, Nat.add_assoc]
  | splice cs chars ended pieces hpieces hmore ih =>
    have hbrace : Char.utf8Size '{' = 1 ∧ Char.utf8Size '}' = 1 := ⟨rfl, rfl⟩
    have hscan := (spliceEnd_of_splice (by simp) hpieces (i + 1)).1
    have hbody : interpolatedBody .text ('{' :: cs) = interpolatedBody (.splice 0) cs := rfl
    rw [bodyEnd_brace, hscan, hbody, Body.source_splice hpieces]
    cases ended with
    | true =>
      obtain ⟨rest, rfl, hrest⟩ := hmore
      have hdrop : (utf8 (chars ++ '}' :: rest)).drop (i + 1 + byteLength chars - i) = utf8 rest := by
        have hlength : i + 1 + byteLength chars - i = (utf8 chars ++ [asciiByte '}']).length := by
          rw [List.length_append, length_utf8, List.length_singleton]
          omega
        rw [utf8_append, utf8_cons_of_ascii (by decide), ← List.singleton_append,
          ← List.append_assoc, hlength, List.drop_left]
      have hsource : pieces.flatMap Piece.source = (interpolatedBody .text rest).source := by
        rw [hrest, Body.source]
      have hclosed : (interpolatedBody .text rest).closed =
          (interpolatedBody (.splice 0) (chars ++ '}' :: rest)).closed := by rw [hrest]
      show bodyEnd true (i + 1 + byteLength chars + 1) ((utf8 _).drop _) = _
      rw [hdrop, ih rest rfl, hsource, hclosed]
      simp only [closing, List.cons_append, List.append_assoc, List.nil_append, byteLength_append,
        byteLength_cons, hbrace, Nat.add_assoc, Nat.add_left_comm 1]
    | false =>
      obtain ⟨-, rfl, hclosed⟩ := hmore
      rw [hclosed]
      show (i + 1 + byteLength chars, false) = _
      simp only [closing, List.append_nil, List.flatMap_nil, byteLength_cons, hbrace, Nat.add_assoc]
  | char c cs hquote hfeed hslash hopen ih =>
    rw [bodyEnd_char i hquote hslash hfeed fun _ => hopen, ih,
      Escape.interpolatedBody_itself hslash hquote hfeed hopen, Body.source_consText, Body.closed_consText]
    simp only [List.cons_append, byteLength_cons, Nat.add_assoc]

end ActorFrontend
