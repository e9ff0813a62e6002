import ActorFrontend.Proofs.Checked.Scan

/-!
# Cutting a string into its pieces

The body of an interpolated string, cut out of the source, is scanned once more for its splices, and
its pieces are cut out of it by their offsets.  Every cut is made where a character starts or the
text ends, and the pieces are those that the body was read as.
-/

namespace ActorFrontend

open Source

variable {r : Region} {i stop : Nat} {front more : List UInt8}

/-! ## A scan of what has been cut out -/

namespace Region

/-- A scan ends at the byte at hand or behind it. -/
theorem le_of_spliceEnd (h : r.spliceEnd i front = .ok stop ∨ r.spliceEnd i front = .error stop) :
    i ≤ stop := by
  fun_induction spliceEnd r i front with
  | case1 | case2 | case3 | case6 | case10 | case11 => simp_all; try omega
  | case4 depth i bs _ ih | case5 depth i bs _ _ ih | case7 depth i bs _ _ _ _ ih
  | case8 depth i b bs _ _ _ _ ih | case9 depth i bs ih | case12 depth i b bs _ _ ih
  | case13 depth i b bs _ _ _ ih =>
    have hle := ih h
    omega

/-- A scan that finds the end of the splice does not depend on what follows. -/
theorem spliceEnd_append_of_ok (h : r.spliceEnd i (front ++ more) = .ok stop)
    (hlength : i + front.length = stop + 1) (more' : List UInt8) :
    r.spliceEnd i (front ++ more') = .ok stop := by
  fun_induction spliceEnd r i front with
  | case1 r i =>
    have hle := le_of_spliceEnd (.inl h)
    simp only [List.length_nil] at hlength
    omega
  | case2 => cases h
  | case3 | case6 | case10 => simp_all [spliceEnd_splice_cons, spliceEnd_quoted_cons]
  | case11 depth i =>
    -- the byte behind the backslash is not the one where the scan has ended
    cases more with
    | nil => simp_all [spliceEnd_quoted_cons]
    | cons b more =>
      have hle : i + 2 ≤ stop := le_of_spliceEnd (.inl (by simpa [spliceEnd_quoted_cons, *] using h))
      simp only [List.length_singleton] at hlength
      omega
  | case4 depth i bs _ ih | case5 depth i bs _ _ ih | case7 depth i bs _ _ _ _ ih
  | case8 depth i b bs _ _ _ _ ih | case9 depth i bs ih | case12 depth i b bs _ _ ih
  | case13 depth i b bs _ _ _ ih =>
    simp only [List.cons_append, spliceEnd_splice_cons, spliceEnd_quoted_cons, *, if_true, if_false,
      List.length_cons] at h hlength ⊢
    exact ih h (by omega)

/-- A scan that gives up does so as well where the text is cut off there. -/
theorem spliceEnd_of_error (h : r.spliceEnd i (front ++ more) = .error stop)
    (hlength : i + front.length = stop) : r.spliceEnd i front = .error stop := by
  fun_induction spliceEnd r i front with
  | case1 => exact congrArg Except.error hlength
  | case2 => simp_all [spliceEnd]
  | case3 | case6 | case10 => simp_all [spliceEnd_splice_cons, spliceEnd_quoted_cons]
  | case11 => exact congrArg Except.error hlength
  | case4 depth i bs _ ih | case5 depth i bs _ _ ih | case7 depth i bs _ _ _ _ ih
  | case8 depth i b bs _ _ _ _ ih | case9 depth i bs ih | case12 depth i b bs _ _ ih
  | case13 depth i b bs _ _ _ ih =>
    simp only [List.cons_append, spliceEnd_splice_cons, spliceEnd_quoted_cons, *, if_true, if_false,
      List.length_cons] at h hlength ⊢
    exact ih h (by omega)

end Region

/-! ## The pieces of a body -/

namespace Piece

/-- Puts literal text in front of pieces, if there is any. -/
def addText (text : List Char) (pieces : List Piece) : List Piece :=
  if text = [] then pieces else .text text :: pieces

/-- Where a splice stops, and whether its brace is there. -/
def stopAndEnded : Except Nat Nat → Nat × Bool
  | .ok stop => (stop, true)
  | .error stop => (stop, false)

theorem stopAndEnded_answerAt (ended : Bool) (stop : Nat) :
    stopAndEnded (answerAt ended stop) = (stop, ended) := by
  cases ended <;> rfl

/-- Cuts a body into its pieces, by the offsets at which a scan of its bytes finds the braces.  The
byte at hand is number `i`, and the literal text before it starts at `textStart`. -/
def cut? (body : List Char) (textStart i : Nat) (bytes : List UInt8) : Option (List Piece) :=
  match bytes with
  | [] =>
      if textStart < byteLength body then
        (slice? textStart (byteLength body) body).map (addText · [])
      else some []
  | b :: bs =>
      if b = asciiByte '\\' then cut? body textStart (i + 2) (bs.drop 1)
      else if b = asciiByte '{' then do
        let text ← slice? textStart i body
        let (stop, ended) := stopAndEnded ((Region.splice 0).spliceEnd (i + 1) bs)
        let chars ← slice? (i + 1) stop body
        let more ← cut? body (min (stop + 1) (byteLength body)) (stop + 1) (bs.drop (stop - i))
        return addText text (.splice chars ended :: more)
      else cut? body textStart (i + 1) bs
termination_by bytes.length
decreasing_by all_goals simp only [List.length_drop, List.length_cons]; omega

/-- Puts literal text in front of pieces, as part of the first one if that is text itself. -/
def joinText (text : List Char) : List Piece → List Piece
  | .text chars :: pieces => .text (text ++ chars) :: pieces
  | pieces => addText text pieces

theorem joinText_nil (pieces : List Piece) : joinText [] pieces = pieces := by
  unfold joinText
  split <;> rfl

theorem joinText_consText (text : List Char) (c : Char) (b : Body) :
    joinText text (b.consText c).pieces = joinText (text ++ [c]) b.pieces := by
  unfold Body.consText
  split
  case h_1 chars pieces hpieces => simp [joinText, hpieces]
  case h_2 hpieces =>
    have hjoin : joinText (text ++ [c]) b.pieces = addText (text ++ [c]) b.pieces := by
      rw [joinText]
      exact fun chars pieces h => hpieces chars pieces h
    rw [hjoin, addText, if_neg (by simp)]
    rfl

/-- Bytes that mean nothing in literal text. -/
theorem cut?_append {body : List Char} {bytes : List UInt8} (textStart i : Nat) (more : List UInt8)
    (h : ∀ b ∈ bytes, b ≠ asciiByte '\\' ∧ b ≠ asciiByte '{') :
    cut? body textStart i (bytes ++ more) = cut? body textStart (i + bytes.length) more := by
  induction bytes generalizing i with
  | nil => rfl
  | cons b bytes ih =>
    obtain ⟨⟨hslash, hopen⟩, hbytes⟩ := List.forall_mem_cons.1 h
    rw [List.cons_append, cut?, if_neg hslash, if_neg hopen, ih _ hbytes, List.length_cons,
      Nat.add_assoc, Nat.add_comm 1]

/-- A splice and the literal text before it. -/
theorem cut?_splice (front text chars more : List Char) (ended : Bool) {n : Nat}
    (hn : byteLength (front ++ text) = n)
    (hscan : (Region.splice 0).spliceEnd (n + 1) (utf8 (chars ++ more)) =
      answerAt ended (n + 1 + byteLength chars)) :
    cut? (front ++ text ++ '{' :: (chars ++ more)) (byteLength front) n
        (utf8 ('{' :: (chars ++ more))) =
      (cut? (front ++ text ++ '{' :: (chars ++ more))
        (min (n + 1 + byteLength chars + 1)
          (byteLength (front ++ text ++ '{' :: (chars ++ more))))
        (n + 1 + byteLength chars + 1) ((utf8 more).drop 1)).map
          fun rest => addText text (.splice chars ended :: rest) := by
  have hslash : asciiByte '{' ≠ asciiByte '\\' := by decide
  have htext : slice? (byteLength front) n (front ++ text ++ '{' :: (chars ++ more)) = some text :=
    slice?_eq_some_iff.2 ⟨front, _, rfl, rfl, hn ▸ (byteLength_append ..).symm⟩
  have hchars : slice? (n + 1) (n + 1 + byteLength chars)
      (front ++ text ++ '{' :: (chars ++ more)) = some chars :=
    slice?_eq_some_iff.2
      ⟨front ++ text ++ ['{'], more, by simp, by rw [byteLength_append, hn]; rfl, rfl⟩
  have hdrop : (utf8 (chars ++ more)).drop (n + 1 + byteLength chars - n) = (utf8 more).drop 1 := by
    have hlength : n + 1 + byteLength chars - n = (utf8 chars).length + 1 := by
      rw [length_utf8]
      omega
    rw [utf8_append, hlength, List.drop_append, List.drop_of_length_le (by omega)]
    simp
  rw [utf8_cons_of_ascii (by decide), cut?, if_neg hslash, if_pos rfl, htext, hscan,
    stopAndEnded_answerAt]
  simp only [Option.bind_eq_bind, Option.bind_some, hchars, hdrop]
  generalize cut? _ _ _ ((utf8 more).drop 1) = rest
  cases rest <;> rfl

/-- The literal text at the end of a body. -/
theorem cut?_nil (front text : List Char) (i : Nat) :
    cut? (front ++ text) (byteLength front) i (utf8 []) = some (joinText text []) := by
  have hslice : slice? (byteLength front) (byteLength (front ++ text)) (front ++ text) = some text :=
    slice?_eq_some_iff.2 ⟨front, [], (List.append_nil _).symm, rfl, (byteLength_append ..).symm⟩
  rw [utf8_nil, cut?, hslice, joinText]
  · by_cases htext : text = []
    · subst htext
      rw [List.append_nil, if_neg (Nat.lt_irrefl _)]
      rfl
    · have hpos := byteLength_pos htext
      rw [byteLength_append, if_pos (by omega)]
      rfl
  · nofun

/-- The pieces of a body are those that it is read as.  What has been scanned so far is `front`, of
which the pieces have been cut, and the literal text `text` behind it. -/
theorem cut?_interpolatedBody (cs front text : List Char) :
    cut? (front ++ text ++ (interpolatedBody .text cs).source) (byteLength front)
        (byteLength (front ++ text)) (utf8 (interpolatedBody .text cs).source) =
      some (joinText text (interpolatedBody .text cs).pieces) := by
  have hslash : Char.utf8Size '\\' = 1 := rfl
  induction cs using interpolated_induction generalizing front text with
  | nil | quote cs | feed cs =>
    show cut? (front ++ text ++ []) _ _ (utf8 []) = some (joinText text [])
    rw [List.append_nil]
    exact cut?_nil front text _
  | slash cs h =>
    have hbody : interpolatedBody .text ('\\' :: cs) = (Body.cutOff cs).consText '\\' := by
      obtain rfl | ⟨more, rfl⟩ := h <;> rfl
    rw [hbody, joinText_consText, Body.source_consText, utf8_cons_of_ascii (by decide), cut?,
      if_pos rfl, List.append_assoc]
    exact cut?_nil front (text ++ ['\\']) _
  | hidden c cs hc ih =>
    obtain ⟨b, bytes, hbytes, hhigh⟩ := exists_utf8EncodeChar c
    have hsize : c.utf8Size = bytes.length + 1 := by
      rw [← String.length_utf8EncodeChar, hbytes, List.length_cons]
    have hcut := ih front (text ++ ['\\'] ++ [c])
    rw [Escape.interpolatedBody_escape hc, joinText_consText, joinText_consText, ← hcut,
      Body.source_consText, Body.source_consText, utf8_cons_of_ascii (by decide), utf8_cons, hbytes,
      List.cons_append, cut?, if_pos rfl, List.drop_succ_cons, List.drop_zero, cut?_append]
    · congr 1
      · simp
      · simp only [byteLength_append, byteLength_cons, byteLength_nil, hslash, hsize]
        omega
    · intro x hx
      exact ⟨ne_asciiByte (hhigh x hx) (by decide), ne_asciiByte (hhigh x hx) (by decide)⟩
  | splice cs chars ended pieces hpieces hmore ih =>
    have hbrace : Char.utf8Size '{' = 1 ∧ Char.utf8Size '}' = 1 := ⟨rfl, rfl⟩
    have hbody : interpolatedBody .text ('{' :: cs) = interpolatedBody (.splice 0) cs := rfl
    have hjoin : joinText text (.splice chars ended :: pieces) =
        addText text (.splice chars ended :: pieces) := rfl
    have hscan := (spliceEnd_of_splice (by simp) hpieces (byteLength (front ++ text) + 1)).1
    rw [hbody, Body.source_splice hpieces, hpieces, hjoin]
    cases ended with
    | true =>
      obtain ⟨rest, rfl, hrest⟩ := hmore
      have hsource : closing '}' true ++ pieces.flatMap Piece.source =
          '}' :: (interpolatedBody .text rest).source := by rw [hrest]; rfl
      have hpieces : (interpolatedBody .text rest).pieces = pieces := by rw [hrest]
      -- the scan ends at the brace, whatever follows
      have hsplit (cs : List Char) : utf8 (chars ++ '}' :: cs) =
          utf8 chars ++ [asciiByte '}'] ++ utf8 cs := by
        rw [utf8_append, utf8_cons_of_ascii (by decide), List.append_assoc, List.singleton_append]
      rw [hsplit] at hscan
      have hscan := Region.spliceEnd_append_of_ok hscan (by simp; omega)
        (utf8 (interpolatedBody .text rest).source)
      rw [← hsplit] at hscan
      have hcut := ih rest rfl (front ++ text ++ '{' :: (chars ++ ['}'])) []
      have hlength : byteLength (front ++ text ++ '{' :: (chars ++ ['}'])) =
          byteLength (front ++ text) + 1 + byteLength chars + 1 := by
        simp only [byteLength_append, byteLength_cons, byteLength_nil, hbrace]
        omega
      have hwhole : front ++ text ++ '{' :: (chars ++ ['}']) ++ (interpolatedBody .text rest).source =
          front ++ text ++ '{' :: (chars ++ '}' :: (interpolatedBody .text rest).source) := by simp
      have hmin : min (byteLength (front ++ text) + 1 + byteLength chars + 1)
          (byteLength (front ++ text ++
            '{' :: (chars ++ '}' :: (interpolatedBody .text rest).source))) =
          byteLength (front ++ text) + 1 + byteLength chars + 1 := by
        rw [← hwhole, byteLength_append (_ ++ '{' :: (chars ++ ['}'])), hlength]
        exact Nat.min_eq_left (Nat.le_add_right ..)
      rw [List.append_nil, hwhole, hlength, hpieces, joinText_nil] at hcut
      rw [hsource, cut?_splice front text chars _ true rfl hscan, hmin,
        utf8_cons_of_ascii (by decide), List.drop_succ_cons, List.drop_zero, hcut]
      rfl
    | false =>
      obtain ⟨hcs, rfl, -⟩ := hmore
      rw [hcs, utf8_append] at hscan
      have hscan := Region.spliceEnd_of_error hscan (by rw [length_utf8])
      have hnone : closing '}' false ++ ([] : List Piece).flatMap Piece.source = [] := rfl
      have hlength : byteLength (front ++ text ++ '{' :: (chars ++ [])) =
          byteLength (front ++ text) + 1 + byteLength chars := by
        simp only [byteLength_append, byteLength_cons, byteLength_nil, hbrace]
        omega
      have hend := cut?_nil (front ++ text ++ '{' :: (chars ++ [])) []
        (byteLength (front ++ text) + 1 + byteLength chars + 1)
      rw [List.append_nil, hlength] at hend
      rw [hnone, cut?_splice front text chars [] false rfl (by rwa [List.append_nil]),
        hlength, Nat.min_eq_right (Nat.le_succ _)]
      show (cut? _ _ _ (utf8 [])).map _ = _
      rw [hend]
      rfl
  | char c cs hquote hfeed hslash' hopen ih =>
    have hcut := ih front (text ++ [c])
    rw [Escape.interpolatedBody_itself hslash' hquote hfeed hopen, joinText_consText, ← hcut,
      Body.source_consText, utf8_cons, cut?_append, String.length_utf8EncodeChar]
    · congr 1
      · simp
      · simp [Nat.add_assoc]
    · intro b hb
      exact ⟨ne_asciiByte_of_mem hb (by decide) hslash', ne_asciiByte_of_mem hb (by decide) hopen⟩

end Piece

end ActorFrontend
