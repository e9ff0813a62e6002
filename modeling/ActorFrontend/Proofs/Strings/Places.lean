import ActorFrontend.Proofs.Strings.Delimiters

/-!
# Where tokens and their errors stand

Every token, at any depth, is the longest match at its place in the source.  The errors in it are
about parts of its text, and those in a splice about parts of that: what is found at the span of a
token was found in reading this token.
-/

namespace ActorFrontend

variable {source : List Char} {offset lo hi : Nat} {read : Nat → List Char → Lexed}
  {es : List LexicalError} {p : LexicalError → Bool}

/-! ## Where errors stand -/

namespace LexicalError

/-- The error is about a part of the text between two offsets. -/
def Within (lo hi : Nat) (e : LexicalError) : Prop := lo ≤ e.span.start ∧ e.span.stop ≤ hi

theorem Within.mono {e : LexicalError} {lo' hi' : Nat} (h : e.Within lo hi) (hlo : lo' ≤ lo)
    (hhi : hi ≤ hi') : e.Within lo' hi' := ⟨Nat.le_trans hlo h.1, Nat.le_trans h.2 hhi⟩

/-- Only errors about some character between two offsets have the property. -/
def Confines (lo hi : Nat) (p : LexicalError → Bool) : Prop :=
  ∀ e, p e = true → lo ≤ e.span.start ∧ e.span.start < e.span.stop ∧ e.span.stop ≤ hi

theorem Confines.mono {lo' hi' : Nat} (h : Confines lo hi p) (hlo : lo' ≤ lo) (hhi : hi ≤ hi') :
    Confines lo' hi' p := fun e he =>
  ⟨Nat.le_trans hlo (h e he).1, (h e he).2.1, Nat.le_trans (h e he).2.2 hhi⟩

/-- No error about another part of the text has it. -/
theorem Confines.filter_eq_nil {lo' hi' : Nat} (h : Confines lo hi p)
    (hes : ∀ e ∈ es, e.Within lo' hi') (happart : hi' ≤ lo ∨ hi ≤ lo') : es.filter p = [] := by
  refine List.filter_eq_nil_iff.2 fun e he htrue => ?_
  obtain ⟨hlo, hlt, hhi⟩ := h e htrue
  obtain ⟨hlo', hhi'⟩ := hes e he
  omega

/-- The error reports a splice without its closing brace. -/
def isOpenSplice (e : LexicalError) : Bool := e.cause == .unterminatedInterpolation

end LexicalError

open LexicalError

theorem Escape.within_decode {interpolated : Bool} {cs : List Char} :
    ∀ e ∈ (decode interpolated offset cs).2, e.Within offset (offset + Source.byteLength cs) := by
  have hslash : Char.utf8Size '\\' = 1 := rfl
  have hx : Char.utf8Size 'x' = 1 := rfl
  have hsequence (offset : Nat) {sequence : List Char} {n : Nat}
      (h : Source.byteLength sequence ≤ n) : (invalid offset sequence).Within offset (offset + n) :=
    ⟨Nat.le_refl offset, Nat.add_le_add_left h offset⟩
  fun_induction decode interpolated offset cs with
  | case1 => exact List.forall_mem_nil _
  | case2 => exact List.forall_mem_singleton.2 (hsequence _ (Nat.le_refl _))
  | case3 offset high low cs c hc ih =>
    intro e he
    have hhigh := high.utf8Size_pos
    have hlow := low.utf8Size_pos
    exact (ih e he).mono (by omega) (by simp only [Source.byteLength_cons, hslash, hx]; omega)
  | case4 offset high low cs _ ih =>
    refine List.forall_mem_cons.2 ⟨hsequence _ (by simp), fun e he => ?_⟩
    exact (ih e he).mono (by omega) (by simp only [Source.byteLength_cons, hslash, hx]; omega)
  | case5 offset c cs _ next d _ ih =>
    intro e he
    exact (ih e he).mono (by omega) (by simp only [Source.byteLength_cons, hslash, next]; omega)
  | case6 offset c cs _ next _ ih =>
    refine List.forall_mem_cons.2 ⟨hsequence _ (by simp), fun e he => ?_⟩
    exact (ih e he).mono (by omega) (by simp only [Source.byteLength_cons, hslash, next]; omega)
  | case7 offset c cs _ _ _ ih =>
    intro e he
    exact (ih e he).mono (by omega) (by simp only [Source.byteLength_cons]; omega)

/-! ## Pieces, one at a time -/

namespace Piece

/-- What a piece at `offset` means. -/
def fragment (read : Nat → List Char → Lexed) (offset : Nat) : Piece → Fragment
  | .text chars =>
      .text (String.ofList (Escape.decode true offset chars).1)
        ⟨offset, offset + Source.byteLength chars⟩
  | .splice chars _ =>
      .splice (read (offset + 1) chars).tokens
        ⟨offset + 1, offset + 1 + Source.byteLength chars⟩

/-- The error about a piece at `offset` that is a splice without its closing brace. -/
def openErrors (offset : Nat) : Piece → List LexicalError
  | .splice chars false =>
      [⟨.unterminatedInterpolation, offset, offset + 1 + Source.byteLength chars⟩]
  | _ => []

/-- The errors in a piece at `offset`. -/
def errors (read : Nat → List Char → Lexed) (offset : Nat) : Piece → List LexicalError
  | .text chars => (Escape.decode true offset chars).2
  | .splice chars closed =>
      openErrors offset (.splice chars closed) ++ (read (offset + 1) chars).errors

/-- A splice with its braces. -/
theorem byteLength_splice (chars : List Char) (ended : Bool) :
    Source.byteLength (splice chars ended).source =
      1 + Source.byteLength chars + if ended = true then 1 else 0 := by
  have hbrace : Char.utf8Size '{' = 1 := rfl
  have hbrace' : Char.utf8Size '}' = 1 := rfl
  cases ended <;> simp [source, closing, hbrace, hbrace', Nat.add_assoc]

/-- A splice that is not closed is at fault as a whole. -/
theorem span_of_mem_openErrors {piece : Piece} {e : LexicalError} (h : e ∈ piece.openErrors offset) :
    e.span = ⟨offset, offset + Source.byteLength piece.source⟩ := by
  unfold openErrors at h
  split at h
  case h_1 chars =>
    rw [List.mem_singleton.1 h, byteLength_splice]
    simp [Nat.add_assoc]
  case h_2 => cases h

end Piece

theorem Token.fragments_cons (read : Nat → List Char → Lexed) (offset : Nat) (piece : Piece)
    (pieces : List Piece) :
    fragments read offset (piece :: pieces) =
      let more := fragments read (offset + Source.byteLength piece.source) pieces
      (piece.fragment read offset :: more.1, piece.errors read offset ++ more.2) := by
  cases piece with
  | text chars => rfl
  | splice chars ended =>
    rw [Piece.byteLength_splice, ← Nat.add_assoc, ← Nat.add_assoc]
    cases ended <;> rfl

theorem Piece.within_errors
    (hread : ∀ offset chars, ∀ e ∈ (read offset chars).errors,
      e.Within offset (offset + Source.byteLength chars))
    (piece : Piece) : ∀ e ∈ piece.errors read offset,
      e.Within offset (offset + Source.byteLength piece.source) := by
  cases piece with
  | text chars => exact Escape.within_decode
  | splice chars ended =>
    refine List.forall_mem_append.2 ⟨fun e he => ?_, fun e he => ?_⟩
    · rw [LexicalError.Within, span_of_mem_openErrors he]
      exact ⟨Nat.le_refl _, Nat.le_refl _⟩
    · refine (hread _ _ e he).mono (Nat.le_succ offset) ?_
      rw [byteLength_splice]
      omega

/-- The errors of a string's fragments, if those of a text are about parts of it. -/
theorem within_fragments
    (hread : ∀ offset chars, ∀ e ∈ (read offset chars).errors,
      e.Within offset (offset + Source.byteLength chars))
    (pieces : List Piece) : ∀ e ∈ (Token.fragments read offset pieces).2,
      e.Within offset (offset + Source.byteLength (pieces.flatMap Piece.source)) := by
  induction pieces generalizing offset with
  | nil => exact List.forall_mem_nil _
  | cons piece pieces ih =>
    rw [Token.fragments_cons, List.flatMap_cons, Source.byteLength_append]
    refine List.forall_mem_append.2 ⟨fun e he => ?_, fun e he => ?_⟩
    · exact (Piece.within_errors hread piece e he).mono (Nat.le_refl _) (by omega)
    · exact (ih e he).mono (Nat.le_add_right _ _) (by omega)

/-! ## Tokens and their errors -/

/-- Only a text that starts with a quote has a plain string at its head. -/
theorem Match.longest_eq_string {c : Char} {cs body : List Char} {closed : Bool}
    (h : (longest c cs).shape = .string body closed) : c = '"' ∧ longest c cs = string cs := by
  have hsymbol (c : Char) (cs : List Char) : (symbolOrUnknown c cs).shape ≠ .string body closed := by
    unfold symbolOrUnknown
    split <;> simp
  have hdecimal (cs : List Char) : (decimal cs).shape ≠ .string body closed := by
    unfold decimal
    split <;> (try split) <;> simp
  revert h
  unfold longest
  split <;> (try split) <;> (try split) <;> (try split) <;> simp_all [run, interpolated]

/-- The errors in a token are about parts of its text. -/
theorem within_ofMatch {c : Char} {cs : List Char}
    (hread : ∀ offset chars, ∀ e ∈ (read offset chars).errors,
      e.Within offset (offset + Source.byteLength chars)) :
    ∀ e ∈ (Token.ofMatch read offset (Match.longest c cs)).2,
      e.Within offset (offset + Source.byteLength (Match.longest c cs).text) := by
  have hquote : Char.utf8Size '"' = 1 := rfl
  have hmark : Char.utf8Size 'f' = 1 := rfl
  have hwhole (cause : LexicalCause) (n : Nat) :
      (LexicalError.mk cause ⟨offset, offset + n⟩).Within offset (offset + n) :=
    ⟨Nat.le_refl _, Nat.le_refl _⟩
  simp only [Token.ofMatch, Token.interpret]
  split
  case h_3 closed _ =>
    cases closed with
    | true => exact List.forall_mem_nil _
    | false => exact List.forall_mem_singleton.2 (hwhole _ _)
  case h_5 =>
    split
    · exact List.forall_mem_nil _
    · exact List.forall_mem_singleton.2 (hwhole _ _)
  case h_7 body closed hshape =>
    obtain ⟨-, hlongest⟩ := Match.longest_eq_string hshape
    obtain rfl : (plainBody cs).1 = body := by
      simpa [hlongest, Match.string] using And.left (Shape.string.inj (hlongest ▸ hshape))
    have hbody : ∀ e ∈ (Escape.decode false (offset + 1) (plainBody cs).1).2,
        e.Within offset (offset + Source.byteLength (Match.longest c cs).text) := by
      intro e he
      refine (Escape.within_decode e he).mono (by omega) ?_
      simp [hlongest, Match.string, hquote]
      omega
    split
    · exact hbody
    · exact List.forall_mem_cons.2 ⟨hwhole _ _, hbody⟩
  case h_8 pieces closed hshape =>
    obtain ⟨body, -, hlongest⟩ := Match.longest_eq_interpolated hshape
    obtain rfl : (interpolatedBody .text body).pieces = pieces := by
      simpa [hlongest, Match.interpolated] using And.left (Shape.interpolated.inj (hlongest ▸ hshape))
    have hbody : ∀ e ∈ (Token.fragments read (offset + 2) (interpolatedBody .text body).pieces).2,
        e.Within offset (offset + Source.byteLength (Match.longest c cs).text) := by
      intro e he
      refine (within_fragments hread _ e he).mono (by omega) ?_
      simp [hlongest, Match.interpolated, Body.source, hquote, hmark]
      omega
    split
    · exact hbody
    · exact List.forall_mem_append.2 ⟨hbody, List.forall_mem_singleton.2 (hwhole _ _)⟩
  case h_11 => exact List.forall_mem_singleton.2 (hwhole _ _)
  all_goals exact List.forall_mem_nil _

/-- The errors in a text are about parts of it. -/
theorem within_readWithin (fuel offset : Nat) (cs : List Char) :
    ∀ e ∈ (Token.readWithin fuel offset cs).errors,
      e.Within offset (offset + Source.byteLength cs) := by
  induction fuel generalizing offset cs with
  | zero => exact List.forall_mem_nil _
  | succ fuel ih =>
    cases cs with
    | nil => exact List.forall_mem_nil _
    | cons c cs =>
      obtain ⟨hsplit, -⟩ := Match.splits_longest c cs
      have hbytes : Source.byteLength (c :: cs) = Source.byteLength (Match.longest c cs).text +
          Source.byteLength (Match.longest c cs).rest := by
        rw [← Source.byteLength_append, hsplit]
      rw [hbytes]
      refine List.forall_mem_append.2 ⟨fun e he => ?_, fun e he => ?_⟩
      · exact (within_ofMatch ih e he).mono (Nat.le_refl _) (by omega)
      · exact (ih _ _ e he).mono (by simp) (by simp [Nat.add_assoc])

theorem within_readAll (offset : Nat) (cs : List Char) :
    ∀ e ∈ (Token.readAll offset cs).errors, e.Within offset (offset + Source.byteLength cs) :=
  within_readWithin cs.length offset cs

/-! ## Where tokens are read -/

/-- The token is the longest match at the head of the text `c :: cs`, where it stands; of the errors
those about it are those that were found in it. -/
structure Token.ReadAt (source : List Char) (errors : List LexicalError) (t : Token) (c : Char)
    (cs : List Char) : Prop where
  stands : Source.StandsAt source t.span.start (c :: cs)
  eq : t = (ofMatch readAll t.span.start (Match.longest c cs)).1
  found : ∀ p, Confines t.span.start t.span.stop p →
    errors.filter p = (ofMatch readAll t.span.start (Match.longest c cs)).2.filter p

/-- The tokens are those of the text `cs`, at the span of a splice between two offsets; of the errors
those about parts of the splice are those that were found in it. -/
structure Token.SpliceReadAt (source : List Char) (errors : List LexicalError) (lo hi : Nat)
    (tokens : List Token) (span : Span) (cs : List Char) : Prop where
  stands : Source.StandsAt source span.start cs
  stop : span.stop = span.start + Source.byteLength cs
  tokens_eq : tokens = (readAll span.start cs).tokens
  lo_lt : lo < span.start
  le_hi : span.stop ≤ hi
  found : ∀ p, Confines span.start span.stop p →
    errors.filter p = (readAll span.start cs).errors.filter p

namespace Token

variable {t : Token}

/-- Where a token of a text is read. -/
theorem readAt_of_mem {cs : List Char} (hs : Source.StandsAt source offset cs)
    (ht : t ∈ (readAll offset cs).tokens) :
    ∃ c cs', ReadAt source (readAll offset cs).errors t c cs' ∧ offset ≤ t.span.start ∧
      t.span.start + Source.byteLength (c :: cs') = offset + Source.byteLength cs := by
  induction hlength : cs.length using Nat.strongRecOn generalizing cs offset with
  | ind length ih =>
    cases cs with
    | nil => cases ht
    | cons c cs =>
      have hrest := Match.length_rest_longest c cs
      rw [List.length_cons] at hlength
      obtain ⟨hsplit, -⟩ := Match.splits_longest c cs
      have hbytes : Source.byteLength (c :: cs) = Source.byteLength (Match.longest c cs).text +
          Source.byteLength (Match.longest c cs).rest := by
        rw [← Source.byteLength_append, hsplit]
      have hread : readAll offset (c :: cs) =
          (readAll (offset + Source.byteLength (Match.longest c cs).text)
            (Match.longest c cs).rest).cons (ofMatch readAll offset (Match.longest c cs)).1
            (ofMatch readAll offset (Match.longest c cs)).2 := by
        rw [readAll_cons]
        rfl
      rw [hread] at ht ⊢
      simp only [Lexed.cons, List.mem_cons] at ht ⊢
      obtain rfl | ht := ht
      · -- the errors of what follows are about what follows
        refine ⟨c, cs, ⟨hs, rfl, fun p hp => ?_⟩, Nat.le_refl _, rfl⟩
        have hafter := hp.filter_eq_nil (within_readAll _ (Match.longest c cs).rest)
          (.inr (Nat.le_refl _))
        simp only [span_ofMatch] at hafter
        rw [List.filter_append, hafter, List.append_nil]
        rfl
      · rw [← hsplit] at hs
        obtain ⟨d, ds, hread, hle, hstop⟩ := ih _ (by omega) hs.right ht rfl
        refine ⟨d, ds, ⟨hread.stands, hread.eq, fun p hp => ?_⟩, by omega, by omega⟩
        rw [List.filter_append, ← hread.found p hp]
        have hbefore := hp.filter_eq_nil (within_ofMatch within_readAll) (.inl hle)
        rw [hbefore]
        rfl

/-- The splices of a string are read where they stand. -/
theorem spliceReadAt_of_mem_fragments {pieces : List Piece} {tokens : List Token} {span : Span}
    (hs : Source.StandsAt source offset (pieces.flatMap Piece.source))
    (hmem : .splice tokens span ∈ (fragments readAll offset pieces).1) :
    ∃ cs, SpliceReadAt source (fragments readAll offset pieces).2 offset
      (offset + Source.byteLength (pieces.flatMap Piece.source)) tokens span cs := by
  induction pieces generalizing offset with
  | nil => cases hmem
  | cons piece pieces ih =>
    rw [List.flatMap_cons] at hs
    rw [List.flatMap_cons, Source.byteLength_append]
    rw [fragments_cons] at hmem ⊢
    obtain hfirst | hmem := List.mem_cons.1 hmem
    · cases piece with
      | text chars => cases hfirst
      | splice chars ended =>
        obtain ⟨rfl, rfl⟩ := Fragment.splice.inj hfirst
        have hinner : Source.StandsAt source offset
            (['{'] ++ (chars ++ (closing '}' ended ++ pieces.flatMap Piece.source))) := by
          simpa [Piece.source] using hs
        have hnext : offset + 1 + Source.byteLength chars ≤
            offset + Source.byteLength (Piece.splice chars ended).source := by
          rw [Piece.byteLength_splice]
          omega
        refine ⟨chars, hinner.right.left, rfl, rfl, Nat.lt_succ_self offset, ?_, fun p hp => ?_⟩
        · simp only
          omega
        -- the brace that opens the splice stands before it, and the other pieces behind it
        have hopen : (Piece.openErrors offset (.splice chars ended)).filter p = [] :=
          List.filter_eq_nil_iff.2 fun e he htrue => by
            have hstart := (hp e htrue).1
            rw [Piece.span_of_mem_openErrors he] at hstart
            exact absurd hstart (Nat.not_succ_le_self offset)
        have hafter := hp.filter_eq_nil (within_fragments within_readAll pieces) (.inr hnext)
        simp only [List.filter_append, hafter, Piece.errors, hopen, List.append_nil, List.nil_append]
    · obtain ⟨chars, hsplice⟩ := ih hs.right hmem
      have hlt := hsplice.lo_lt
      have hle := hsplice.le_hi
      refine ⟨chars, hsplice.stands, hsplice.stop, hsplice.tokens_eq, by omega, by omega,
        fun p hp => ?_⟩
      have hpiece : ∀ e ∈ piece.errors readAll offset,
          e.Within offset (offset + Source.byteLength piece.source) :=
        piece.within_errors within_readAll
      have hbefore := hp.filter_eq_nil hpiece (.inl (by omega))
      rw [List.filter_append, hbefore, List.nil_append, hsplice.found p hp]

/-- Only an interpolated string has splices. -/
theorem exists_interpolated_of_hasSplice {c : Char} {cs : List Char} {tokens : List Token}
    {span : Span} (h : (ofMatch readAll offset (Match.longest c cs)).1.HasSplice tokens span) :
    ∃ body, c :: cs = 'f' :: '"' :: body ∧ Match.longest c cs = Match.interpolated body ∧
      .splice tokens span ∈ (fragments readAll (offset + 2) (interpolatedBody .text body).pieces).1 := by
  obtain ⟨fragments, hkind, hmem⟩ := h
  by_cases hshape : ∃ pieces closed, (Match.longest c cs).shape = .interpolated pieces closed
  · obtain ⟨pieces, closed, hshape⟩ := hshape
    obtain ⟨body, hbody, hlongest⟩ := Match.longest_eq_interpolated hshape
    rw [hlongest] at hkind
    exact ⟨body, hbody, hlongest, TokenKind.interpolated.inj hkind ▸ hmem⟩
  · exact absurd hkind (kind_interpret_ne (fun pieces closed h => hshape ⟨pieces, closed, h⟩) _)

/-- The errors in an interpolated string: those of its fragments, and perhaps one about it as a
whole. -/
theorem errors_interpolated (body : List Char) :
    let m := Match.interpolated body
    let errors := (fragments readAll (offset + 2) (interpolatedBody .text body).pieces).2
    (ofMatch readAll offset m).2 = errors ++
      if (interpolatedBody .text body).closed || errors.any isOpenSplice
      then [] else [⟨.unterminatedString, (ofMatch readAll offset m).1.span⟩] := by
  have hany (errors : List LexicalError) :
      errors.any (·.cause == .unterminatedInterpolation) = errors.any isOpenSplice := rfl
  simp only [ofMatch, interpret, Match.interpolated, hany]
  split
  · rw [List.append_nil]
  · rfl

namespace ReadAt

variable {errors : List LexicalError} {c : Char} {cs : List Char} {tokens : List Token} {span : Span}

/-- An interpolated string that is read somewhere: its text and its pieces, and how it ends. -/
theorem interpolated {body : List Char} (h : ReadAt source errors t c cs)
    (hbody : c :: cs = 'f' :: '"' :: body) (hlongest : Match.longest c cs = Match.interpolated body) :
    let inner := interpolatedBody .text body
    t.closed = inner.closed ∧
      t.text.toList = ['f', '"'] ++ (inner.pieces.flatMap Piece.source ++ closing '"' inner.closed) ∧
      Source.StandsAt source (t.span.start + 2) (inner.pieces.flatMap Piece.source) ∧
      t.spliceSpans =
        (fragments readAll (t.span.start + 2) inner.pieces).1.filterMap Fragment.spliceSpan? := by
  have heq := h.eq
  rw [hlongest] at heq
  have hstands : Source.StandsAt source t.span.start
      (['f', '"'] ++ (interpolatedBody .text body).whole) := by
    have haccounts : (interpolatedBody .text body).whole = body := accounts_interpolatedBody .text body
    have hopening : ['f', '"'] ++ body = c :: cs := hbody.symm
    rw [haccounts, hopening]
    exact h.stands
  refine ⟨?_, ?_, hstands.right.left, ?_⟩
  · rw [heq, closed_interpolated]
  · rw [heq]
    simp [ofMatch, Match.interpolated, Body.source]
  · conv => lhs; rw [heq]
    exact spliceSpans_of_kind rfl

/-- The text of a token is as long as its span. -/
theorem stop (h : ReadAt source errors t c cs) :
    t.span.stop = t.span.start + Source.byteLength (Match.longest c cs).text :=
  congrArg (·.span.stop) h.eq

/-- What follows a token is the rest of the text that it is read in. -/
theorem rest (h : ReadAt source errors t c cs) :
    Source.StandsAt source t.span.stop (Match.longest c cs).rest ∧
      t.span.stop + Source.byteLength (Match.longest c cs).rest =
        t.span.start + Source.byteLength (c :: cs) := by
  have hsplit := (Match.splits_longest c cs).1
  have hstands := h.stands
  rw [← hsplit] at hstands
  refine ⟨h.stop ▸ hstands.right, ?_⟩
  rw [← hsplit, Source.byteLength_append, h.stop, Nat.add_assoc]

/-- An interpolated string ends behind its pieces and its quote. -/
theorem stop_interpolated {body : List Char} (h : ReadAt source errors t c cs)
    (hlongest : Match.longest c cs = Match.interpolated body) :
    let inner := interpolatedBody .text body
    t.span.stop = t.span.start + 2 + Source.byteLength (inner.pieces.flatMap Piece.source) +
      if inner.closed = true then 1 else 0 := by
  have hquote : Char.utf8Size '"' = 1 := rfl
  have hmark : Char.utf8Size 'f' = 1 := rfl
  rw [h.stop, hlongest]
  cases hclosed : (interpolatedBody .text body).closed <;>
    simp [Match.interpolated, Body.source, closing, hclosed, hquote, hmark] <;> omega

/-- The splices of a token are read where they stand. -/
theorem spliceReadAt (h : ReadAt source errors t c cs) (hin : t.HasSplice tokens span) :
    ∃ cs', SpliceReadAt source errors (t.span.start + 2) t.span.stop tokens span cs' := by
  rw [h.eq] at hin
  obtain ⟨body, hbody, hlongest, hmem⟩ := exists_interpolated_of_hasSplice hin
  obtain ⟨-, -, hpieces, -⟩ := h.interpolated hbody hlongest
  have hstop := h.stop_interpolated hlongest
  obtain ⟨chars, hsplice⟩ := spliceReadAt_of_mem_fragments hpieces hmem
  have hlt := hsplice.lo_lt
  have hle : span.stop ≤ t.span.stop := by
    have hbody := hsplice.le_hi
    omega
  refine ⟨chars, hsplice.stands, hsplice.stop, hsplice.tokens_eq, hlt, hle, fun p hp => ?_⟩
  -- an error about the whole string starts before the splice
  rw [h.found p (hp.mono (by omega) hle), hlongest, errors_interpolated, List.filter_append,
    hsplice.found p hp]
  have hwhole (e : LexicalError) (he : e.span.start = t.span.start) : p e = false :=
    Bool.eq_false_iff.2 fun htrue => by
      have hstart := (hp e htrue).1
      omega
  split <;> simp [hwhole]

/-- The tokens of a splice are read where they stand, up to its end. -/
theorem inside (h : ReadAt source errors t c cs) (hin : t.HasSplice tokens span) {u : Token}
    (hu : u ∈ tokens) : ∃ d ds, ReadAt source errors u d ds ∧
      u.span.start + Source.byteLength (d :: ds) = span.stop := by
  obtain ⟨chars, hsplice⟩ := h.spliceReadAt hin
  rw [hsplice.tokens_eq] at hu
  obtain ⟨d, ds, hread, hle, hstop⟩ := readAt_of_mem hsplice.stands hu
  rw [← hsplice.stop] at hstop
  have hend : u.span.stop ≤ span.stop := by
    have hrest := hread.rest.2
    omega
  refine ⟨d, ds, ⟨hread.stands, hread.eq, fun p hp => ?_⟩, hstop⟩
  rw [hsplice.found p (hp.mono hle hend), hread.found p hp]

end ReadAt

/-- Every token but the one for the end of the source is read where it stands, up to the end of the
source or of the splice that it stands in. -/
theorem Occurs.readAt {source : String} (ht : Occurs (tokenize source).tokens t)
    (hend : t.kind ≠ .endOfFile) :
    ∃ c cs, ReadAt source.toList (tokenize source).errors t c cs ∧
      (t.span.start + Source.byteLength (c :: cs) = Source.byteLength source.toList ∨
        ∃ u tokens span, Occurs (tokenize source).tokens u ∧ u.HasSplice tokens span ∧
          t ∈ tokens ∧ t.span.start + Source.byteLength (c :: cs) = span.stop) := by
  induction ht with
  | here h =>
    rw [tokenize, Lexer.finish_ofSource] at h ⊢
    obtain h | h := List.mem_append.1 h
    · obtain ⟨c, cs, hread, -, hstop⟩ := readAt_of_mem (Source.standsAt_self _) h
      exact ⟨c, cs, hread, .inl (by omega)⟩
    · obtain rfl := List.mem_singleton.1 h
      exact absurd rfl hend
  | @inside u t tokens span hu hin ht ih =>
    have hkind : u.kind ≠ .endOfFile := by
      obtain ⟨fragments, hkind, -⟩ := hin
      simp [hkind]
    obtain ⟨c, cs, hread, -⟩ := ih hkind
    obtain ⟨d, ds, hinside, hstop⟩ := hread.inside hin ht
    exact ⟨d, ds, hinside, .inr ⟨u, tokens, span, hu, hin, ht, hstop⟩⟩

end Token

end ActorFrontend
