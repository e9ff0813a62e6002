import ActorFrontend.Proofs.Strings.Lines

/-!
# Reports of unterminated strings

A string literal that is not closed is reported once, as such or by its open splice.  Whether an open
splice was reported is asked of all errors in the literal, so one in a string further in counts as
well, and then the literal itself is not reported.
-/

namespace ActorFrontend

variable {c : Char} {cs : List Char} {offset : Nat} {p : LexicalError → Bool}

namespace Token

/-- One of the splices lacks its closing brace: it ends where the token does. -/
def leavesOpen (t : Token) : Bool := t.spliceSpans.any (·.stop == t.span.stop)

/-- The error says of the token that it is not closed, or that one of its splices is not. -/
def isOwnError (t : Token) (e : LexicalError) : Bool :=
  e == ⟨.unterminatedString, t.span⟩ ||
    t.spliceSpans.any fun span => e == ⟨.unterminatedInterpolation, span.start - 1, span.stop⟩

/-- The errors which say of the token that it, or one of its splices, is not closed. -/
def ownErrors (t : Token) (errors : List LexicalError) : List LexicalError :=
  errors.filter t.isOwnError

theorem isOwnError_iff {t : Token} {e : LexicalError} :
    t.isOwnError e = true ↔ e = ⟨.unterminatedString, t.span⟩ ∨
      ∃ span ∈ t.spliceSpans, e = ⟨.unterminatedInterpolation, span.start - 1, span.stop⟩ := by
  simp [isOwnError]

theorem filter_whole {t : Token} {reported : Bool} :
    (if reported = true then [] else [LexicalError.mk .unterminatedString t.span]).filter t.isOwnError =
      if reported = true then [] else [⟨.unterminatedString, t.span⟩] := by
  cases reported <;> simp [isOwnError]

end Token

/-! ## Open splices among the pieces of a string -/

theorem Escape.cause_of_mem_decode {interpolated : Bool} {e : LexicalError}
    (h : e ∈ (decode interpolated offset cs).2) : ∃ sequence, e.cause = .invalidEscape sequence := by
  fun_induction decode interpolated offset cs with
  | case1 => cases h
  | case2 offset =>
    obtain rfl := List.mem_singleton.1 h
    exact ⟨_, rfl⟩
  | case3 _ _ _ _ _ _ ih | case5 _ _ _ _ _ _ _ ih | case7 _ _ _ _ _ _ ih => exact ih h
  | case4 _ _ _ _ _ ih | case6 _ _ _ _ _ _ ih =>
    obtain rfl | h := List.mem_cons.1 h
    · exact ⟨_, rfl⟩
    · exact ih h

namespace Fragment

variable {read : Nat → List Char → Lexed} {pieces : List Piece}

/-- The splices of a string stand between its ends. -/
theorem spliceSpan_bounds : ∀ span ∈ (Token.fragments read offset pieces).1.filterMap spliceSpan?,
    offset < span.start ∧ span.start ≤ span.stop ∧
      span.stop ≤ offset + Source.byteLength (pieces.flatMap Piece.source) := by
  induction pieces generalizing offset with
  | nil => exact List.forall_mem_nil _
  | cons piece pieces ih =>
    rw [Token.fragments_cons, List.flatMap_cons, Source.byteLength_append]
    have hmore : ∀ span ∈ (Token.fragments read (offset + Source.byteLength piece.source)
        pieces).1.filterMap spliceSpan?, offset < span.start ∧ span.start ≤ span.stop ∧
          span.stop ≤ offset + (Source.byteLength piece.source +
            Source.byteLength (pieces.flatMap Piece.source)) := by
      intro span hmem
      have hbounds := ih span hmem
      omega
    cases piece with
    | text chars => exact hmore
    | splice chars ended =>
      refine List.forall_mem_cons.2 ⟨?_, hmore⟩
      rw [Piece.byteLength_splice]
      simp only
      omega

/-- They stand apart from each other. -/
theorem spliceSpans_apart : ∀ span ∈ (Token.fragments read offset pieces).1.filterMap spliceSpan?,
    ∀ span' ∈ (Token.fragments read offset pieces).1.filterMap spliceSpan?,
      span = span' ∨ span.stop < span'.start ∨ span'.stop < span.start := by
  induction pieces generalizing offset with
  | nil => exact List.forall_mem_nil _
  | cons piece pieces ih =>
    rw [Token.fragments_cons]
    cases piece with
    | text chars => exact ih
    | splice chars ended =>
      have hafter : ∀ span ∈ (Token.fragments read
          (offset + Source.byteLength (Piece.splice chars ended).source) pieces).1.filterMap spliceSpan?,
          offset + 1 + Source.byteLength chars < span.start := by
        intro span hmem
        have hstart := (spliceSpan_bounds span hmem).1
        rw [Piece.byteLength_splice] at hstart
        omega
      refine List.forall_mem_cons.2 ⟨List.forall_mem_cons.2 ⟨.inl rfl, fun span hmem => ?_⟩,
        fun span hmem => List.forall_mem_cons.2 ⟨?_, ih span hmem⟩⟩
      · exact .inr (.inl (hafter span hmem))
      · exact .inr (.inr (hafter span hmem))

end Fragment

namespace Piece

/-- The errors about splices without closing braces among the pieces. -/
def allOpenErrors : Nat → List Piece → List LexicalError
  | _, [] => []
  | offset, piece :: pieces =>
      piece.openErrors offset ++ allOpenErrors (offset + Source.byteLength piece.source) pieces

/-- An open splice is the one that ends with the pieces, and is at fault with its opening brace. -/
theorem allOpenErrors_eq (offset : Nat) {closed : Bool} {pieces : List Piece} (hcut : WellCut closed pieces) :
    let spans := (Token.fragments Token.readAll offset pieces).1.filterMap Fragment.spliceSpan?
    let stop := offset + Source.byteLength (pieces.flatMap source)
    (∀ span ∈ spans, span.stop = stop → closed = false ∧
        allOpenErrors offset pieces = [⟨.unterminatedInterpolation, span.start - 1, span.stop⟩]) ∧
      ((∀ span ∈ spans, span.stop ≠ stop) → allOpenErrors offset pieces = []) := by
  induction pieces generalizing offset with
  | nil => exact ⟨List.forall_mem_nil _, fun _ => rfl⟩
  | cons piece pieces ih =>
    obtain ⟨hspan, hnone⟩ := ih (offset + Source.byteLength piece.source)
      (by cases piece <;> exact hcut.2)
    rw [Token.fragments_cons]
    simp only [List.flatMap_cons, Source.byteLength_append, ← Nat.add_assoc, allOpenErrors]
    cases piece with
    | text chars => exact ⟨hspan, hnone⟩
    | splice chars ended =>
      simp only [fragment, List.filterMap_cons, Fragment.spliceSpan?, List.forall_mem_cons]
      cases ended with
      | false =>
        obtain ⟨hopen, rfl⟩ := hcut.1 rfl
        refine ⟨⟨fun _ => ⟨hopen, rfl⟩, List.forall_mem_nil _⟩, fun h => absurd ?_ h.1⟩
        rw [byteLength_splice]
        simp
        omega
      | true =>
        refine ⟨⟨fun hstop => ?_, hspan⟩, fun h => hnone h.2⟩
        rw [byteLength_splice] at hstop
        simp at hstop
        omega

/-- Of the errors in a string, those of a kind that is not found in escapes, nor in the splices, are
about open splices. -/
theorem filter_fragments {pieces : List Piece} (hescape : ∀ e sequence,
      e.cause = .invalidEscape sequence → p e = false)
    (hinner : ∀ span ∈ (Token.fragments Token.readAll offset pieces).1.filterMap
      Fragment.spliceSpan?, ∀ e, e.Within span.start span.stop → p e = false) :
    (Token.fragments Token.readAll offset pieces).2.filter p =
      (allOpenErrors offset pieces).filter p := by
  induction pieces generalizing offset with
  | nil => rfl
  | cons piece pieces ih =>
    rw [Token.fragments_cons] at hinner ⊢
    cases piece with
    | text chars =>
      have hchars : (errors Token.readAll offset (text chars)).filter p = [] :=
        List.filter_eq_nil_iff.2 fun e he => by
          obtain ⟨sequence, hcause⟩ := Escape.cause_of_mem_decode he
          simp [hescape e sequence hcause]
      rw [List.filter_append, hchars, ih hinner]
      rfl
    | splice chars ended =>
      simp only [fragment, List.filterMap_cons, Fragment.spliceSpan?, List.forall_mem_cons] at hinner
      have hchars : (Token.readAll (offset + 1) chars).errors.filter p = [] :=
        List.filter_eq_nil_iff.2 fun e he => by
          simp [hinner.1 e (within_readAll _ _ e he)]
      simp only [errors, allOpenErrors, List.filter_append, hchars, ih hinner.2, List.append_nil]

end Piece

/-! ## Reported splices -/

namespace Token

theorem any_decode {interpolated : Bool} (cs : List Char) :
    (Escape.decode interpolated offset cs).2.any LexicalError.isOpenSplice = false :=
  List.any_eq_false.2 fun e he => by
    obtain ⟨sequence, hcause⟩ := Escape.cause_of_mem_decode he
    simp [LexicalError.isOpenSplice, hcause]

/-- Some token of the list, or inside of it at any depth, leaves a splice open. -/
def SomeOpen (ts : List Token) : Prop := ∃ u, Occurs ts u ∧ u.leavesOpen = true

theorem not_occurs_nil {t : Token} : ¬Occurs [] t := by
  intro h
  induction h with
  | here h => cases h
  | inside _ _ _ ih => exact ih

/-- What occurs in a list is its first token, or in a splice of that, or behind it. -/
theorem occurs_cons_iff {t u : Token} {ts : List Token} :
    Occurs (t :: ts) u ↔
      (u = t ∨ ∃ tokens span, t.HasSplice tokens span ∧ Occurs tokens u) ∨ Occurs ts u := by
  constructor
  · intro h
    induction h with
    | here h => exact (List.mem_cons.1 h).imp .inl .here
    | inside _ hin hu ih =>
      obtain (rfl | ⟨tokens, span, hsplice, hinside⟩) | hafter := ih
      · exact .inl (.inr ⟨_, _, hin, .here hu⟩)
      · exact .inl (.inr ⟨tokens, span, hsplice, hinside.inside hin hu⟩)
      · exact .inr (hafter.inside hin hu)
  · rintro ((rfl | ⟨tokens, span, hin, h⟩) | h)
    · exact .here List.mem_cons_self
    · exact .through (.here List.mem_cons_self) hin h
    · exact h.mono (List.subset_cons_self t ts)

theorem someOpen_cons_iff {t : Token} {ts : List Token} :
    SomeOpen (t :: ts) ↔ (t.leavesOpen = true ∨
      ∃ tokens span, t.HasSplice tokens span ∧ SomeOpen tokens) ∨ SomeOpen ts := by
  constructor
  · rintro ⟨u, hu, hopen⟩
    obtain (rfl | ⟨tokens, span, hin, hu⟩) | hu := occurs_cons_iff.1 hu
    · exact .inl (.inl hopen)
    · exact .inl (.inr ⟨tokens, span, hin, u, hu, hopen⟩)
    · exact .inr ⟨u, hu, hopen⟩
  · rintro ((hopen | ⟨tokens, span, hin, u, hu, hopen⟩) | ⟨u, hu, hopen⟩)
    · exact ⟨t, .here List.mem_cons_self, hopen⟩
    · exact ⟨u, occurs_cons_iff.2 (.inl (.inr ⟨tokens, span, hin, hu⟩)), hopen⟩
    · exact ⟨u, occurs_cons_iff.2 (.inr hu), hopen⟩

/-- An open splice is reported in a string if it is one of its own, or one inside of its splices. -/
theorem any_fragments_iff {pieces : List Piece}
    (hread : ∀ chars ended, .splice chars ended ∈ pieces → ∀ offset,
      (readAll offset chars).errors.any LexicalError.isOpenSplice = true ↔
        SomeOpen (readAll offset chars).tokens) :
    (fragments readAll offset pieces).2.any LexicalError.isOpenSplice = true ↔
      Piece.allOpenErrors offset pieces ≠ [] ∨
        ∃ tokens span, .splice tokens span ∈ (fragments readAll offset pieces).1 ∧
          SomeOpen tokens := by
  induction pieces generalizing offset with
  | nil => simp [fragments, Piece.allOpenErrors]
  | cons piece pieces ih =>
    rw [fragments_cons]
    simp only [List.any_append, Bool.or_eq_true,
      ih fun chars ended hmem => hread chars ended (List.mem_cons_of_mem _ hmem)]
    cases piece with
    | text chars =>
      have hchars : (Escape.decode true offset chars).2.any LexicalError.isOpenSplice = false :=
        any_decode chars
      simp [Piece.errors, hchars, Piece.allOpenErrors, Piece.openErrors, Piece.fragment]
    | splice chars ended =>
      have hopen : (Piece.openErrors offset (.splice chars ended)).any LexicalError.isOpenSplice = true ↔
          Piece.openErrors offset (.splice chars ended) ≠ [] := by
        cases ended <;> simp [Piece.openErrors, LexicalError.isOpenSplice]
      simp only [Piece.errors, List.any_append, Bool.or_eq_true, hopen,
        hread chars ended List.mem_cons_self, Piece.allOpenErrors, Piece.fragment, List.mem_cons,
        Fragment.splice.injEq, ne_eq, List.append_eq_nil_iff, not_and_or, or_and_right,
        exists_or]
      constructor
      · rintro ((h | h) | h | h)
        · exact .inl (.inl h)
        · exact .inr (.inl ⟨_, _, ⟨rfl, rfl⟩, h⟩)
        · exact .inl (.inr h)
        · exact .inr (.inr h)
      · rintro ((h | h) | ⟨tokens, span, ⟨rfl, -⟩, h⟩ | h)
        · exact .inl (.inl h)
        · exact .inr (.inl h)
        · exact .inl (.inr h)
        · exact .inr (.inr h)

/-- An interpolated string leaves a splice open if one of its pieces is one. -/
theorem leavesOpen_interpolated (offset : Nat) (body : List Char) :
    (ofMatch readAll offset (Match.interpolated body)).1.leavesOpen = true ↔
      Piece.allOpenErrors (offset + 2) (interpolatedBody .text body).pieces ≠ [] := by
  have hquote : Char.utf8Size '"' = 1 := rfl
  have hmark : Char.utf8Size 'f' = 1 := rfl
  obtain ⟨hspan, hnone⟩ := Piece.allOpenErrors_eq (offset + 2)
    (wellCut_interpolatedBody .text body).1
  have hspans : (ofMatch readAll offset (Match.interpolated body)).1.spliceSpans =
      (fragments readAll (offset + 2) (interpolatedBody .text body).pieces).1.filterMap
        Fragment.spliceSpan? := spliceSpans_of_kind rfl
  have hstop : (ofMatch readAll offset (Match.interpolated body)).1.span.stop =
      offset + 2 + Source.byteLength ((interpolatedBody .text body).pieces.flatMap Piece.source) +
        if (interpolatedBody .text body).closed = true then 1 else 0 := by
    cases hclosed : (interpolatedBody .text body).closed <;>
      simp [Match.interpolated, Body.source, closing, hclosed, hquote, hmark] <;> omega
  rw [leavesOpen, List.any_eq_true, hspans]
  constructor
  · rintro ⟨span, hmem, hend⟩
    have hend := eq_of_beq hend
    have hle := (Fragment.spliceSpan_bounds span hmem).2.2
    rw [hstop] at hend
    cases hclosed : (interpolatedBody .text body).closed with
    | true =>
      simp only [hclosed, if_true] at hend
      omega
    | false =>
      simp only [hclosed, Bool.false_eq_true, if_false, Nat.add_zero] at hend
      rw [(hspan span hmem hend).2]
      exact List.cons_ne_nil _ _
  · intro hopen
    by_contra hall
    refine hopen (hnone fun span hmem hend => hall ⟨span, hmem, ?_⟩)
    rw [hstop, (hspan span hmem hend).1, hend]
    simp

theorem any_interpret_of_plain {m : Match} {span : Span}
    (h : ∀ pieces closed, m.shape ≠ .interpolated pieces closed) :
    (interpret readAll m span).2.any LexicalError.isOpenSplice = false := by
  simp only [interpret]
  split
  case h_3 closed _ => cases closed <;> rfl
  case h_5 => split <;> rfl
  case h_7 body closed _ =>
    have hbody : (Escape.decode false (span.start + 1) body).2.any LexicalError.isOpenSplice =
        false := any_decode _
    cases closed
    · exact hbody
    · exact hbody
  case h_8 pieces closed hshape => exact absurd hshape (h pieces closed)
  all_goals rfl

/-- Only an interpolated string, and what stands in it, is at fault for an open splice. -/
theorem any_ofMatch_iff
    (hread : ∀ pieces closed, (Match.longest c cs).shape = .interpolated pieces closed →
      ∀ chars ended, .splice chars ended ∈ pieces → ∀ offset,
        (readAll offset chars).errors.any LexicalError.isOpenSplice = true ↔
          SomeOpen (readAll offset chars).tokens) :
    let read := ofMatch readAll offset (Match.longest c cs)
    read.2.any LexicalError.isOpenSplice = true ↔ read.1.leavesOpen = true ∨
      ∃ tokens span, read.1.HasSplice tokens span ∧ SomeOpen tokens := by
  by_cases hshape : ∃ pieces closed, (Match.longest c cs).shape = .interpolated pieces closed
  · obtain ⟨pieces, closed, hshape⟩ := hshape
    have hread := hread pieces closed hshape
    obtain ⟨body, -, hlongest⟩ := Match.longest_eq_interpolated hshape
    obtain rfl : (interpolatedBody .text body).pieces = pieces := by
      simpa [hlongest, Match.interpolated] using And.left (Shape.interpolated.inj (hlongest ▸ hshape))
    have hwhole (closed : Bool) (span : Span) :
        (if closed = true then [] else [LexicalError.mk .unterminatedString span]).any
          LexicalError.isOpenSplice = false := by
      cases closed <;> rfl
    simp only [hlongest, errors_interpolated, List.any_append, hwhole, Bool.or_false,
      any_fragments_iff hread, leavesOpen_interpolated]
    refine or_congr_right ⟨?_, ?_⟩
    · rintro ⟨tokens, span, hmem, hopen⟩
      exact ⟨tokens, span, ⟨_, rfl, hmem⟩, hopen⟩
    · rintro ⟨tokens, span, ⟨fragments, hkind, hmem⟩, hopen⟩
      exact ⟨tokens, span, TokenKind.interpolated.inj hkind ▸ hmem, hopen⟩
  · have hshape (pieces : List Piece) (closed : Bool) :
        (Match.longest c cs).shape ≠ .interpolated pieces closed := fun h => hshape ⟨pieces, closed, h⟩
    have hkind : ∀ fragments, (ofMatch readAll offset (Match.longest c cs)).1.kind ≠
        .interpolated fragments := kind_interpret_ne hshape
    refine ⟨fun hany => ?_, ?_⟩
    · have hnone : (ofMatch readAll offset (Match.longest c cs)).2.any LexicalError.isOpenSplice =
          false := any_interpret_of_plain hshape
      exact absurd (hnone.symm.trans hany) Bool.false_ne_true
    · rintro (hopen | ⟨tokens, span, ⟨fragments, hinterpolated, -⟩, -⟩)
      · obtain ⟨span, hmem, -⟩ := List.any_eq_true.1 hopen
        obtain ⟨tokens, fragments, hinterpolated, -⟩ := exists_hasSplice hmem
        exact absurd hinterpolated (hkind fragments)
      · exact absurd hinterpolated (hkind fragments)

/-- The errors in a text report an open splice if some token of it, at any depth, leaves one open. -/
theorem any_readAll_iff (offset : Nat) (cs : List Char) :
    (readAll offset cs).errors.any LexicalError.isOpenSplice = true ↔
      SomeOpen (readAll offset cs).tokens := by
  induction hlength : cs.length using Nat.strongRecOn generalizing cs offset with
  | ind length ih =>
    cases cs with
    | nil =>
      refine ⟨fun h => absurd h Bool.false_ne_true, ?_⟩
      rintro ⟨u, hu, -⟩
      exact absurd hu not_occurs_nil
    | cons c cs =>
      have hrest := Match.length_rest_longest c cs
      rw [List.length_cons] at hlength
      rw [readAll_cons]
      simp only [Lexed.cons, List.any_append, Bool.or_eq_true, someOpen_cons_iff]
      refine or_congr (any_ofMatch_iff fun pieces closed hshape chars ended hmem offset => ?_)
        (ih _ (by omega) _ _ rfl)
      have hlt := Match.length_lt_of_splice hshape hmem
      rw [List.length_cons] at hlt
      exact ih _ (by omega) _ _ rfl

/-! ## Each at its own level -/

/-- How a string literal that is not closed is reported. -/
structure Reported (errors : List LexicalError) (t : Token) : Prop where
  /-- A closed one is not. -/
  closed : t.closed = true → t.ownErrors errors = []
  /-- One with an open splice is reported by that, from the opening brace on. -/
  splice : ∀ span ∈ t.spliceSpans, span.stop = t.span.stop →
    t.ownErrors errors = [⟨.unterminatedInterpolation, span.start - 1, t.span.stop⟩]
  /-- Any other is reported as such if no string inside of its splices leaves a splice open. -/
  whole : t.closed = false → t.leavesOpen = false →
    (∀ tokens span, t.HasSplice tokens span → ¬SomeOpen tokens) →
    t.ownErrors errors = [⟨.unterminatedString, t.span⟩]
  /-- An open splice further in counts as its own, and it is not reported. -/
  masked : t.closed = false → t.leavesOpen = false →
    ∀ tokens span, t.HasSplice tokens span → SomeOpen tokens → t.ownErrors errors = []

variable {source : List Char} {errors : List LexicalError} {t : Token}

/-- The errors in a plain string: perhaps one about it as a whole, and those about its escapes. -/
theorem errors_string (cs : List Char) :
    let m := Match.string cs
    (ofMatch readAll offset m).2 =
      (if (plainBody cs).2.1 = true then []
        else [⟨.unterminatedString, (ofMatch readAll offset m).1.span⟩]) ++
        (Escape.decode false (offset + 1) (plainBody cs).1).2 := by
  simp only [ofMatch, interpret, Match.string]
  split <;> rfl

/-- The errors about a token itself are found in reading it. -/
theorem ReadAt.ownErrors (h : ReadAt source errors t c cs) :
    t.ownErrors errors = t.ownErrors (ofMatch readAll t.span.start (Match.longest c cs)).2 := by
  refine h.found _ fun e he => ?_
  have hpos : 0 < Source.byteLength (Match.longest c cs).text := by
    obtain ⟨d, text, htext⟩ := List.exists_cons_of_ne_nil (Match.splits_longest c cs).2
    rw [htext, Source.byteLength_cons]
    have hwidth := d.utf8Size_pos
    omega
  have hstop := h.stop
  obtain rfl | ⟨span, hmem, rfl⟩ := isOwnError_iff.1 he
  · exact ⟨Nat.le_refl _, by simp only; omega, Nat.le_refl _⟩
  · obtain ⟨tokens, hin⟩ := exists_hasSplice hmem
    obtain ⟨chars, hsplice⟩ := h.spliceReadAt hin
    have hlt := hsplice.lo_lt
    have hle := hsplice.le_hi
    have hspan := hsplice.stop
    exact ⟨by simp only; omega, by simp only; omega, hle⟩

/-- The errors about an interpolated string itself: those about its open splices, and one about it as a
whole if no open splice is reported in it. -/
theorem ReadAt.ownErrors_interpolated {body : List Char} (h : ReadAt source errors t c cs)
    (hbody : c :: cs = 'f' :: '"' :: body) (hlongest : Match.longest c cs = Match.interpolated body) :
    let inner := interpolatedBody .text body
    t.ownErrors errors = Piece.allOpenErrors (t.span.start + 2) inner.pieces ++
      if inner.closed || (fragments readAll (t.span.start + 2) inner.pieces).2.any
        LexicalError.isOpenSplice then [] else [⟨.unterminatedString, t.span⟩] := by
  intro inner
  obtain ⟨-, -, -, hspans⟩ := h.interpolated hbody hlongest
  have heq := h.eq
  rw [hlongest] at heq
  rw [h.ownErrors, hlongest, errors_interpolated, ← heq, Token.ownErrors, List.filter_append]
  congr 1
  · rw [Piece.filter_fragments]
    · refine List.filter_eq_self.2 fun e he => isOwnError_iff.2 (.inr ?_)
      obtain ⟨hspan, hnone⟩ := Piece.allOpenErrors_eq (t.span.start + 2)
        (wellCut_interpolatedBody .text body).1
      by_contra hother
      refine List.ne_nil_of_mem he (hnone fun span hmem hstop => hother ⟨span, hspans ▸ hmem, ?_⟩)
      rw [(hspan span hmem hstop).2] at he
      exact List.mem_singleton.1 he
    · intro e sequence hcause
      refine Bool.eq_false_iff.2 fun hown => ?_
      obtain rfl | ⟨span, -, rfl⟩ := isOwnError_iff.1 hown <;> cases hcause
    · -- an error inside of a splice starts behind the brace, and reaches into no other splice
      intro span hmem e hwithin
      refine Bool.eq_false_iff.2 fun hown => ?_
      obtain ⟨hlo, hhi⟩ := hwithin
      obtain ⟨hstart, hle, -⟩ := Fragment.spliceSpan_bounds span hmem
      obtain rfl | ⟨span', hmem', rfl⟩ := isOwnError_iff.1 hown
      · simp only at hlo
        omega
      · rw [hspans] at hmem'
        obtain ⟨hstart', hle', -⟩ := Fragment.spliceSpan_bounds span' hmem'
        simp only at hlo hhi
        obtain rfl | happart | happart := Fragment.spliceSpans_apart span hmem span' hmem'
        · omega
        · omega
        · omega
  · exact filter_whole

/-- An open splice is reported in an interpolated string if one of its own is open, or one further
in. -/
theorem ReadAt.any_interpolated_iff {body : List Char} (h : ReadAt source errors t c cs)
    (hlongest : Match.longest c cs = Match.interpolated body) :
    (fragments readAll (t.span.start + 2) (interpolatedBody .text body).pieces).2.any
        LexicalError.isOpenSplice = true ↔
      t.leavesOpen = true ∨ ∃ tokens span, t.HasSplice tokens span ∧ SomeOpen tokens := by
  have heq := h.eq
  rw [hlongest] at heq
  rw [any_fragments_iff fun chars ended _ offset => any_readAll_iff offset chars,
    ← leavesOpen_interpolated, ← heq]
  refine or_congr_right ⟨?_, ?_⟩
  · rintro ⟨tokens, span, hmem, hopen⟩
    refine ⟨tokens, span, ⟨_, ?_, hmem⟩, hopen⟩
    rw [heq]
    rfl
  · rintro ⟨tokens, span, ⟨fragments, hkind, hmem⟩, hopen⟩
    rw [heq] at hkind
    exact ⟨tokens, span, TokenKind.interpolated.inj hkind ▸ hmem, hopen⟩

/-- A plain string is reported as such, or not at all. -/
theorem ReadAt.reported_string (h : ReadAt source errors t '"' cs)
    (hlongest : Match.longest '"' cs = Match.string cs) : t.Reported errors := by
  have heq := h.eq
  rw [hlongest] at heq
  have hclosed : t.closed = (plainBody cs).2.1 := by rw [heq, closed_string]
  have hkind : ∀ fragments, t.kind ≠ .interpolated fragments := by
    rw [heq]
    intro fragments h
    cases h
  have hspans : t.spliceSpans = [] := by
    rw [heq]
    rfl
  have hown : t.ownErrors errors = if t.closed = true then [] else [⟨.unterminatedString, t.span⟩] := by
    have hbody : (Escape.decode false (t.span.start + 1) (plainBody cs).1).2.filter t.isOwnError =
        [] := List.filter_eq_nil_iff.2 fun e he hown => by
      obtain ⟨sequence, hcause⟩ := Escape.cause_of_mem_decode he
      obtain rfl | ⟨span, -, rfl⟩ := isOwnError_iff.1 hown <;> cases hcause
    rw [h.ownErrors, hlongest, errors_string, ← heq, ← hclosed, Token.ownErrors, List.filter_append,
      hbody, List.append_nil]
    exact filter_whole
  constructor
  case closed =>
    intro hend
    rw [hown, if_pos hend]
  case splice =>
    intro span hmem
    rw [hspans] at hmem
    cases hmem
  case whole =>
    intro hend _ _
    rw [hown, hend]
    rfl
  case masked =>
    rintro - - tokens span ⟨fragments, hinterpolated, -⟩
    exact absurd hinterpolated (hkind fragments)

/-- An interpolated string is reported by its open splice, or as such, or not at all. -/
theorem ReadAt.reported_interpolated {body : List Char} (h : ReadAt source errors t c cs)
    (hbody : c :: cs = 'f' :: '"' :: body) (hlongest : Match.longest c cs = Match.interpolated body) :
    t.Reported errors := by
  obtain ⟨hclosed, -, -, hspans⟩ := h.interpolated hbody hlongest
  have hany := h.any_interpolated_iff hlongest
  have hown := h.ownErrors_interpolated hbody hlongest
  obtain ⟨hspan, hnone⟩ := Piece.allOpenErrors_eq (t.span.start + 2)
    (wellCut_interpolatedBody .text body).1
  have hopen := leavesOpen_interpolated t.span.start body
  have heq := h.eq
  rw [hlongest] at heq
  rw [← heq, ne_eq] at hopen
  simp only [← hclosed] at hown hspan
  -- a closed string has no open splice, and without one of its own only those further in count
  have hclosedOpen (hend : t.closed = true) : t.leavesOpen = false := by
    refine Bool.eq_false_iff.2 fun hleaves => hopen.1 hleaves (hnone fun span hmem hstop => ?_)
    exact absurd (hend.symm.trans (hspan span hmem hstop).1) (by decide)
  have hfirst (hleaves : t.leavesOpen = false) : Piece.allOpenErrors (t.span.start + 2)
      (interpolatedBody .text body).pieces = [] := by
    by_contra hne
    exact absurd (hleaves.symm.trans (hopen.2 hne)) (by decide)
  constructor
  case closed =>
    intro hend
    rw [hown, hfirst (hclosedOpen hend), hend]
    rfl
  case splice =>
    intro span hmem hstop
    have hleaves : t.leavesOpen = true := List.any_eq_true.2 ⟨span, hmem, by simpa using hstop⟩
    have hunclosed : t.closed = false :=
      Bool.eq_false_iff.2 fun hend => absurd (hleaves.symm.trans (hclosedOpen hend)) (by decide)
    have hend := h.stop_interpolated hlongest
    simp only [← hclosed, hunclosed, Bool.false_eq_true, if_false, Nat.add_zero] at hend
    rw [hspans] at hmem
    rw [hown, (hspan span hmem (hstop.trans hend)).2, hany.2 (.inl hleaves), hstop]
    simp
  case whole =>
    intro hend hleaves hinside
    have hnothing : (fragments readAll (t.span.start + 2) (interpolatedBody .text body).pieces).2.any
        LexicalError.isOpenSplice = false := by
      refine Bool.eq_false_iff.2 fun hreported => ?_
      obtain hself | ⟨tokens, span, hin, hopen⟩ := hany.1 hreported
      · exact absurd (hleaves.symm.trans hself) (by decide)
      · exact hinside tokens span hin hopen
    rw [hown, hfirst hleaves, hend, hnothing]
    rfl
  case masked =>
    intro hend hleaves tokens span hin hinside
    rw [hown, hfirst hleaves, hany.2 (.inr ⟨tokens, span, hin, hinside⟩)]
    simp

/-- String literals that are not closed are reported at their own level, once, or not at all where a
string inside of their splices leaves a splice open. -/
theorem Occurs.reported {source : String} {t : Token} (ht : Occurs (tokenize source).tokens t)
    (hstring : t.kind.isString = true) : t.Reported (tokenize source).errors := by
  have hend : t.kind ≠ .endOfFile := fun h => by simp [h, TokenKind.isString] at hstring
  obtain ⟨c, cs, hread, -⟩ := ht.readAt hend
  rw [hread.eq] at hstring
  obtain ⟨rfl, hlongest⟩ | ⟨body, hbody, hlongest⟩ := longest_of_isString hstring
  · exact hread.reported_string hlongest
  · exact hread.reported_interpolated hbody hlongest

/-- Of `f"{"` the open splice is reported, and of the string in it that it lacks its quote. -/
theorem Occurs.reported_openSplice :
    let source := "f\"\x7b\""
    ∃ t, Occurs (tokenize source).tokens t ∧ t.kind.isString = true ∧ t.span = ⟨0, 4⟩ ∧
      ⟨3, 4⟩ ∈ t.spliceSpans ∧ t.Reported (tokenize source).errors := by
  intro source
  have hstring : ∃ t ∈ (tokenize source).tokens, t.kind.isString = true ∧ t.span = ⟨0, 4⟩ ∧
      ⟨3, 4⟩ ∈ t.spliceSpans := by decide +kernel
  obtain ⟨t, ht, hkind, hspan, hsplice⟩ := hstring
  exact ⟨t, .here ht, hkind, hspan, hsplice, (Occurs.here ht).reported hkind⟩

/-- The string `f"{f"{"}` lacks its quote, and no error says so: the splice of the string in its own
closed splice is open. -/
theorem Occurs.unreported :
    let source := "f\"\x7bf\"\x7b\"\x7d"
    ∃ t, Occurs (tokenize source).tokens t ∧ t.kind.isString = true ∧ t.text = source ∧
      t.closed = false ∧ t.leavesOpen = false ∧ t.ownErrors (tokenize source).errors = [] := by
  intro source
  have hstring : ∃ t ∈ (tokenize source).tokens, t.kind.isString = true ∧ t.text = source ∧
      t.closed = false ∧ t.leavesOpen = false ∧ t.ownErrors (tokenize source).errors = [] := by
    decide +kernel
  obtain ⟨t, ht, hstring⟩ := hstring
  exact ⟨t, .here ht, hstring⟩

end Token

end ActorFrontend
