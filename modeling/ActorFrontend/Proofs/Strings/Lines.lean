import ActorFrontend.Proofs.Strings.Places

/-!
# String literals and lines

A literal that is not closed ends with the line that it starts on: with the source, with the splice
that it stands in, or before a line feed.  The one way past a line feed is a string in a splice, where
a backslash hides it from the scan for the end of the splice.
-/

namespace ActorFrontend

variable {c : Char} {cs front back : List Char} {offset : Nat}

/-- String literals, plain and interpolated. -/
def TokenKind.isString : TokenKind → Bool
  | .string _ | .interpolated _ => true
  | _ => false

/-- The string literals among the matches. -/
theorem Token.longest_of_isString {read : Nat → List Char → Lexed}
    (h : (ofMatch read offset (Match.longest c cs)).1.kind.isString = true) :
    (c = '"' ∧ Match.longest c cs = Match.string cs) ∨
      ∃ body, c :: cs = 'f' :: '"' :: body ∧ Match.longest c cs = Match.interpolated body := by
  have hword (word : String) : (ofWord word).isString = false := by
    unfold ofWord
    split
    · rfl
    · split
      · rfl
      · split <;> rfl
  simp only [ofMatch, interpret] at h
  split at h
  case h_7 body closed hshape => exact .inl (Match.longest_eq_string hshape)
  case h_8 pieces closed hshape => exact .inr (Match.longest_eq_interpolated hshape)
  case h_5 => split at h <;> cases h
  case h_10 => exact absurd (h.symm.trans (hword _)) (by decide)
  all_goals cases h

/-! ## Line feeds -/

/-- A line feed in a text of two parts stands in one of them. -/
theorem Source.feed_in_append {left right : List Char} (h : left ++ right = front ++ '\n' :: back) :
    (∃ more, left = front ++ '\n' :: more) ∨
      ∃ front', front = left ++ front' ∧ right = front' ++ '\n' :: back := by
  obtain ⟨front', hfront, hright⟩ | ⟨more, hleft, hmore⟩ := List.append_eq_append_iff.1 h
  · exact .inr ⟨front', hfront, hright⟩
  · cases more with
    | nil => exact .inr ⟨[], by simpa using hleft.symm, hmore.symm⟩
    | cons d more =>
      obtain ⟨rfl, -⟩ := List.cons.inj hmore
      exact .inl ⟨more, hleft⟩

namespace Fragment

variable {read : Nat → List Char → Lexed} {pieces : List Piece}

/-- A line feed among the pieces of a string stands in a splice, behind a backslash. -/
theorem hidden_of_feed {closed : Bool} (hcut : Piece.WellCut closed pieces)
    (hhides : ∀ chars ended, .splice chars ended ∈ pieces → Source.HidesFeeds chars)
    (h : pieces.flatMap Piece.source = front ++ '\n' :: back) :
    ∃ hidden, front = hidden ++ ['\\'] ∧
      ∃ span ∈ (Token.fragments read offset pieces).1.filterMap spliceSpan?,
        span.start ≤ offset + Source.byteLength hidden ∧
          offset + Source.byteLength front < span.stop := by
  have hbrace : Char.utf8Size '{' = 1 := rfl
  have hslash : Char.utf8Size '\\' = 1 := rfl
  have hfeed : Char.utf8Size '\n' = 1 := rfl
  induction pieces generalizing front offset with
  | nil => exact absurd h (by simp)
  | cons piece pieces ih =>
    rw [Token.fragments_cons]
    obtain ⟨more, hpiece⟩ | ⟨front', rfl, hpieces⟩ := Source.feed_in_append h
    · cases piece with
      | text chars =>
        have hchars : chars = front ++ '\n' :: more := hpiece
        exact absurd (hchars ▸ by simp) hcut.1.2.lineFeed_not_mem
      | splice chars ended =>
        cases front with
        | nil => exact absurd (List.cons.inj hpiece).1 (by decide)
        | cons d front =>
          obtain ⟨rfl, hinner⟩ := List.cons.inj hpiece
          obtain ⟨more', rfl⟩ | ⟨front', -, hclosing⟩ := Source.feed_in_append hinner
          · obtain ⟨hidden, rfl⟩ := hhides _ _ List.mem_cons_self front more' rfl
            refine ⟨'{' :: hidden, rfl, _, List.mem_cons_self, ?_, ?_⟩
            · simp [hbrace, ← Nat.add_assoc]
            · simp [hbrace, hslash, hfeed]
              omega
          · -- the closing brace is no line feed
            exact absurd hclosing (by cases ended <;> cases front' <;> simp [closing])
    · obtain ⟨hidden, rfl, span, hmem, hle, hlt⟩ := @ih _
        (offset + Source.byteLength piece.source) (by cases piece <;> exact hcut.2)
        (fun chars ended hmem => hhides chars ended (List.mem_cons_of_mem _ hmem)) hpieces
      refine ⟨piece.source ++ hidden, by simp, span, ?_, ?_, ?_⟩
      · cases piece with
        | text chars => exact hmem
        | splice chars ended => exact List.mem_cons_of_mem _ hmem
      · simp only [Source.byteLength_append]
        omega
      · simp only [Source.byteLength_append] at hlt ⊢
        omega

/-- A splice ends at its closing brace, or with an open string. -/
theorem stop_of_splice {source : List Char} {closed : Bool} {span : Span}
    (hcut : Piece.WellCut closed pieces)
    (hs : Source.StandsAt source offset (pieces.flatMap Piece.source))
    (hmem : span ∈ (Token.fragments read offset pieces).1.filterMap spliceSpan?) :
    Source.StandsAt source span.stop ['}'] ∨
      closed = false ∧ span.stop = offset + Source.byteLength (pieces.flatMap Piece.source) := by
  have hbrace : Char.utf8Size '{' = 1 := rfl
  induction pieces generalizing offset with
  | nil => cases hmem
  | cons piece pieces ih =>
    rw [Token.fragments_cons] at hmem
    rw [List.flatMap_cons] at hs ⊢
    have hmore (hmem : span ∈ (Token.fragments read (offset + Source.byteLength piece.source)
        pieces).1.filterMap spliceSpan?) := ih (by cases piece <;> exact hcut.2) hs.right hmem
    simp only [Source.byteLength_append, ← Nat.add_assoc]
    cases piece with
    | text chars => exact hmore hmem
    | splice chars ended =>
      obtain rfl | hmem := List.mem_cons.1 hmem
      · cases ended with
        | false =>
          obtain ⟨hopen, rfl⟩ := hcut.1 rfl
          refine .inr ⟨hopen, ?_⟩
          simp [Piece.source, closing, hbrace]
          omega
        | true =>
          have hinner : Source.StandsAt source offset
              (('{' :: chars) ++ (['}'] ++ pieces.flatMap Piece.source)) := by
            simpa [Piece.source, closing] using hs
          have hend := hinner.right.left
          rw [Source.byteLength_cons, hbrace, ← Nat.add_assoc] at hend
          exact .inl hend
      · exact hmore hmem

end Fragment

/-! ## Ends of lines -/

/-- The token ends before a line feed, with the source, or with the splice that it stands in. -/
def Token.Stops (source : String) (t : Token) : Prop :=
  Source.StandsAt source.toList t.span.stop ['\n'] ∨
    t.span.stop = Source.byteLength source.toList ∨
    ∃ u tokens span, Occurs (tokenize source).tokens u ∧ u.HasSplice tokens span ∧ t ∈ tokens ∧
      t.span.stop = span.stop

/-- How a string literal keeps to its line. -/
structure Token.KeepsToLine (source : String) (t : Token) : Prop where
  /-- A line feed stands in it only behind a backslash, in one of its splices. -/
  hidden : ∀ front back, t.text.toList = front ++ '\n' :: back →
    ∃ hidden, front = hidden ++ ['\\'] ∧ ∃ span ∈ t.spliceSpans,
      span.start ≤ t.span.start + Source.byteLength hidden ∧
        t.span.start + Source.byteLength front < span.stop
  /-- Without its closing quote it stops where the line does. -/
  stops : t.closed = false → t.Stops source
  /-- Its splices end at their closing braces, or with it. -/
  splices : ∀ span ∈ t.spliceSpans, Source.StandsAt source.toList span.stop ['}'] ∨
    t.closed = false ∧ span.stop = t.span.stop

namespace Token

/-- In the text that it is read in, a token that reaches the end of a line stops before a line feed or
with that text. -/
theorem Occurs.stops {source : String} {t : Token} (ht : Occurs (tokenize source).tokens t)
    (hend : t.kind ≠ .endOfFile) :
    ∃ c cs, ReadAt source.toList (tokenize source).errors t c cs ∧
      (Source.AtLineEnd (Match.longest c cs).rest → t.Stops source) := by
  obtain ⟨c, cs, hread, hlevel⟩ := ht.readAt hend
  obtain ⟨hrest, hstop⟩ := hread.rest
  refine ⟨c, cs, hread, fun hline => ?_⟩
  cases hfollowing : (Match.longest c cs).rest with
  | nil =>
    rw [hfollowing] at hstop
    have hstop : t.span.stop = t.span.start + Source.byteLength (c :: cs) := hstop
    obtain hlast | ⟨u, tokens, span, hu, hin, hmem, hlast⟩ := hlevel
    · exact .inr (.inl (hstop.trans hlast))
    · exact .inr (.inr ⟨u, tokens, span, hu, hin, hmem, hstop.trans hlast⟩)
  | cons d rest =>
    rw [hfollowing] at hrest hline
    obtain rfl : d = '\n' := hline
    have hrest : Source.StandsAt source.toList t.span.stop (['\n'] ++ rest) := hrest
    exact .inl hrest.left

variable {source : String} {errors : List LexicalError} {t : Token}

/-- There is no line feed in a plain string, and it has no splices. -/
theorem ReadAt.keepsToLine_string (h : ReadAt source.toList errors t '"' cs)
    (hlongest : Match.longest '"' cs = Match.string cs)
    (hstops : Source.AtLineEnd (Match.string cs).rest → t.Stops source) : t.KeepsToLine source := by
  have heq := h.eq
  rw [hlongest] at heq
  have htext : t.text.toList = '"' :: (plainBody cs).1 ++ closing '"' (plainBody cs).2.1 := by
    rw [heq]
    simp [ofMatch, Match.string]
  have hspans : t.spliceSpans = [] := by
    rw [heq]
    rfl
  constructor
  case hidden =>
    intro front back hfeed
    have hmem : '\n' ∈ t.text.toList := by simp [hfeed]
    rw [htext] at hmem
    exact absurd hmem (by cases (plainBody cs).2.1 <;> simp [closing, lineFeed_not_mem_plainBody])
  case stops =>
    intro hopen
    rw [heq, closed_string] at hopen
    exact hstops (atLineEnd_plainBody hopen)
  case splices =>
    intro span hmem
    rw [hspans] at hmem
    cases hmem

/-- The line feeds in an interpolated string are those in its splices. -/
theorem ReadAt.keepsToLine_interpolated {body : List Char} (h : ReadAt source.toList errors t c cs)
    (hbody : c :: cs = 'f' :: '"' :: body) (hlongest : Match.longest c cs = Match.interpolated body)
    (hstops : Source.AtLineEnd (Match.interpolated body).rest → t.Stops source) :
    t.KeepsToLine source := by
  have hquote : Char.utf8Size '"' = 1 := rfl
  have hmark : Char.utf8Size 'f' = 1 := rfl
  obtain ⟨hclosed, htext, hpieces, hspans⟩ := h.interpolated hbody hlongest
  have hstop := h.stop_interpolated hlongest
  obtain ⟨hcut, hline⟩ := wellCut_interpolatedBody .text body
  constructor
  case hidden =>
    intro front back hfeed
    rw [htext] at hfeed
    obtain ⟨more, hopening⟩ | ⟨behind, rfl, hbehind⟩ := Source.feed_in_append hfeed
    · exact absurd (hopening ▸ (by simp : '\n' ∈ front ++ '\n' :: more)) (by decide)
    obtain ⟨more, hinside⟩ | ⟨behind', -, hclosing⟩ := Source.feed_in_append hbehind
    · obtain ⟨hidden, rfl, span, hmem, hle, hlt⟩ := Fragment.hidden_of_feed hcut
        (hidesFeeds_interpolatedBody .text body) hinside
      refine ⟨['f', '"'] ++ hidden, by simp, span, hspans ▸ hmem, ?_, ?_⟩
      · simp [hquote, hmark]
        omega
      · simp [hquote, hmark] at hlt ⊢
        omega
    · exact absurd hclosing
        (by cases (interpolatedBody .text body).closed <;> cases behind' <;> simp [closing])
  case stops =>
    intro hopen
    exact hstops (hline (hclosed.symm.trans hopen))
  case splices =>
    intro span hmem
    rw [hspans] at hmem
    obtain hbrace | ⟨hopen, hlast⟩ := Fragment.stop_of_splice hcut hpieces hmem
    · exact .inl hbrace
    · refine .inr ⟨hclosed.trans hopen, ?_⟩
      simp only [hopen, Bool.false_eq_true, if_false, Nat.add_zero] at hstop
      exact hlast.trans hstop.symm

/-- String literals keep to their lines, but for the line feeds that a backslash hides in a splice. -/
theorem Occurs.keepsToLine {source : String} {t : Token} (ht : Occurs (tokenize source).tokens t)
    (hstring : t.kind.isString = true) : t.KeepsToLine source := by
  have hend : t.kind ≠ .endOfFile := fun h => by simp [h, TokenKind.isString] at hstring
  obtain ⟨c, cs, hread, hstops⟩ := ht.stops hend
  rw [hread.eq] at hstring
  obtain ⟨rfl, hlongest⟩ | ⟨body, hbody, hlongest⟩ := longest_of_isString hstring
  · rw [hlongest] at hstops
    exact hread.keepsToLine_string hlongest hstops
  · rw [hlongest] at hstops
    exact hread.keepsToLine_interpolated hbody hlongest hstops

/-- The splice of `f"{x` runs into the line feed behind it, and the string ends there. -/
theorem Occurs.keepsToLine_openSplice :
    let source := "f\"\x7bx\ny"
    ∃ t, Occurs (tokenize source).tokens t ∧ t.kind.isString = true ∧ t.closed = false ∧
      t.span = ⟨0, 4⟩ ∧ t.KeepsToLine source := by
  intro source
  have hstring : ∃ t ∈ (tokenize source).tokens, t.kind.isString = true ∧ t.closed = false ∧
      t.span = ⟨0, 4⟩ := by decide +kernel
  obtain ⟨t, ht, hkind, hopen, hspan⟩ := hstring
  exact ⟨t, .here ht, hkind, hopen, hspan, (Occurs.here ht).keepsToLine hkind⟩

/-- The characters `f"{"\`, a line feed and `"}"` make one literal: the backslash hides the line feed from
the scan for the end of the splice. -/
theorem Occurs.runs_past_lineFeed :
    let source := "f\"\x7b\"\\\n\"\x7d\""
    ∃ t, Occurs (tokenize source).tokens t ∧ t.kind.isString = true ∧ t.text = source ∧
      '\n' ∈ t.text.toList := by
  intro source
  have hstring : ∃ t ∈ (tokenize source).tokens, t.kind.isString = true ∧ t.text = source ∧
      '\n' ∈ t.text.toList := by decide +kernel
  obtain ⟨t, ht, hkind, htext, hfeed⟩ := hstring
  exact ⟨t, .here ht, hkind, htext, hfeed⟩

end Token

end ActorFrontend
