import ActorFrontend.Token.Lexer
import Mathlib.Data.List.Chain

/-!
# Lexing loses nothing

The tokens of a text stand one after another and their texts make up the text.  This holds again
inside every interpolated string: its opening, its fragments and its closing quote make up its
text, and the tokens of a splice make up what stands between the braces.
-/

namespace ActorFrontend

/-! ## What the tokens of a text account for -/

/-- Nothing follows, or a line feed does. -/
def Source.AtLineEnd : List Char → Prop
  | [] => True
  | c :: _ => c = '\n'

/-- Literal text of an interpolated string as written: a quote or an opening brace stands in it
only behind a backslash, a line feed not even there. -/
def Escape.Plain : List Char → Prop
  | [] => True
  | ['\\'] => True
  | '\\' :: c :: cs => c ≠ '\n' ∧ Plain cs
  | c :: cs => c ≠ '"' ∧ c ≠ '{' ∧ c ≠ '\n' ∧ Plain cs

mutual

/-- The tokens stand one after another from `offset` on, none of them is empty or stands for the
end, and their texts make up the given one.  `errors` are those recorded on the way. -/
inductive Spells (errors : List LexicalError) : Nat → List Char → List Token → Prop where
  | nil {offset : Nat} : Spells errors offset [] []
  | cons {offset : Nat} {t : Token} {cs : List Char} {ts : List Token} :
      t.kind.isEndOfFile = false →
      t.text.toList ≠ [] →
      t.span = ⟨offset, offset + Source.byteLength t.text.toList⟩ →
      SpelledOut errors cs t →
      Spells errors t.span.stop cs ts →
      Spells errors offset (t.text.toList ++ cs) (t :: ts)

/-- The text of an interpolated string, after which `rest` follows, is made up by its opening, its
fragments and its closing quote.  The quote is missing only at the end of a line. -/
inductive SpelledOut (errors : List LexicalError) : List Char → Token → Prop where
  | plain {t : Token} {rest : List Char} :
      (∀ fragments, t.kind ≠ .interpolated fragments) → SpelledOut errors rest t
  | interpolated {t : Token} {rest body : List Char} {closed : Bool} {fragments : List Fragment} :
      t.kind = .interpolated fragments →
      t.text.toList = 'f' :: '"' :: body ++ closing '"' closed →
      (closed = false → Source.AtLineEnd rest) →
      SpellsBody errors closed (t.span.start + 2) body fragments →
      SpelledOut errors rest t

/-- The fragments stand one after another from `offset` on and make up the body of a string.  A
splice lacks its closing brace only where it is reported, and then the string ends with it and has
no closing quote either. -/
inductive SpellsBody (errors : List LexicalError) :
    Bool → Nat → List Char → List Fragment → Prop where
  | nil {closed : Bool} {offset : Nat} : SpellsBody errors closed offset [] []
  | text {closed : Bool} {offset : Nat} {chars cs : List Char} {fragments : List Fragment} :
      chars ≠ [] → Escape.Plain chars →
      SpellsBody errors closed (offset + Source.byteLength chars) cs fragments →
      SpellsBody errors closed offset (chars ++ cs)
        (.text (String.ofList (Escape.decode true offset chars).1)
          ⟨offset, offset + Source.byteLength chars⟩ :: fragments)
  | splice {closed : Bool} {offset : Nat} {chars cs : List Char} {tokens : List Token}
      {fragments : List Fragment} :
      Spells errors (offset + 1) chars tokens →
      SpellsBody errors closed (offset + 1 + Source.byteLength chars + 1) cs fragments →
      SpellsBody errors closed offset ('{' :: chars ++ '}' :: cs)
        (.splice tokens ⟨offset + 1, offset + 1 + Source.byteLength chars⟩ :: fragments)
  | openSplice {offset : Nat} {chars : List Char} {tokens : List Token} :
      ⟨.unterminatedInterpolation, offset, offset + 1 + Source.byteLength chars⟩ ∈ errors →
      Spells errors (offset + 1) chars tokens →
      SpellsBody errors false offset ('{' :: chars)
        [.splice tokens ⟨offset + 1, offset + 1 + Source.byteLength chars⟩]

end

/-! ## The pieces of an interpolated string -/

/-- No piece of literal text is empty or holds a delimiter, and an open splice is the last piece
of an open string. -/
def Piece.WellCut (closed : Bool) : List Piece → Prop
  | [] => True
  | .text chars :: pieces => (chars ≠ [] ∧ Escape.Plain chars) ∧ WellCut closed pieces
  | .splice _ ended :: pieces => (ended = false → closed = false ∧ pieces = []) ∧
      WellCut closed pieces

namespace Body

/-- The pieces of the body are cut in the right places, and an open body stops at the end of the
line. -/
def WellCut (b : Body) : Prop :=
  Piece.WellCut b.closed b.pieces ∧ (b.closed = false → Source.AtLineEnd b.rest)

theorem wellCut_cutOff {rest : List Char} (h : Source.AtLineEnd rest) : (cutOff rest).WellCut :=
  ⟨trivial, fun _ => h⟩

theorem wellCut_endSplice_cutOff {rest : List Char} (h : Source.AtLineEnd rest) :
    ((cutOff rest).endSplice false).WellCut :=
  ⟨⟨fun _ => ⟨rfl, rfl⟩, trivial⟩, fun _ => h⟩

theorem WellCut.endSplice {b : Body} (h : b.WellCut) : (b.endSplice true).WellCut :=
  ⟨⟨fun hended => Bool.noConfusion hended, h.1⟩, h.2⟩

theorem WellCut.consSplice {b : Body} (h : b.WellCut) (c : Char) : (b.consSplice c).WellCut := by
  obtain ⟨pieces, closed, rest⟩ := b
  match pieces with
  | [] | .text _ :: _ => exact h
  | .splice chars ended :: pieces => exact ⟨h.1, h.2⟩

/-- A character of literal text that is no backslash and no delimiter. -/
theorem WellCut.consText {b : Body} (h : b.WellCut) {c : Char} (hquote : c ≠ '"')
    (hbrace : c ≠ '{') (hline : c ≠ '\n') (hslash : c ≠ '\\') : (b.consText c).WellCut := by
  obtain ⟨pieces, closed, rest⟩ := b
  have hplain (chars : List Char) (h : Escape.Plain chars) : Escape.Plain (c :: chars) := by
    simp_all [Escape.Plain]
  match pieces with
  | [] => exact ⟨⟨⟨by simp, hplain [] trivial⟩, trivial⟩, h.2⟩
  | .text chars :: pieces =>
    obtain ⟨⟨⟨-, hchars⟩, hpieces⟩, hrest⟩ := h
    exact ⟨⟨⟨by simp, hplain chars hchars⟩, hpieces⟩, hrest⟩
  | .splice chars ended :: pieces => exact ⟨⟨⟨by simp, hplain [] trivial⟩, h.1⟩, h.2⟩

/-- A backslash and the character that it hides. -/
theorem WellCut.consEscape {b : Body} (h : b.WellCut) {c : Char} (hline : c ≠ '\n') :
    ((b.consText c).consText '\\').WellCut := by
  obtain ⟨pieces, closed, rest⟩ := b
  match pieces with
  | [] => exact ⟨⟨⟨by simp, hline, trivial⟩, trivial⟩, h.2⟩
  | .text chars :: pieces =>
    obtain ⟨⟨⟨-, hchars⟩, hpieces⟩, hrest⟩ := h
    exact ⟨⟨⟨by simp, hline, hchars⟩, hpieces⟩, hrest⟩
  | .splice chars ended :: pieces => exact ⟨⟨⟨by simp, hline, trivial⟩, h.1⟩, h.2⟩

/-- A backslash with nothing to hide. -/
theorem wellCut_consText_cutOff {rest : List Char} (h : Source.AtLineEnd rest) :
    ((cutOff rest).consText '\\').WellCut :=
  ⟨⟨⟨by simp, trivial⟩, trivial⟩, fun _ => h⟩

end Body

theorem wellCut_interpolatedBody (r : Region) (cs : List Char) :
    (interpolatedBody r cs).WellCut := by
  fun_induction interpolatedBody r cs
  case case1 => exact Body.wellCut_cutOff trivial
  case case2 => exact ⟨trivial, fun hopen => Bool.noConfusion hopen⟩
  -- a line that ends in the text, also behind a backslash
  case case3 => exact Body.wellCut_cutOff rfl
  case case4 => exact Body.wellCut_consText_cutOff rfl
  case case5 hline ih => exact ih.consEscape hline
  case case6 ih => exact ih
  case case7 c cs hquote hline hslashLine hslash hbrace ih =>
    by_cases hc : c = '\\'
    · -- a backslash that hides nothing is the last character of the source
      subst hc
      cases cs with
      | nil => exact Body.wellCut_consText_cutOff trivial
      | cons d cs => exact (hslash d cs rfl rfl).elim
    · exact ih.consText hquote hbrace hline hc
  -- a splice, or a string in it, that runs into the end of the source or of the line
  case case8 | case15 => exact Body.wellCut_endSplice_cutOff trivial
  case case9 | case16 => exact Body.wellCut_endSplice_cutOff rfl
  case case12 ih => exact ih.endSplice
  -- a string in a splice that ends in a backslash
  case case18 =>
    have hline : Source.AtLineEnd [] := trivial
    exact (Body.wellCut_endSplice_cutOff hline).consSplice _
  case case19 ih => exact (ih.consSplice _).consSplice _
  case case10 ih | case11 ih | case13 ih | case14 ih | case17 ih | case20 ih =>
    exact ih.consSplice _

/-! ## Tokens account for their text -/

/-- The fragments of a string account for its pieces if the tokens of its splices account for
their text. -/
theorem spellsBody_fragments {errors : List LexicalError} {read : Nat → List Char → Lexed}
    {closed : Bool} {pieces : List Piece} (hcut : Piece.WellCut closed pieces)
    (hread : ∀ chars ended, .splice chars ended ∈ pieces → ∀ offset,
      (read offset chars).errors ⊆ errors →
      Spells errors offset chars (read offset chars).tokens)
    (offset : Nat) (herrors : (Token.fragments read offset pieces).2 ⊆ errors) :
    SpellsBody errors closed offset (pieces.flatMap Piece.source)
      (Token.fragments read offset pieces).1 := by
  induction pieces generalizing offset with
  | nil => exact .nil
  | cons piece pieces ih =>
    have ih := ih (by cases piece <;> exact hcut.2)
      fun chars ended hmem => hread chars ended (List.mem_cons_of_mem _ hmem)
    cases piece with
    | text chars =>
      simp only [Token.fragments, List.append_subset] at herrors
      exact .text hcut.1.1 hcut.1.2 (ih _ herrors.2)
    | splice chars ended =>
      simp only [Token.fragments, List.append_subset] at herrors
      obtain ⟨⟨hopen, hinner⟩, hrest⟩ := herrors
      have hspells := hread chars ended (by simp) (offset + 1) hinner
      cases ended with
      | true =>
        simp only [List.flatMap_cons, Piece.source, closing, List.append_assoc,
          List.cons_append, Token.fragments]
        exact .splice hspells (ih _ hrest)
      | false =>
        -- an open splice is the last piece, and the string is open too
        obtain ⟨rfl, rfl⟩ := hcut.1 rfl
        simp only [Token.fragments, List.flatMap_cons, Piece.source, closing, List.append_nil,
          List.flatMap_nil]
        exact .openSplice (by simpa using hopen) hspells

/-- No match means the end of the source. -/
theorem isEndOfFile_interpret (read : Nat → List Char → Lexed) (m : Match) (span : Span) :
    (Token.interpret read m span).1.isEndOfFile = false := by
  unfold Token.interpret
  split
  case h_5 => split <;> rfl
  case h_10 =>
    unfold Token.ofWord
    split <;> (try split) <;> (try split) <;> rfl
  all_goals rfl

/-- Only a match that has pieces means an interpolated string. -/
theorem kind_interpret_ne {read : Nat → List Char → Lexed} {m : Match} {span : Span}
    (h : ∀ pieces closed, m.shape ≠ .interpolated pieces closed) (fragments : List Fragment) :
    (Token.interpret read m span).1 ≠ .interpolated fragments := by
  unfold Token.interpret
  split
  -- integers and words are decided by what they read as
  case h_8 pieces closed hshape => exact (h pieces closed hshape).elim
  case h_5 => split <;> simp
  case h_10 =>
    unfold Token.ofWord
    split <;> (try split) <;> (try split) <;> simp
  all_goals simp

/-- The token of a match accounts for the text of the match if the tokens of its splices account
for theirs. -/
theorem spelledOut_ofMatch {errors : List LexicalError} {read : Nat → List Char → Lexed}
    {c : Char} {cs : List Char}
    (hread : ∀ pieces closed, (Match.longest c cs).shape = .interpolated pieces closed →
      ∀ chars ended, .splice chars ended ∈ pieces → ∀ offset,
      (read offset chars).errors ⊆ errors →
      Spells errors offset chars (read offset chars).tokens)
    (offset : Nat) (herrors : (Token.ofMatch read offset (Match.longest c cs)).2 ⊆ errors) :
    SpelledOut errors (Match.longest c cs).rest
      (Token.ofMatch read offset (Match.longest c cs)).1 := by
  by_cases hshape : ∃ pieces closed, (Match.longest c cs).shape = .interpolated pieces closed
  · obtain ⟨pieces, closed, hshape⟩ := hshape
    -- the pieces are those that the body of the string is cut into
    obtain ⟨body, -, hlongest⟩ := Match.longest_eq_interpolated hshape
    have hcut := wellCut_interpolatedBody .text body
    have hread := hread _ _ (by rw [hlongest]; rfl)
    rw [hlongest] at herrors ⊢
    refine .interpolated rfl ?_ hcut.2 (spellsBody_fragments hcut.1 hread _ ?_)
    · simp [Token.ofMatch, Match.interpolated, Body.source]
    · refine fun e he => herrors ?_
      simp only [Token.ofMatch, Token.interpret, Match.interpolated] at he ⊢
      split
      · exact he
      · exact List.mem_append_left _ he
  · exact .plain (kind_interpret_ne fun pieces closed h => hshape ⟨pieces, closed, h⟩)

/-- The tokens of a text account for it; `errors` are all those found in a text that it is part
of. -/
theorem spells_readAll {errors : List LexicalError} (cs : List Char) (offset : Nat)
    (herrors : (Token.readAll offset cs).errors ⊆ errors) :
    Spells errors offset cs (Token.readAll offset cs).tokens := by
  induction hn : cs.length using Nat.strongRecOn generalizing cs offset with
  | ind n ih =>
    cases cs with
    | nil => exact .nil
    | cons c cs =>
      have hrest := Match.length_rest_longest c cs
      rw [List.length_cons] at hn
      simp only [Token.readAll_cons, Lexed.cons, List.append_subset] at herrors ⊢
      have hspelled : SpelledOut errors (Match.longest c cs).rest
          (Token.ofMatch Token.readAll offset (Match.longest c cs)).1 := by
        refine spelledOut_ofMatch (fun pieces closed hshape chars ended hmem offset h => ?_)
          offset herrors.1
        -- the source of a splice is shorter than the token it stands in
        have hlt := Match.length_lt_of_splice hshape hmem
        rw [List.length_cons] at hlt
        exact ih chars.length (by omega) chars offset h rfl
      have hspells := ih _ (by omega) (Match.longest c cs).rest _ herrors.2 rfl
      obtain ⟨hsplit, hne⟩ := Match.splits_longest c cs
      rw [← hsplit]
      have hstep : Spells errors offset _ _ := Spells.cons (isEndOfFile_interpret ..)
        (by simpa [Token.ofMatch] using hne) (by simp [Token.ofMatch]) hspelled hspells
      simpa [Token.ofMatch] using hstep

/-! ## What follows for a run of tokens -/

namespace Spells

variable {errors : List LexicalError}

/-- The texts of the tokens, one after another, are the text. -/
theorem flatMap_text {offset : Nat} {cs : List Char} {ts : List Token}
    (h : Spells errors offset cs ts) : ts.flatMap (·.text.toList) = cs := by
  match h with
  | .nil => rfl
  | .cons _ _ _ _ hrest => rw [List.flatMap_cons, flatMap_text hrest]

theorem text_ne_nil {offset : Nat} {cs : List Char} {ts : List Token}
    (h : Spells errors offset cs ts) : ∀ t ∈ ts, t.text.toList ≠ [] := by
  match h with
  | .nil => simp
  | .cons _ hne _ _ hrest => exact List.forall_mem_cons.2 ⟨hne, text_ne_nil hrest⟩

theorem isEndOfFile_kind {offset : Nat} {cs : List Char} {ts : List Token}
    (h : Spells errors offset cs ts) : ∀ t ∈ ts, t.kind.isEndOfFile = false := by
  match h with
  | .nil => simp
  | .cons hkind _ _ _ hrest => exact List.forall_mem_cons.2 ⟨hkind, isEndOfFile_kind hrest⟩

/-- A span is as long as the text that it covers. -/
theorem span_stop {offset : Nat} {cs : List Char} {ts : List Token}
    (h : Spells errors offset cs ts) :
    ∀ t ∈ ts, t.span.stop = t.span.start + Source.byteLength t.text.toList := by
  match h with
  | .nil => simp
  | .cons _ _ hspan _ hrest =>
    exact List.forall_mem_cons.2 ⟨by simp [hspan], span_stop hrest⟩

/-- With a token for the end behind them, the tokens stand next to each other, the first one at
the offset of the text. -/
theorem isChain_span {offset : Nat} {cs : List Char} {ts : List Token}
    (h : Spells errors offset cs ts) :
    (ts ++ [Token.endAt (offset + Source.byteLength cs)]).IsChain
      (fun t u => t.span.stop = u.span.start) ∧
    (ts ++ [Token.endAt (offset + Source.byteLength cs)]).head?.map (·.span.start) =
      some offset := by
  match h with
  | .nil => exact ⟨.singleton _, rfl⟩
  | @Spells.cons _ _ t cs ts _ _ hspan _ hrest =>
    have ih := isChain_span hrest
    have hstop : offset + Source.byteLength (t.text.toList ++ cs) =
        t.span.stop + Source.byteLength cs := by simp [hspan, Nat.add_assoc]
    rw [hstop, List.cons_append, List.isChain_cons]
    refine ⟨⟨fun u hu => ?_, ih.1⟩, by simp [hspan]⟩
    simpa [Option.mem_def.1 hu, eq_comm] using ih.2

end Spells

/-- All tokens of a source, and one for the end behind them. -/
theorem Lexer.finish_ofSource (source : String) (base : Nat) :
    (ofSource source base).finish =
      ⟨(Token.readAll base source.toList).tokens ++
        [Token.endAt (base + Source.byteLength source.toList)],
        (Token.readAll base source.toList).errors⟩ := rfl

/-- Reading a source loses nothing: the tokens, closed by an empty one for the end, stand next to
each other from `base` on, make up the source, and so do the parts of every interpolated string
and the tokens in its splices. -/
theorem finish_lossless (source : String) (base : Nat) :
    ∃ tokens,
      let lexed := (Lexer.ofSource source base).finish
      lexed.tokens = tokens ++ [Token.endAt (base + Source.byteLength source.toList)] ∧
      String.ofList (tokens.flatMap (·.text.toList)) = source ∧
      lexed.tokens.head?.map (·.span.start) = some base ∧
      lexed.tokens.IsChain (fun t u => t.span.stop = u.span.start) ∧
      (∀ t ∈ lexed.tokens, t.span.stop = t.span.start + Source.byteLength t.text.toList) ∧
      (∀ t ∈ tokens, t.text ≠ "") ∧
      Spells lexed.errors base source.toList tokens := by
  have hspells := spells_readAll source.toList base (List.Subset.refl _)
  have hchain := hspells.isChain_span
  refine ⟨(Token.readAll base source.toList).tokens, rfl, by simp [hspells.flatMap_text], hchain.2,
    hchain.1, fun t ht => ?_, fun t ht h => hspells.text_ne_nil t ht (by simp [h]), hspells⟩
  rcases List.mem_append.1 ht with ht | ht
  · exact hspells.span_stop t ht
  · obtain rfl := List.mem_singleton.1 ht
    rfl

end ActorFrontend
