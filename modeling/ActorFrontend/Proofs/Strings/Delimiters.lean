import ActorFrontend.Proofs.Splices.Places

/-!
# Where string literals end

A string literal that lacks its closing quote ends with its line, and so does a splice that lacks its
closing brace.  A line feed gets into a literal in one way only: behind a backslash, in a splice.
-/

namespace ActorFrontend

variable {c : Char} {cs chars : List Char} {offset : Nat} {read : Nat → List Char → Lexed}

/-! ## Closing quotes -/

/-- Whether a text ends in a quote that no backslash hides. -/
def Escape.endsInQuote : List Char → Bool
  | [] => false
  | ['"'] => true
  | '\\' :: _ :: cs => endsInQuote cs
  | _ :: cs => endsInQuote cs

/-- Where the body of a string ends whose fragments start at an offset.  A splice ends behind its
closing brace, or behind the byte that would hold it. -/
def Fragment.bodyStop : Nat → List Fragment → Nat
  | offset, [] => offset
  | _, .text _ span :: fragments => bodyStop span.stop fragments
  | _, .splice _ span :: fragments => bodyStop (span.stop + 1) fragments

/-- Whether the text of a string literal ends in its closing quote.  That of an interpolated string
stands behind all its fragments. -/
def Token.closed (t : Token) : Bool :=
  match t.kind with
  | .string _ => Escape.endsInQuote (t.text.toList.drop 1)
  | .interpolated fragments => t.span.stop == Fragment.bodyStop (t.span.start + 2) fragments + 1
  | _ => true

theorem Escape.endsInQuote_plainBody (cs : List Char) :
    endsInQuote ((plainBody cs).1 ++ closing '"' (plainBody cs).2.1) = (plainBody cs).2.1 := by
  fun_induction plainBody cs with
  | case1 | case2 | case3 | case4 => rfl
  | case5 c cs hhidden body closed rest hread ih =>
    rw [hread] at ih
    exact ih
  | case6 c cs hquote hfeed hhidden hescape body closed rest hread ih =>
    rw [hread] at ih
    by_cases hslash : c = '\\'
    · -- a backslash that hides nothing is the last character
      cases cs with
      | nil =>
        cases hread
        rw [hslash]
        rfl
      | cons d cs => exact absurd rfl (hescape d cs hslash)
    · rw [List.cons_append, endsInQuote]
      · exact ih
      · exact fun h _ => hquote h
      · exact fun _ _ h _ => hslash h

theorem Token.closed_string : (ofMatch read offset (Match.string cs)).1.closed = (plainBody cs).2.1 := by
  rw [← Escape.endsInQuote_plainBody cs]
  simp [Token.closed, ofMatch, interpret, Match.string]

namespace Fragment

theorem bodyStop_mono {offset' : Nat} (h : offset ≤ offset') (fragments : List Fragment) :
    bodyStop offset fragments ≤ bodyStop offset' fragments := by
  cases fragments with
  | nil => exact h
  | cons fragment fragments => cases fragment <;> exact Nat.le_refl _

/-- The body does not end before the last of its pieces does. -/
theorem le_bodyStop (pieces : List Piece) :
    offset + Source.byteLength (pieces.flatMap Piece.source) ≤
      bodyStop offset (Token.fragments read offset pieces).1 := by
  have hbrace : Char.utf8Size '{' = 1 := rfl
  have hbrace' : Char.utf8Size '}' = 1 := rfl
  induction pieces generalizing offset with
  | nil => exact Nat.le_refl offset
  | cons piece pieces ih =>
    rw [List.flatMap_cons, Source.byteLength_append, ← Nat.add_assoc]
    cases piece with
    | text chars => exact ih
    | splice chars ended =>
      refine Nat.le_trans ?_ (Nat.le_trans ih (bodyStop_mono ?_ _))
      · cases ended <;> simp [Piece.source, closing, hbrace, hbrace'] <;> omega
      · cases ended <;> simp

/-- The body of a closed string ends where its last piece does. -/
theorem bodyStop_eq {pieces : List Piece} (h : Piece.WellCut true pieces) :
    bodyStop offset (Token.fragments read offset pieces).1 =
      offset + Source.byteLength (pieces.flatMap Piece.source) := by
  have hbrace : Char.utf8Size '{' = 1 := rfl
  have hbrace' : Char.utf8Size '}' = 1 := rfl
  induction pieces generalizing offset with
  | nil => rfl
  | cons piece pieces ih =>
    rw [List.flatMap_cons, Source.byteLength_append, ← Nat.add_assoc]
    cases piece with
    | text chars => exact ih h.2
    | splice chars ended =>
      cases ended with
      | false => exact absurd (h.1 rfl).1 (by simp)
      | true =>
        refine (ih h.2).trans ?_
        simp [Piece.source, closing, hbrace, hbrace']
        omega

end Fragment

theorem Token.closed_interpolated :
    (ofMatch read offset (Match.interpolated cs)).1.closed = (interpolatedBody .text cs).closed := by
  have hcut := (wellCut_interpolatedBody .text cs).1
  have hquote : Char.utf8Size '"' = 1 := rfl
  have hmark : Char.utf8Size 'f' = 1 := rfl
  simp only [Token.closed, ofMatch, interpret, Match.interpolated, Body.source]
  generalize interpolatedBody .text cs = body at hcut ⊢
  cases hclosed : body.closed with
  | true =>
    rw [hclosed] at hcut
    rw [Fragment.bodyStop_eq hcut]
    simp [closing, hquote, hmark]
    omega
  | false =>
    have hle : offset + 2 + Source.byteLength (body.pieces.flatMap Piece.source) ≤
        Fragment.bodyStop (offset + 2) (Token.fragments read (offset + 2) body.pieces).1 :=
      Fragment.le_bodyStop body.pieces
    simp [closing, hquote, hmark]
    omega

/-! ## Splices -/

/-- The span of a splice. -/
def Fragment.spliceSpan? : Fragment → Option Span
  | .text _ _ => none
  | .splice _ span => some span

theorem Token.spliceSpans_of_kind {t : Token} {fragments : List Fragment}
    (h : t.kind = .interpolated fragments) :
    t.spliceSpans = fragments.filterMap Fragment.spliceSpan? := by
  rw [spliceSpans, h]
  rfl

/-! ## The end of the line -/

theorem atLineEnd_plainBody (h : (plainBody cs).2.1 = false) :
    Source.AtLineEnd (plainBody cs).2.2 := by
  fun_induction plainBody cs with
  | case1 => trivial
  | case2 => cases h
  | case3 | case4 => exact rfl
  | case5 c cs hhidden body closed rest hread ih | case6 c cs _ _ _ _ body closed rest hread ih =>
    rw [hread] at ih
    exact ih h

theorem lineFeed_not_mem_plainBody (cs : List Char) : '\n' ∉ (plainBody cs).1 := by
  fun_induction plainBody cs with
  | case1 | case2 | case3 => exact List.not_mem_nil
  | case4 cs =>
    show '\n' ∉ ['\\']
    decide
  | case5 c cs hhidden body closed rest hread ih =>
    rw [hread] at ih
    have hc : '\n' ≠ c := fun h => hhidden h.symm
    simp [hc, ih]
  | case6 c cs hquote hfeed hhidden hescape body closed rest hread ih =>
    rw [hread] at ih
    have hc : '\n' ≠ c := fun h => hfeed h.symm
    simp [hc, ih]

/-- Literal text stays on its line. -/
theorem Escape.Plain.lineFeed_not_mem (h : Plain chars) : '\n' ∉ chars := by
  fun_induction Plain chars with
  | case1 => exact List.not_mem_nil
  | case2 => decide
  | case3 c cs ih =>
    have hc : '\n' ≠ c := fun hc => h.1 hc.symm
    simp [hc, ih h.2]
  | case4 c cs _ _ ih =>
    have hc : '\n' ≠ c := fun hc => h.2.2.1 hc.symm
    simp [hc, ih h.2.2.2]

/-- A backslash stands before every line feed. -/
def Source.HidesFeeds (chars : List Char) : Prop :=
  ∀ front back, chars = front ++ '\n' :: back → ∃ hidden, front = hidden ++ ['\\']

namespace Source.HidesFeeds

theorem nil : HidesFeeds [] := fun front back h => absurd h (by simp)

theorem cons (h : HidesFeeds chars) (hc : c ≠ '\n') : HidesFeeds (c :: chars) := by
  intro front back hfront
  cases front with
  | nil => exact absurd (List.cons.inj hfront).1 hc
  | cons d front =>
    obtain ⟨rfl, hchars⟩ := List.cons.inj hfront
    obtain ⟨hidden, rfl⟩ := h front back hchars
    exact ⟨c :: hidden, rfl⟩

/-- A backslash and the character that it hides. -/
theorem escape (h : HidesFeeds chars) : HidesFeeds ('\\' :: c :: chars) := by
  intro front back hfront
  match front with
  | [] => exact absurd (List.cons.inj hfront).1 (by decide)
  | [d] =>
    obtain ⟨rfl, -⟩ := List.cons.inj hfront
    exact ⟨[], rfl⟩
  | d :: d' :: front =>
    simp only [List.cons_append, List.cons.injEq] at hfront
    obtain ⟨rfl, rfl, hchars⟩ := hfront
    obtain ⟨hidden, rfl⟩ := h front back hchars
    exact ⟨'\\' :: c :: hidden, rfl⟩

end Source.HidesFeeds

/-- A line feed in one of the splices stands behind a backslash. -/
def Body.HidesFeeds (b : Body) : Prop :=
  ∀ chars ended, .splice chars ended ∈ b.pieces → Source.HidesFeeds chars

namespace Body.HidesFeeds

variable {b : Body}

theorem cutOff (rest : List Char) : (Body.cutOff rest).HidesFeeds :=
  fun _ _ h => absurd h List.not_mem_nil

theorem consText (h : b.HidesFeeds) (c : Char) : (b.consText c).HidesFeeds := by
  intro chars ended hmem
  unfold Body.consText at hmem
  split at hmem
  case h_1 inner pieces hpieces =>
    refine h chars ended ?_
    rw [hpieces]
    exact List.mem_cons_of_mem _ ((List.mem_cons.1 hmem).resolve_left (by simp))
  case h_2 => exact h chars ended ((List.mem_cons.1 hmem).resolve_left (by simp))

theorem endSplice (h : b.HidesFeeds) (ended : Bool) : (b.endSplice ended).HidesFeeds := by
  intro chars closed hmem
  obtain hfirst | hmem := List.mem_cons.1 hmem
  · obtain ⟨rfl, -⟩ := Piece.splice.inj hfirst
    exact .nil
  · exact h chars closed hmem

/-- What stands before the first splice of a body becomes part of it. -/
theorem map_first {f : List Char → List Char} {b' : Body} (h : b.HidesFeeds)
    (hf : ∀ chars, Source.HidesFeeds chars → Source.HidesFeeds (f chars))
    (hpieces : ∀ chars closed pieces, b.pieces = .splice chars closed :: pieces →
      b'.pieces = .splice (f chars) closed :: pieces)
    (hopens : b.OpensOn cs) : b'.HidesFeeds := by
  obtain ⟨-, inner, closed, pieces, hb⟩ := hopens
  intro chars ended hmem
  rw [hpieces inner closed pieces hb] at hmem
  unfold Body.HidesFeeds at h
  rw [hb] at h
  obtain hfirst | hmem := List.mem_cons.1 hmem
  · obtain ⟨rfl, -⟩ := Piece.splice.inj hfirst
    exact hf inner (h inner closed List.mem_cons_self)
  · exact h chars ended (List.mem_cons_of_mem _ hmem)

theorem consSplice (h : b.HidesFeeds) (hopens : b.OpensOn cs) (hc : c ≠ '\n') :
    (b.consSplice c).HidesFeeds :=
  h.map_first (f := (c :: ·)) (fun _ h => h.cons hc) (fun _ _ _ hb => by simp [Body.consSplice, hb])
    hopens

theorem consEscape (h : b.HidesFeeds) (hopens : b.OpensOn cs) :
    ((b.consSplice c).consSplice '\\').HidesFeeds :=
  h.map_first (f := ('\\' :: c :: ·)) (fun _ h => h.escape)
    (fun _ _ _ hb => by simp [Body.consSplice, hb]) hopens

end Body.HidesFeeds

theorem hidesFeeds_interpolatedBody (r : Region) (cs : List Char) :
    (interpolatedBody r cs).HidesFeeds := by
  have hsplice (depth : Nat) (cs : List Char) : (interpolatedBody (.splice depth) cs).OpensOn cs :=
    accounts_interpolatedBody (.splice depth) cs
  have hquoted (depth : Nat) (cs : List Char) : (interpolatedBody (.quoted depth) cs).OpensOn cs :=
    accounts_interpolatedBody (.quoted depth) cs
  fun_induction interpolatedBody r cs with
  | case1 | case3 => exact .cutOff _
  | case2 cs => exact Body.HidesFeeds.cutOff cs
  | case4 cs => exact (Body.HidesFeeds.cutOff _).consText _
  | case5 c cs hhidden ih => exact (ih.consText _).consText _
  | case6 cs ih => exact ih
  | case7 c cs _ _ _ _ _ ih => exact ih.consText _
  | case8 | case9 | case15 | case16 => exact (Body.HidesFeeds.cutOff _).endSplice _
  | case12 cs ih => exact ih.endSplice _
  | case10 depth cs ih => exact ih.consSplice (hquoted _ _) (by decide)
  | case11 depth cs ih | case13 depth cs ih | case17 depth cs ih =>
    exact ih.consSplice (hsplice _ _) (by decide)
  | case14 depth c cs hfeed _ _ _ _ ih => exact ih.consSplice (hsplice _ _) hfeed
  | case18 =>
    exact ((Body.HidesFeeds.cutOff []).endSplice false).consSplice (Body.opensOn_cutOff _) (by decide)
  -- a string in a splice goes on behind a line feed that a backslash hides
  | case19 depth c cs ih => exact ih.consEscape (hquoted _ _)
  | case20 depth c cs hfeed _ _ _ ih => exact ih.consSplice (hquoted _ _) hfeed

end ActorFrontend
