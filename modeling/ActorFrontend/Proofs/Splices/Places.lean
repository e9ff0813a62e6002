import ActorFrontend.Proofs.Placement.Location
import ActorFrontend.Proofs.Splices.Closing

/-!
# Where splices stand

The tokens of a splice are those of a text behind an opening brace of the source, at any depth, and
where the splice is not reported as open the closing brace that the scan finds stands behind it.
-/

namespace ActorFrontend

/-- The token is one of these, or stands in a splice of one of these, at any depth. -/
inductive Token.Occurs (ts : List Token) : Token → Prop where
  | here {t : Token} (h : t ∈ ts) : Occurs ts t
  | inside {t u : Token} {tokens : List Token} {span : Span} (ht : Occurs ts t)
      (hin : t.HasSplice tokens span) (hu : u ∈ tokens) : Occurs ts u

namespace Token.Occurs

variable {t u : Token} {ts us tokens : List Token} {span : Span}

theorem mono (h : Occurs ts t) (hsub : ts ⊆ us) : Occurs us t := by
  induction h with
  | here h => exact .here (hsub h)
  | inside _ hin hu ih => exact .inside ih hin hu

/-- What occurs in a splice occurs where the token around it does. -/
theorem through (ht : Occurs ts t) (hin : t.HasSplice tokens span) (hu : Occurs tokens u) :
    Occurs ts u := by
  induction hu with
  | here h => exact .inside ht hin h
  | inside _ hin hmem ih => exact .inside ih hin hmem

end Token.Occurs

/-- The tokens are those of the text that stands at the span, in a splice; `errors` are all those
found in a text that it is part of. -/
structure Token.SplicedAt (source : List Char) (errors : List LexicalError) (span : Span)
    (tokens : List Token) (cs : List Char) : Prop where
  stands : Source.StandsAt source span.start cs
  stop : span.stop = span.start + Source.byteLength cs
  tokens_eq : tokens = (readAll span.start cs).tokens
  errors_subset : (readAll span.start cs).errors ⊆ errors
  closed : LexicalError.mk .unterminatedInterpolation ⟨span.start - 1, span.stop⟩ ∈ errors ∨
    Source.StandsAt source span.start (cs ++ ['}']) ∧ Region.Closes cs

namespace Token

variable {source : List Char} {errors : List LexicalError} {tokens : List Token} {span : Span}

/-- The splices of a string are read where they stand. -/
theorem splicedAt_of_mem_fragments {offset : Nat} {pieces : List Piece}
    (hs : Source.StandsAt source offset (pieces.flatMap Piece.source))
    (hcloses : ∀ chars, .splice chars true ∈ pieces → Region.Closes chars)
    (herrors : (fragments readAll offset pieces).2 ⊆ errors)
    (hmem : .splice tokens span ∈ (fragments readAll offset pieces).1) :
    ∃ cs, SplicedAt source errors span tokens cs := by
  induction pieces generalizing offset with
  | nil => cases hmem
  | cons piece pieces ih =>
    have ih {offset : Nat} (hs : Source.StandsAt source offset (pieces.flatMap Piece.source)) :=
      ih hs fun chars h => hcloses chars (List.mem_cons_of_mem _ h)
    rw [List.flatMap_cons] at hs
    cases piece with
    | text chars =>
      simp only [fragments, List.append_subset, List.mem_cons, reduceCtorEq, false_or] at herrors hmem
      exact ih hs.right herrors.2 hmem
    | splice chars ended =>
      simp only [fragments, List.append_subset, List.mem_cons, Fragment.splice.injEq] at herrors hmem
      obtain ⟨⟨hopen, hinner⟩, hmore⟩ := herrors
      have hs : Source.StandsAt source offset
          (['{'] ++ (chars ++ (closing '}' ended ++ pieces.flatMap Piece.source))) := by
        simpa [Piece.source] using hs
      obtain ⟨rfl, rfl⟩ | hmem := hmem
      · refine ⟨chars, hs.right.left, rfl, rfl, hinner, ?_⟩
        cases ended with
        | false => exact .inl (hopen (by simp))
        | true =>
          have hbrace := hs.right
          rw [← List.append_assoc] at hbrace
          exact .inr ⟨hbrace.left, hcloses chars List.mem_cons_self⟩
      · cases ended with
        | false => exact ih hs.right.right.right hmore hmem
        | true => exact ih hs.right.right.right hmore hmem

/-- The splices of a text are read where they stand. -/
theorem splicedAt_of_mem {offset : Nat} {cs : List Char} (hs : Source.StandsAt source offset cs)
    (herrors : (readAll offset cs).errors ⊆ errors) {t : Token} (ht : t ∈ (readAll offset cs).tokens)
    (hin : t.HasSplice tokens span) : ∃ cs, SplicedAt source errors span tokens cs := by
  induction hlength : cs.length using Nat.strongRecOn generalizing cs offset with
  | ind length ih =>
    cases cs with
    | nil => cases ht
    | cons c cs =>
      have hrest := Match.length_rest_longest c cs
      obtain ⟨hsplit, -⟩ := Match.splits_longest c cs
      rw [readAll_cons] at herrors ht
      simp only [Lexed.cons, List.append_subset, List.mem_cons] at herrors ht
      rw [← hsplit] at hs
      obtain rfl | ht := ht
      · obtain ⟨fragments, hkind, hmem⟩ := hin
        by_cases hshape : ∃ pieces closed, (Match.longest c cs).shape = .interpolated pieces closed
        · obtain ⟨pieces, closed, hshape⟩ := hshape
          obtain ⟨body, -, hlongest⟩ := Match.longest_eq_interpolated hshape
          rw [hlongest] at hkind herrors hs
          let body' := interpolatedBody .text body
          have hbody : Source.StandsAt source (offset + 2) (body'.pieces.flatMap Piece.source) := by
            have hopen : Source.StandsAt source offset
                (['f', '"'] ++ (body'.pieces.flatMap Piece.source ++
                  (closing '"' body'.closed ++ body'.rest))) := by
              simpa [Match.interpolated, Body.source] using hs
            exact hopen.right.left
          have hfragments : (Token.fragments readAll (offset + 2) body'.pieces).1 = fragments :=
            TokenKind.interpolated.inj hkind
          have hinner : (Token.fragments readAll (offset + 2) body'.pieces).2 ⊆ errors := by
            have hfirst := herrors.1
            simp only [ofMatch, interpret, Match.interpolated] at hfirst
            split at hfirst
            · exact hfirst
            · exact (List.append_subset.1 hfirst).1
          exact splicedAt_of_mem_fragments hbody (closes_interpolatedBody .text body) hinner
            (hfragments ▸ hmem)
        · exact absurd hkind (kind_interpret_ne (fun pieces closed h => hshape ⟨pieces, closed, h⟩) _)
      · rw [List.length_cons] at hlength
        exact ih _ (by omega) hs.right herrors.2 ht rfl

/-- The splices of a source, at any depth. -/
theorem Occurs.splicedAt {source : String} {t : Token} (ht : Occurs (tokenize source).tokens t)
    (hin : t.HasSplice tokens span) :
    ∃ cs, SplicedAt source.toList (tokenize source).errors span tokens cs := by
  induction ht generalizing tokens span with
  | here h =>
    rw [tokenize, Lexer.finish_ofSource] at h ⊢
    obtain h | h := List.mem_append.1 h
    · exact splicedAt_of_mem (Source.standsAt_self _) (fun _ h => h) h hin
    · obtain rfl := List.mem_singleton.1 h
      obtain ⟨fragments, hkind, -⟩ := hin
      cases hkind
  | inside _ houter hu ih =>
    obtain ⟨cs, hs, -, rfl, hinner, -⟩ := ih houter
    exact splicedAt_of_mem hs hinner hu hin

end Token

/-! ## The end of a splice -/

/-- A splice that is not reported as open ends at the brace that closes it in the tokens of the source
behind its opening brace, the first one that matches none before it: if the scan for the end of the
splice is not deceived by a comment, a string with quotes in its splices or a hidden line feed among
the tokens on the way. -/
theorem Token.Occurs.ends_at_closingBrace {source : String} {t : Token} {tokens : List Token} {span : Span}
    (ht : Occurs (tokenize source).tokens t) (hin : t.HasSplice tokens span)
    (hclosed : LexicalError.mk .unterminatedInterpolation ⟨span.start - 1, span.stop⟩ ∉
      (tokenize source).errors) :
    ∃ rest : String, Source.dropBytes? span.start source.toList = some rest.toList ∧
      let behind := (Lexer.ofSource rest span.start).finish.tokens
      ((∀ u ∈ behind, u.span.start < span.stop → u.Scannable) →
        ∃ brace, Token.closingBrace? 0 behind = some brace ∧ brace.span.start = span.stop) := by
  obtain ⟨cs, hsplice⟩ := ht.splicedAt hin
  obtain ⟨hbrace, hcloses⟩ := hsplice.closed.resolve_left hclosed
  obtain ⟨front, back, hsource, hfront⟩ := hbrace
  have hrest : (cs ++ ['}']) ++ back = cs ++ '}' :: back := by simp
  refine ⟨String.ofList (cs ++ '}' :: back), ?_, ?_⟩
  · rw [hsource, String.toList_ofList, ← hfront, ← hrest, List.append_assoc]
    exact Source.dropBytes?_append _ _
  · intro behind hscan
    have hbehind : behind = (readAll span.start (cs ++ '}' :: back)).tokens ++
        [endAt (span.start + Source.byteLength (cs ++ '}' :: back))] := by
      simp only [behind, Lexer.finish_ofSource, String.toList_ofList]
    rw [hbehind] at hscan ⊢
    have hstop : span.stop + 1 + Source.byteLength back =
        span.start + Source.byteLength (cs ++ '}' :: back) := by
      have hwidth : Char.utf8Size '}' = 1 := rfl
      simp only [Source.byteLength_append, Source.byteLength_cons, hsplice.stop]
      omega
    obtain ⟨brace, hfound, hstart⟩ := closingBrace?_of_behindBrace (hcloses back) hstop
      fun u hu => hscan u (List.mem_append_left _ hu)
    exact ⟨brace, closingBrace?_append hfound, hstart⟩

/-- The spans of the splices that stand in the token. -/
def Token.spliceSpans (t : Token) : List Span :=
  match t.kind with
  | .interpolated fragments => fragments.filterMap fun
    | .text _ _ => none
    | .splice _ span => some span
  | _ => []

theorem Token.exists_hasSplice {t : Token} {span : Span} (h : span ∈ t.spliceSpans) :
    ∃ tokens, t.HasSplice tokens span := by
  unfold spliceSpans at h
  split at h
  case h_1 fragments hkind =>
    obtain ⟨fragment, hmem, hspan⟩ := List.mem_filterMap.1 h
    cases fragment with
    | text => cases hspan
    | splice tokens inner =>
      obtain rfl := Option.some.inj hspan
      exact ⟨tokens, fragments, hkind, hmem⟩
  case h_2 => cases h

/-- The string in the splice of `f"{ g("}") }"` holds a brace, which the scan passes over. -/
theorem Token.Occurs.ends_at_closingBrace_string :
    let source := "f\"\x7b g(\"\x7d\") \x7d\""
    ∃ t tokens, Occurs (tokenize source).tokens t ∧ t.HasSplice tokens ⟨3, 11⟩ ∧
      ∃ brace, Token.closingBrace? 0
        (Lexer.ofSource " g(\"\x7d\") \x7d\"" 3).finish.tokens = some brace ∧
        brace.span.start = 11 := by
  intro source
  have hsplice : ∃ t ∈ (tokenize source).tokens, ⟨3, 11⟩ ∈ t.spliceSpans := by decide +kernel
  obtain ⟨t, ht, hspan⟩ := hsplice
  obtain ⟨tokens, hin⟩ := exists_hasSplice hspan
  obtain ⟨rest, hrest, hbrace⟩ := (Occurs.here ht).ends_at_closingBrace hin (by decide +kernel)
  obtain rfl : " g(\"\x7d\") \x7d\"" = rest := by
    have hbehind : Source.dropBytes? 3 source.toList = some " g(\"\x7d\") \x7d\"".toList := by
      decide +kernel
    exact String.toList_inj.1 (Option.some.inj (hbehind.symm.trans hrest))
  exact ⟨t, tokens, .here ht, hin, hbrace (by decide +kernel)⟩

/-- The scan knows no comments: that of `f"{ /* } */ }"` holds the brace at which it ends the splice,
five bytes before the one that its tokens have for it. -/
theorem Token.Occurs.ends_before_closingBrace :
    let source := "f\"\x7b /* \x7d */ \x7d\""
    ∃ t tokens, Occurs (tokenize source).tokens t ∧ t.HasSplice tokens ⟨3, 7⟩ ∧
      LexicalError.mk .unterminatedInterpolation ⟨2, 7⟩ ∉ (tokenize source).errors ∧
      Source.dropBytes? 3 source.toList = some " /* \x7d */ \x7d\"".toList ∧
      (Token.closingBrace? 0 (Lexer.ofSource " /* \x7d */ \x7d\"" 3).finish.tokens).map
        (·.span.start) = some 12 := by
  intro source
  have hsplice : ∃ t ∈ (tokenize source).tokens, ⟨3, 7⟩ ∈ t.spliceSpans := by decide +kernel
  obtain ⟨t, ht, hspan⟩ := hsplice
  obtain ⟨tokens, hin⟩ := exists_hasSplice hspan
  exact ⟨t, tokens, .here ht, hin, by decide +kernel, by decide +kernel, by decide +kernel⟩

end ActorFrontend
