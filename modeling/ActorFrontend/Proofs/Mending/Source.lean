import ActorFrontend.Proofs.Alike.Items
import ActorFrontend.Proofs.Budget
import ActorFrontend.Proofs.Mending.Errors
import ActorFrontend.Proofs.Mending.Runs
import ActorFrontend.Proofs.Mending.Tokens
import ActorFrontend.Proofs.Motion.Splices

/-!
# A missing semicolon put in

Where a source lacks a semicolon the reading assumes one and says so.  Once it stands there that error
is gone, the others are what they were, and the tree is the same up to places.
-/

namespace ActorFrontend

open ActorFrontend.Parser

variable {p : Nat} {e : ParseError} {front back : List Char} {limits : Limits}

/-- Places are not compared, the numbers of nodes are, and the second run has a semicolon at `p`. -/
def Comparison.mending (p : Nat) : Comparison where
  spans := false
  ids := true
  lax := false
  mended := some p
  unplaced _ := rfl
  level _ := rfl

/-- The session of a text. -/
def Session.ofChars (cs : List Char) (limits : Limits) : Session :=
  ofTokens ((Token.readAll 0 cs).tokens ++ [Token.endAt (Source.byteLength cs)]) limits

namespace Session

theorem setting_ofChars (cs : List Char) (limits : Limits) :
    (ofChars cs limits).setting = ⟨limits, .empty (Source.byteLength cs)⟩ := by
  have hend : (Token.readAll 0 cs).tokens.find? (·.kind.isEndOfFile) = none :=
    List.find?_eq_none.2 fun t ht h => Bool.false_ne_true
      (((spells_readAll cs 0 (List.Subset.refl _)).isEndOfFile_kind t ht).symm.trans h)
  simp only [ofChars, ofTokens, endOf, List.find?_append, hend]
  rfl

theorem state_ofChars (cs : List Char) (limits : Limits) :
    (ofChars cs limits).state = State.initial ⟨limits, .empty (Source.byteLength cs)⟩
      (Lexeme.significant false (Token.readAll 0 cs).tokens) := by
  rw [← setting_ofChars]
  simp only [ofChars, ofTokens, Lexeme.significant_endAt]

end Session

/-! ## The two runs -/

/-- As long as errors are still recorded, nothing has been mended. -/
theorem Reply.Strays.noMend_of_lt {α : Type} {setting : Setting} {χ : Footing} {r : Reply α}
    (h : r.Strays p setting χ) (hfew : r.state.errors.length < setting.limits.maxErrors) :
    NoMend p r.state.errors :=
  h.over_or_noMend.resolve_left fun hover => absurd hover.spent (Nat.not_le_of_lt hfew)

namespace Session

/-- The answer of the reading of declarations. -/
def reply (session : Session) : Reply Program :=
  Parser.program session.rules session.setting session.state

theorem errors_eq_reply (session : Session) :
    session.program.2.errors = session.reply.state.errors := errors_program session

theorem program_eq_reply (session : Session) :
    session.program.1 = match session.reply with
      | .ok program _ => program
      | .fail _ _ => ⟨[], ⟨0, session.setting.endOfInput.stop⟩⟩ := by
  unfold program run reply
  cases Parser.program session.rules session.setting session.state <;> rfl

theorem alike_reply (p : Nat) (limits : Limits) :
    Parser.Alike (Comparison.mending p) true true none .unread .unread (Like (Comparison.mending p))
      (Parser.program (.within limits.maxDepth)) (Parser.program (.within limits.maxDepth)) :=
  alike_program (Rules.alike_within limits.maxDepth)

/-- Where no significant token ends nothing is mended. -/
theorem not_avoiding_of_mendsAt {cs : List Char}
    (hfew : (ofChars cs limits).program.2.errors.length < limits.maxErrors)
    (he : e ∈ (ofChars cs limits).program.2.errors) (hmends : e.MendsAt p) :
    ¬ Avoiding p (Lexeme.significant false (Token.readAll 0 cs).tokens) := by
  intro havoid
  rw [errors_eq_reply] at hfew he
  have hstart : (ofChars cs limits).state.Strays p (ofChars cs limits).setting .unread := by
    rw [state_ofChars]
    exact .lost rfl .nil havoid (.inr (.inl rfl))
  have hreply : (ofChars cs limits).reply.Strays p (ofChars cs limits).setting .unread :=
    (alike_reply p limits).strays rfl (Hand.knows_none _) hstart
  exact hreply.noMend_of_lt hfew e he hmends

/-- The readings of a text and of the text with the semicolon. -/
theorem mendedAll_program (h : Token.Mending p 0 front back)
    (hfew : (ofChars (front ++ back) limits).program.2.errors.length < limits.maxErrors)
    (he : e ∈ (ofChars (front ++ back) limits).program.2.errors) (hmends : e.MendsAt p) :
    ParseError.MendedAll p (ofChars (front ++ back) limits).program.2.errors
        (ofChars (front ++ ';' :: back) limits).program.2.errors ∧
      Like (Comparison.mending p) (ofChars (front ++ back) limits).program.1
        (ofChars (front ++ ';' :: back) limits).program.1 := by
  obtain ⟨spot, -, hmended⟩ := h.mended
  have hsetting : (ofChars (front ++ back) limits).setting.Paired p
      (ofChars (front ++ ';' :: back) limits).setting := by
    rw [setting_ofChars, setting_ofChars]
    refine ⟨rfl, ?_⟩
    have hplace := h.place
    have hsemicolon : Char.utf8Size ';' = 1 := rfl
    have hle : p ≤ Source.byteLength (front ++ back) := by
      rw [Source.byteLength_append]
      omega
    have hlength : Source.byteLength (front ++ ';' :: back) = Source.byteLength (front ++ back) + 1 := by
      simp only [Source.byteLength_append, Source.byteLength_cons, hsemicolon]
      omega
    show Span.empty _ = (Span.empty _).insertAt p
    rw [hlength, Span.insertAt, if_pos (show p ≤ (Span.empty _).start from hle)]
    rfl
  have hstate : (ofChars (front ++ back) limits).state.Paired p spot .unread none
      (ofChars (front ++ ';' :: back) limits).state := by
    rw [state_ofChars, state_ofChars]
    exact State.Paired.initial 0 (hmended false)
  have hreply : (ofChars (front ++ back) limits).reply.Paired p (ofChars (front ++ back) limits).setting
      spot true .unread (Like (Comparison.mending p)) (ofChars (front ++ ';' :: back) limits).reply :=
    (alike_reply p limits).paired rfl hsetting hstate
  rw [errors_eq_reply] at hfew he
  obtain hgone | hmet := hreply
  · exact absurd hmends (hgone.strays.noMend_of_lt hfew e he)
  simp only [errors_eq_reply, program_eq_reply]
  generalize (ofChars (front ++ back) limits).reply = r at hmet
  generalize (ofChars (front ++ ';' :: back) limits).reply = r' at hmet
  cases hmet with
  | both h hlike => exact ⟨h.errors, hlike⟩
  | failed h => exact ⟨h.errors, rfl⟩

end Session

/-! ## Sources -/

theorem parseSource_ofList (cs : List Char) (limits : Limits) (h : (Token.readAll 0 cs).errors = []) :
    (parseSource (String.ofList cs) limits).errors =
        ((ParseError.inOrder (Session.ofChars cs limits).program.2.errors).take limits.maxErrors).map
          .parse ∧
      (parseSource (String.ofList cs) limits).program = (Session.ofChars cs limits).program.1 := by
  have htokens : tokenize (String.ofList cs) =
      ⟨(Token.readAll 0 cs).tokens ++ [Token.endAt (Source.byteLength cs)], []⟩ := by
    rw [tokenize, Lexer.finish_ofSource, String.toList_ofList, h, Nat.zero_add]
  simp only [parseSource, htokens, SyntaxError.merge_nil, Session.ofChars, and_self]

/-- If not more errors are recorded than may be, all of them are reported, in order. -/
theorem parseSource_errors_ofList {cs : List Char} {limits : Limits}
    (h : (Token.readAll 0 cs).errors = [])
    (hfew : (Session.ofChars cs limits).program.2.errors.length ≤ limits.maxErrors) :
    (parseSource (String.ofList cs) limits).errors =
      (ParseError.inOrder (Session.ofChars cs limits).program.2.errors).map .parse := by
  rw [(parseSource_ofList cs limits h).1, List.take_of_length_le]
  rwa [ParseError.inOrder, List.length_mergeSort]

/-- Errors that are recorded in the order of their places are reported as they are recorded. -/
theorem parseSource_errors_of_pairwise {source : String} (limits : Limits)
    (hlexical : (tokenize source).errors = [])
    (hsorted : (Session.ofTokens (tokenize source).tokens limits).program.2.errors.Pairwise
      fun a b => a.span.start ≤ b.span.start) :
    (parseSource source limits).errors =
      ((Session.ofTokens (tokenize source).tokens limits).program.2.errors.take limits.maxErrors).map
        .parse := by
  have hmerge := SyntaxError.merge_nil
    (Session.ofTokens (tokenize source).tokens limits).program.2.errors limits.maxErrors
  rw [ParseError.inOrder, List.mergeSort_of_pairwise (by simpa using hsorted)] at hmerge
  rw [← hmerge, ← hlexical]
  rfl

/-- The source in which the semicolon that an error calls missing has been put in where the error says.
Nothing else is reported of it than of the source without the semicolon, in the same order, and the
program is the same up to places.  What starts at the semicolon or behind it, or ends behind it, has
moved by a byte. -/
theorem parseSource_mended {source : String} {limits : Limits} {e : ParseError}
    (hlexical : (tokenize source).errors = [])
    (hfew : (parseSource source limits).errors.length < limits.maxErrors)
    (he : .parse e ∈ (parseSource source limits).errors)
    (hnote : e.cause.note? = some "inserted missing ';'") :
    ∃ front back : String, source = front ++ back ∧
      Source.byteLength front.toList = e.span.start ∧
      (∃ before after others, (parseSource source limits).errors = (before ++ e :: after).map .parse ∧
        (parseSource (front ++ ";" ++ back) limits).errors = others.map .parse ∧
        List.Forall₂ (ParseError.Moved e.span.start) (before ++ after) others) ∧
      relabel .withoutSpans (parseSource source limits).program =
        relabel .withoutSpans (parseSource (front ++ ";" ++ back) limits).program := by
  obtain ⟨cs, rfl⟩ : ∃ cs, source = String.ofList cs := ⟨source.toList, (String.ofList_toList).symm⟩
  have herrors : (Token.readAll 0 cs).errors = [] := by
    rwa [tokenize, Lexer.finish_ofSource, String.toList_ofList] at hlexical
  -- fewer errors than are recorded at most, so none is left out
  rw [(parseSource_ofList cs limits herrors).1, List.length_map, List.length_take, ParseError.inOrder,
    List.length_mergeSort] at hfew
  have hfew : (Session.ofChars cs limits).program.2.errors.length < limits.maxErrors := by omega
  have hreported := parseSource_errors_ofList herrors (Nat.le_of_lt hfew)
  have hmem : e ∈ (Session.ofChars cs limits).program.2.errors := by
    rw [hreported] at he
    obtain ⟨e', he', heq⟩ := List.mem_map.1 he
    cases heq
    exact List.mem_mergeSort.1 he'
  have hmends : e.MendsAt e.span.start := by
    refine ⟨?_, rfl⟩
    cases hcause : e.cause with
    | missingSemicolon k => exact ⟨k, rfl⟩
    | _ => rw [hcause] at hnote; cases hnote
  -- the semicolon in its place, and the two runs around it
  obtain ⟨front, back, rfl, hmending⟩ :=
    Token.exists_mending herrors (Session.not_avoiding_of_mendsAt hfew hmem hmends)
  obtain ⟨hmended, hlike⟩ := Session.mendedAll_program hmending hfew hmem hmends
  obtain ⟨before, after, hbefore, hothers⟩ := hmended.inOrder hmem hmends
  have hreported' := parseSource_errors_ofList hmending.errors
    (hmended.length_le.trans (Nat.le_of_lt hfew))
  have hsource : String.ofList front ++ ";" ++ String.ofList back =
      String.ofList (front ++ ';' :: back) := by
    simp [← String.toList_inj]
  refine ⟨String.ofList front, String.ofList back, String.ofList_append, ?_, ?_, ?_⟩
  · rw [String.toList_ofList, ← hmending.place, Nat.zero_add]
  · refine ⟨before, after, _, by rw [hreported, hbefore], by rw [hsource, hreported'], hothers⟩
  · rw [hsource, (parseSource_ofList _ limits herrors).2, (parseSource_ofList _ limits hmending.errors).2]
    exact hlike

/-- In `fn f() { let return }` the pattern is missing and the semicolon behind `return`, in the source
with the semicolon only the pattern. -/
theorem parseSource_mended_return :
    let source := "fn f() \x7b let return \x7d"
    (tokenize source).errors = [] ∧
      (parseSource source .standard).errors.length < Limits.standard.maxErrors ∧
      ∃ e : ParseError, .parse e ∈ (parseSource source .standard).errors ∧
        e.cause.note? = some "inserted missing ';'" ∧ e.span = .empty 19 ∧
        ∃ front back : String, source = front ++ back ∧ Source.byteLength front.toList = e.span.start ∧
          (∃ before after others,
            (parseSource source .standard).errors = (before ++ e :: after).map .parse ∧
              (parseSource (front ++ ";" ++ back) .standard).errors = others.map .parse ∧
              List.Forall₂ (ParseError.Moved e.span.start) (before ++ after) others) ∧
          relabel .withoutSpans (parseSource source .standard).program =
            relabel .withoutSpans (parseSource (front ++ ";" ++ back) .standard).program := by
  intro source
  have hlexical : (tokenize source).errors = [] := List.isEmpty_iff.1 (by decide +kernel)
  have herrors := parseSource_errors_of_pairwise .standard hlexical (by decide +kernel)
  have hlength : (Session.ofTokens (tokenize source).tokens .standard).program.2.errors.length = 2 := by
    decide +kernel
  have hfew : (parseSource source .standard).errors.length < Limits.standard.maxErrors := by
    rw [herrors, List.length_map, List.length_take, hlength]
    decide
  obtain ⟨e, hmem, hnote, hspan⟩ :
      ∃ e ∈ (Session.ofTokens (tokenize source).tokens .standard).program.2.errors,
        e.cause.note? = some "inserted missing ';'" ∧ e.span = .empty 19 := by
    decide +kernel
  have he : .parse e ∈ (parseSource source .standard).errors := by
    rw [herrors, List.take_of_length_le (by rw [hlength]; decide)]
    exact List.mem_map_of_mem hmem
  exact ⟨hlexical, hfew, e, he, hnote, hspan, parseSource_mended hlexical hfew he hnote⟩

/-- What ends at the semicolon does not move: the error at `return` ends directly before the semicolon
in both sources, so its end is not a byte further on. -/
theorem parseSource_mended_end_stays :
    let front := "fn f() \x7b let return"
    let back := " \x7d"
    (tokenize (front ++ back)).errors = [] ∧ Source.byteLength front.toList = 19 ∧
      (Session.ofTokens (tokenize (front ++ back)).tokens .standard).program.2.errors.map
        (fun e => (e.cause.note?, e.span)) = [(none, ⟨13, 19⟩), (some "inserted missing ';'", .empty 19)] ∧
      (parseSource (front ++ back) .standard).errors.map SyntaxError.span = [⟨13, 19⟩, .empty 19] ∧
      (parseSource (front ++ ";" ++ back) .standard).errors.map SyntaxError.span = [⟨13, 19⟩] ∧
      (parseSource (front ++ ";" ++ back) .standard).errors.map SyntaxError.span ≠ [⟨13, 20⟩] := by
  intro front back
  have hlexical : (tokenize (front ++ back)).errors = [] := List.isEmpty_iff.1 (by decide +kernel)
  have herrors := parseSource_errors_of_pairwise .standard hlexical (by decide +kernel)
  refine ⟨hlexical, by decide, by decide +kernel, ?_, by decide +kernel, by decide +kernel⟩
  rw [herrors]
  decide +kernel

end ActorFrontend
