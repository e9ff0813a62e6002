import ActorFrontend.Proofs.Defects.Ends
import ActorFrontend.Proofs.Defects.Parts

/-!
# One defect, one error

Between statements that are read without an error, a run of tokens that cannot be read as a statement
costs one error and nothing else, if it is closed by a semicolon and holds nothing that the recovery
might stop at.  The same holds between declarations.
-/

namespace ActorFrontend

open ActorFrontend.Parser

variable {α : Type} {setting : Setting} {s after : State} {levels : Nat}

namespace Parser

/-- Starting at the first of the tokens, the parser reads all of them as one value, and records those
errors. -/
def ReadsAll (p : Parser α) (setting : Setting) (lexemes : List Lexeme) (a : α)
    (errors : List ParseError) : Prop :=
  ∃ after, p setting (.initial setting lexemes) = .ok a after ∧ after.rest = [] ∧
    after.errors = errors

/-- Starting at the first of the tokens, the parser fails. -/
def Rejects (p : Parser α) (setting : Setting) (lexemes : List Lexeme) : Prop :=
  ∃ e after, p setting (.initial setting lexemes) = .fail e after

/-- Whether the parser reads all of the tokens and records no error. -/
def readsClean (p : Parser α) (setting : Setting) (lexemes : List Lexeme) : Bool :=
  match p setting (.initial setting lexemes) with
  | .ok _ after => after.rest.isEmpty && after.errors.isEmpty
  | .fail _ _ => false

theorem readsClean_iff {p : Parser α} {lexemes : List Lexeme} :
    p.readsClean setting lexemes = true ↔ ∃ a, p.ReadsAll setting lexemes a [] := by
  unfold readsClean ReadsAll
  cases p setting (.initial setting lexemes) with
  | ok a after => simp [and_assoc]
  | fail e after => simp

instance (p : Parser α) (setting : Setting) (lexemes : List Lexeme) :
    Decidable (p.Rejects setting lexemes) :=
  match hreply : p setting (.initial setting lexemes) with
  | .ok _ _ => isFalse fun ⟨_, _, hfail⟩ => nomatch hreply.symm.trans hfail
  | .fail e after => isTrue ⟨e, after, hreply⟩

end Parser

/-! ## The last token -/

/-- Where one token is left, that is the last one. -/
theorem State.rest_eq_of_last {inner : List Lexeme} {closing : Lexeme}
    (hsuffix : s.rest <:+ inner ++ [closing]) (hkind : s.kind ≠ .endOfFile)
    (hrest : s.advance.rest = []) : s.rest = [closing] := by
  rw [State.rest_advance] at hrest
  unfold State.kind at hkind
  cases hleft : s.rest with
  | nil =>
    rw [hleft] at hkind
    exact absurd rfl hkind
  | cons lexeme left =>
    rw [hleft] at hrest hsuffix
    obtain rfl : left = [] := hrest
    obtain ⟨front, hfront⟩ := hsuffix
    exact List.append_inj_right' hfront rfl

/-- Where the first run stands before its last token, a closing brace, the second one does. -/
theorem State.Together.closed {L : Likeness} {setting' : Setting} {errors : List ParseError}
    {φ : Footing} {s' : State} {closing : Lexeme}
    (h : s.Together L .none setting setting' errors φ none s') (hrest : s.rest = [closing])
    (hkind : s.kind = .symbol .rightBrace) :
    s'.kind = .symbol .rightBrace ∧ s'.advance.rest = [] := by
  cases h.meet with
  | behind hcut => exact absurd rfl hcut
  | before halike =>
    refine ⟨TokenKind.eq_of_isSymbol ?_, ?_⟩
    · rw [← halike.kind_alike.isSymbol_eq, hkind]
      rfl
    · rw [hrest] at halike
      rw [State.rest_advance]
      generalize s'.rest = left at halike
      cases halike with
      | last hcut => cases hcut
      | cons _ _ _ _ h =>
        cases h
        rfl

namespace Parser

/-! ## Statements in a block -/

/-- Whether no statement follows in a block. -/
def endsBody (s : State) : Bool := s.kind.isSymbol .rightBrace || s.atEnd

theorem endsBody_eq {L : Likeness} {cut : Cut} {s' : State}
    (h : Lexeme.AlikeUpTo L cut s.rest s'.rest) : endsBody s = endsBody s' := by
  rw [endsBody, endsBody, h.kind_alike.isSymbol_eq, h.atEnd_eq]

theorem endsBody_of_rest {closing : Lexeme} (hclosing : closing.token.kind = .symbol .rightBrace)
    (hrest : s.rest = [closing]) : endsBody s = true ∧ s.kind.isArrow = false := by
  have hkind : s.kind = .symbol .rightBrace := by
    rw [State.kind, hrest]
    exact hclosing
  rw [endsBody, hkind]
  exact ⟨rfl, rfl⟩

theorem Defect.not_endsBody {starts : Keyword → Bool} {ts rest : List Lexeme} (h : Defect starts ts)
    (hrest : s.rest = ts ++ rest) : endsBody s = false := by
  obtain ⟨hflat, hatEnd⟩ := h.kind_flat hrest
  rw [endsBody, hatEnd, Bool.or_false, ← Bool.not_eq_true]
  intro hkind
  rw [TokenKind.eq_of_isSymbol hkind] at hflat
  cases hflat

/-- Where the statements of a block start. -/
def blockEntry (setting : Setting) (opening : Lexeme) (inner : List Lexeme) : State :=
  { State.initial setting (opening :: inner) with
    rest := inner
    previousEnd := opening.token.span.stop
    depth := 1 }

/-- The statements of a block, the last one first. -/
abbrev stmtsUntilEnd (levels : Nat) : Parser (List Stmt) :=
  partsUntil endsBody .statements (stmt (.within levels)) []

variable {opening closing : Lexeme} {inner : List Lexeme}

/-- A block is read if its statements are, and its closing brace behind them. -/
theorem block_eq_ok_iff (hdepth : 0 < setting.limits.maxDepth)
    (hopening : opening.token.kind = .symbol .leftBrace) {block : Block} :
    (Rules.within (levels + 1)).block setting (.initial setting (opening :: inner)) = .ok block after ↔
      ∃ found t, stmtsUntilEnd levels setting (blockEntry setting opening inner) = .ok found t ∧
        t.kind = .symbol .rightBrace ∧
        block = ⟨found.reverse, opening.token.span.start,
          max t.advance.previousEnd opening.token.span.start⟩ ∧
        after = { t.advance with context := .anything, depth := t.advance.depth - 1 } := by
  have hopens : expect .leftBrace setting
      { State.initial setting (opening :: inner) with depth := 1 } =
      .ok () (blockEntry setting opening inner) := by
    rw [expect, require_eq, if_pos (by simp [State.kind, State.initial, hopening, TokenKind.isSymbol])]
    rfl
  change Parser.nested (blockRule (.within levels)) setting _ = _ ↔ _
  unfold Parser.nested
  rw [if_neg (show ¬ setting.limits.maxDepth ≤ (State.initial setting (opening :: inner)).depth from
    Nat.not_le.2 hdepth), mapState_eq_ok_iff]
  change (∃ t, blockRule (.within levels) setting
    { State.initial setting (opening :: inner) with depth := 1 } = _ ∧ _) ↔ _
  rw [blockRule, start_bind, bind_ok hopens]
  simp only [bind_eq_ok_iff, expect_eq_ok_iff, enclosed, withContext, mapState_eq_ok_iff]
  have hadvance (t : State) :
      State.advance { t with context := .anything } = { t.advance with context := .anything } := by
    cases t with
    | mk rest => cases rest <;> rfl
  constructor
  · rintro ⟨_, ⟨found, _, ⟨t, hreply, rfl⟩, _, _, ⟨hkind, rfl⟩, span, _, hspan, hblock⟩, rfl⟩
    obtain ⟨rfl, rfl⟩ := Reply.ok.inj hspan
    obtain ⟨rfl, rfl⟩ := Reply.ok.inj hblock
    change State.kind t = _ at hkind
    refine ⟨found, t, hreply, hkind, ?_⟩
    rw [show (blockEntry setting opening inner).context = .anything from rfl, hadvance]
    exact ⟨rfl, rfl⟩
  · rintro ⟨found, t, hreply, hkind, rfl, rfl⟩
    exact ⟨{ t.advance with context := .anything }, ⟨found, _, ⟨t, hreply, rfl⟩, (), _,
      ⟨hkind, hadvance t⟩, _, _, rfl, rfl⟩, rfl⟩

/-- The statements of a block. -/
theorem series_stmts (L : Likeness) (levels : Nat) :
    Series L endsBody .statements Keyword.startsStatement .finished (stmt (.within levels)) where
  progresses := progresses fun found =>
    follows_bodyTurn found (.inl rfl) (consumes_found (consumes_stmt (Rules.follow_within levels)))
  part := alike_stmt (Rules.alike_within levels)
  stop_eq _ _ _ := endsBody_eq
  stale := rfl
  resumes := Recovery.statements_resumesBehind

variable {limits : Limits} {endA endB endJ stop : Span} {semi : Lexeme} {before ts behind : List Lexeme}

/-- A block that is read to its closing brace: where the reading of its statements ends. -/
theorem stmts_of_block (hdepth : limits.maxDepth = levels + 2)
    (hopening : opening.token.kind = .symbol .leftBrace) {block : Block}
    (hblock : (Rules.within (levels + 2)).block.ReadsAll ⟨limits, stop⟩
      (opening :: (inner ++ [closing])) block []) :
    ∃ found t, stmtsUntilEnd (levels + 1) ⟨limits, stop⟩
        (blockEntry ⟨limits, stop⟩ opening (inner ++ [closing])) = .ok found t ∧
      t.rest = [closing] ∧ ¬ t.Noted ∧ block.stmts = found.reverse := by
  obtain ⟨after, hreply, hrest, herrors⟩ := hblock
  have hpos : 0 < limits.maxDepth := by omega
  obtain ⟨found, t, hfound, hkind, rfl, rfl⟩ := (block_eq_ok_iff hpos hopening).1 hreply
  have hkept := (series_stmts ⟨false, false, false⟩ (levels + 1)).keeps ⟨limits, stop⟩
    (blockEntry ⟨limits, stop⟩ opening (inner ++ [closing]))
  rw [show partsUntil _ _ _ [] _ _ = _ from hfound] at hkept
  have hsilent : t.errors = [] := t.advance_errors.1.symm.trans herrors
  have hlast : t.rest = [closing] := State.rest_eq_of_last hkept.rest (by simp [hkind]) hrest
  refine ⟨found, t, hfound, hlast, ?_, rfl⟩
  rintro (hnoted | hnoted)
  · exact hnoted hsilent
  · exact Bool.false_ne_true ((hkept.unspent hsilent).symm.trans hnoted)

/-- A defect between the statements of a block costs one error. -/
theorem block_one_error (hdepth : limits.maxDepth = levels + 2) (hlimit : 1 < limits.maxErrors)
    (hopening : opening.token.kind = .symbol .leftBrace)
    (hclosing : closing.token.kind = .symbol .rightBrace)
    (hsemi : semi.token.kind = .symbol .semicolon) {blockA blockB : Block}
    (hbefore : (Rules.within (levels + 2)).block.ReadsAll ⟨limits, endA⟩
      (opening :: (before ++ [closing])) blockA [])
    (hlast : ∀ last ∈ before.getLast?, last.token.kind = .symbol .semicolon)
    (hdefect : Defect Keyword.startsStatement ts)
    (hrejects : (stmt (.within (levels + 2))).Rejects ⟨limits, endJ⟩ (ts ++ [semi]))
    (hbehind : (Rules.within (levels + 2)).block.ReadsAll ⟨limits, endB⟩
      (opening :: (behind ++ [closing])) blockB []) :
    ∃ e block, (Rules.within (levels + 2)).block.ReadsAll ⟨limits, stop⟩
        (opening :: (before ++ (ts ++ semi :: (behind ++ [closing])))) block [e] ∧
      relabel .bare block.stmts = relabel .bare (blockA.stmts ++ blockB.stmts) := by
  obtain ⟨foundA, tA, hA, hrestA, hquietA, hstmtsA⟩ := stmts_of_block hdepth hopening hbefore
  obtain ⟨foundB, tB, hB, hrestB, hquietB, hstmtsB⟩ := stmts_of_block hdepth hopening hbehind
  have hkindB : tB.kind = .symbol .rightBrace := by
    rw [State.kind, hrestB]
    exact hclosing
  let rest := behind ++ [closing]
  let cut : Cut := .semicolon [closing] (ts ++ semi :: rest)
  let entry := blockEntry ⟨limits, stop⟩ opening (before ++ (ts ++ semi :: rest))
  have hmeet : State.Meet ⟨false, false, true⟩ cut .finished none
      (blockEntry ⟨limits, endA⟩ opening (before ++ [closing])) entry :=
    State.meet_of_getLast rfl rfl hlast rfl rfl
  have htogether : (blockEntry ⟨limits, endA⟩ opening (before ++ [closing])).Together
      ⟨false, false, true⟩ cut ⟨limits, endA⟩ ⟨limits, stop⟩ [] .finished none entry :=
    ⟨hmeet, rfl, Nat.le_refl _, fun h => absurd h Bool.false_ne_true, rfl, rfl, rfl, rfl, rfl⟩
  have hend : ∀ s : State, s.rest = cut.left → endsBody s = true ∧ s.kind.isArrow = false :=
    fun _ => endsBody_of_rest hclosing
  have hfails : ∀ t : State, entry.Kept true t → t.rest = ts ++ semi :: rest → t.errors = [] →
      endsBody t = false ∧ (stmt (.within (levels + 1))).FailsWithin Keyword.startsStatement rest
        ⟨limits, stop⟩ t := by
    intro t hkept hrest herrors
    have hdepth' : t.depth = 1 := hkept.depth
    have hlevel : t.depth < limits.maxDepth := by omega
    obtain ⟨e₀, after₀, hreply₀⟩ := hrejects
    have hlevels : Rules.Alike (⟨false, false, true⟩ : Likeness) (.within (levels + 1))
        (.within (levels + 2)) :=
      Rules.alike_within_of_le rfl (Nat.le_succ _)
    refine ⟨hdefect.not_endsBody hrest, ?_⟩
    exact (alike_stmt hlevels).failsWithin rfl rfl hdefect hsemi hreply₀ (Nat.le_add_right _ _) hrest
      hkept.context herrors fun k hk hkind => overlooks_stmt hk hkind hlevel
  obtain ⟨e, found, after, hwhole, hafter, hfound⟩ := (series_stmts _ (levels + 1)).one_error rfl rfl
    (show cut.symbol? ≠ none by simp [cut, Cut.symbol?]) hend (by simp [cut, Cut.symbol?]) hA hquietA
    hrestA htogether hdefect hsemi rfl hlimit hfails hB hquietB (by rw [hkindB]; rfl) rfl rfl rfl rfl
    (Nat.le_refl _)
  have hclosed := hafter.closed hrestB hkindB
  have hpos : 0 < limits.maxDepth := by omega
  refine ⟨e, _, ⟨_, (block_eq_ok_iff hpos hopening).2
    ⟨found, after, hwhole, hclosed.1, rfl, rfl⟩, hclosed.2, ?_⟩, ?_⟩
  · exact after.advance_errors.1.trans hafter.errors_right
  · rw [hstmtsA, hstmtsB, ← List.reverse_append]
    change relabel Renaming.bare (foundB ++ foundA) = relabel Renaming.bare found at hfound
    rw [relabel_reverse, relabel_reverse, hfound]

/-! ## Declarations in a program -/

/-- The declarations up to the end of the input, the last one first. -/
abbrev itemsUntilEnd (levels : Nat) : Parser (List Item) :=
  partsUntil State.atEnd .items (item (.within levels)) []

theorem program_eq_ok_iff {program : Program} :
    Parser.program (.within levels) setting s = .ok program after ↔
      ∃ found, itemsUntilEnd levels setting s = .ok found after ∧
        program = ⟨found.reverse, 0, (after.span setting).stop⟩ := by
  rw [Parser.program]
  simp only [bind_eq_ok_iff]
  constructor
  · rintro ⟨found, t, hfound, span, _, hspan, hprogram⟩
    obtain ⟨rfl, rfl⟩ := Reply.ok.inj hspan
    obtain ⟨rfl, rfl⟩ := Reply.ok.inj hprogram
    exact ⟨found, hfound, rfl⟩
  · rintro ⟨found, hfound, rfl⟩
    exact ⟨found, after, hfound, _, after, rfl, rfl⟩

/-- The declarations of a program. -/
theorem series_items (L : Likeness) (levels : Nat) :
    Series L State.atEnd .items Keyword.startsItem .closed (item (.within levels)) where
  progresses := progresses_programTurn (Rules.follow_within levels)
  part := alike_item (Rules.alike_within levels)
  stop_eq _ _ _ h := h.atEnd_eq
  stale := rfl
  resumes := Recovery.items_resumesBehind

/-- A program that is read without an error: where the reading of its declarations ends. -/
theorem items_of_program {program : Program}
    (hprogram : (Parser.program (.within levels)).ReadsAll setting before program []) :
    ∃ found t, itemsUntilEnd levels setting (.initial setting before) = .ok found t ∧
      t.rest = [] ∧ ¬ t.Noted ∧ program.items = found.reverse := by
  obtain ⟨t, hreply, hrest, herrors⟩ := hprogram
  obtain ⟨found, hfound, rfl⟩ := program_eq_ok_iff.1 hreply
  have hkept := (series_items ⟨false, false, false⟩ levels).keeps setting (.initial setting before)
  rw [show partsUntil _ _ _ [] _ _ = _ from hfound] at hkept
  refine ⟨found, t, hfound, hrest, ?_, rfl⟩
  rintro (hnoted | hnoted)
  · exact hnoted herrors
  · exact Bool.false_ne_true ((hkept.unspent herrors).symm.trans hnoted)

/-- A defect between the declarations of a program costs one error. -/
theorem program_one_error (hlimit : 1 < limits.maxErrors) (hsemi : semi.token.kind = .symbol .semicolon)
    {programA programB : Program}
    (hbefore : (Parser.program (.within levels)).ReadsAll ⟨limits, endA⟩ before programA [])
    (hdefect : Defect Keyword.startsItem ts)
    (hrejects : (item (.within levels)).Rejects ⟨limits, endJ⟩ (ts ++ [semi]))
    (hbehind : (Parser.program (.within levels)).ReadsAll ⟨limits, endB⟩ behind programB []) :
    ∃ e program, (Parser.program (.within levels)).ReadsAll ⟨limits, stop⟩
        (before ++ (ts ++ semi :: behind)) program [e] ∧
      relabel .bare program.items = relabel .bare (programA.items ++ programB.items) := by
  obtain ⟨foundA, tA, hA, hrestA, hquietA, hitemsA⟩ := items_of_program hbefore
  obtain ⟨foundB, tB, hB, hrestB, hquietB, hitemsB⟩ := items_of_program hbehind
  -- the declarations before the defect end in a semicolon or in a closing brace
  obtain ⟨symbol, hconcludes, hlast⟩ : ∃ symbol, (TokenKind.symbol symbol).concludes = true ∧
      ∀ last ∈ before.getLast?, last.token.kind = .symbol symbol := by
    obtain hsame | hnoted | ⟨front, last, hfront, hlast⟩ := concluded_items levels hA
    · have hnil : before = [] := hsame.symm.trans hrestA
      exact ⟨.semicolon, rfl, by simp [hnil]⟩
    · exact absurd hnoted hquietA
    · have hbefore : before = front ++ [last] := by
        rw [hrestA] at hfront
        exact hfront
      unfold TokenKind.concludes at hlast
      split at hlast
      case h_1 hkind => exact ⟨.semicolon, rfl, by simp [hbefore, hkind]⟩
      case h_2 hkind => exact ⟨.rightBrace, rfl, by simp [hbefore, hkind]⟩
      case h_3 => cases hlast
  obtain ⟨cut, hcut, hleft, hright⟩ : ∃ cut : Cut, cut.symbol? = some symbol ∧ cut.left = [] ∧
      cut.right = ts ++ semi :: behind := by
    unfold TokenKind.concludes at hconcludes
    split at hconcludes
    case h_1 hkind =>
      cases hkind
      exact ⟨.semicolon [] _, rfl, rfl, rfl⟩
    case h_2 hkind =>
      cases hkind
      exact ⟨.brace _, rfl, rfl, rfl⟩
    case h_3 => cases hconcludes
  have hmeet : State.Meet ⟨false, false, true⟩ cut .closed none (.initial ⟨limits, endA⟩ before)
      (.initial ⟨limits, stop⟩ (before ++ (ts ++ semi :: behind))) :=
    State.meet_of_getLast hcut rfl hlast (by rw [hleft, List.append_nil]; rfl) (by rw [hright]; rfl)
  have htogether : (State.initial ⟨limits, endA⟩ before).Together ⟨false, false, true⟩ cut
      ⟨limits, endA⟩ ⟨limits, stop⟩ [] .closed none
      (.initial ⟨limits, stop⟩ (before ++ (ts ++ semi :: behind))) :=
    ⟨hmeet, rfl, Nat.le_refl _, fun h => absurd h Bool.false_ne_true, rfl, rfl, rfl, rfl, rfl⟩
  have hend : ∀ s : State, s.rest = cut.left → s.atEnd = true ∧ s.kind.isArrow = false := by
    intro s hrest
    rw [State.atEnd, State.kind, hrest, hleft]
    exact ⟨rfl, rfl⟩
  have hfails : ∀ t : State,
      (State.initial ⟨limits, stop⟩ (before ++ (ts ++ semi :: behind))).Kept true t →
      t.rest = ts ++ semi :: behind → t.errors = [] → t.atEnd = false ∧
      (item (.within levels)).FailsWithin Keyword.startsItem behind ⟨limits, stop⟩ t := by
    intro t hkept hrest herrors
    obtain ⟨e₀, after₀, hreply₀⟩ := hrejects
    have hitem : Alike (⟨false, false, true⟩ : Likeness) true false none .unread .closed (Like _)
        (item (.within levels)) (item (.within levels)) := alike_item (Rules.alike_within levels)
    exact ⟨(hdefect.kind_flat hrest).2, hitem.failsWithin rfl rfl hdefect hsemi hreply₀
      (Nat.le_add_right _ _) hrest hkept.context herrors fun k hk hkind => overlooks_item hk hkind⟩
  obtain ⟨e, found, after, hwhole, hafter, hfound⟩ := (series_items _ levels).one_error rfl rfl
    (by simp [hcut]) hend (fun _ => rfl) hA hquietA (hrestA.trans hleft.symm) htogether hdefect hsemi
    hright hlimit hfails hB hquietB (by rw [State.kind, hrestB]; rfl) rfl rfl rfl rfl (Nat.le_refl _)
  have hclosed : after.rest = [] := by
    cases hafter.meet with
    | behind hcut => exact absurd rfl hcut
    | before halike =>
      rw [hrestB] at halike
      generalize after.rest = left at halike
      cases halike
      rfl
  refine ⟨e, _, ⟨after, program_eq_ok_iff.2 ⟨found, hwhole, rfl⟩, hclosed, hafter.errors_right⟩, ?_⟩
  rw [hitemsA, hitemsB, ← List.reverse_append]
  change relabel Renaming.bare (foundB ++ foundA) = relabel Renaming.bare found at hfound
  rw [relabel_reverse, relabel_reverse, hfound]

end Parser

/-! ## Under the standard limits -/

/-- One local defect costs one error and nothing else.  In a block, between statements that are read
without an error, a run of tokens on which no statement can be read and the semicolon behind it are
passed over, at the cost of one error; the statements are those before the run and those behind it, up
to places and numbers.  In a program the same holds of declarations.  In the run there are no brackets,
no semicolon and no string with splices, and only its first token may be a keyword that a statement, or
a declaration, starts with. -/
theorem defect_costs_one_error (endA endB endJ stop : Span) :
    (∀ (opening closing semi : Lexeme) (before ts behind : List Lexeme) (blockA blockB : Block),
      opening.token.kind = .symbol .leftBrace → closing.token.kind = .symbol .rightBrace →
      semi.token.kind = .symbol .semicolon →
      (∀ last ∈ before.getLast?, last.token.kind = .symbol .semicolon) →
      (Rules.within Limits.standard.maxDepth).block.ReadsAll ⟨.standard, endA⟩
        (opening :: (before ++ [closing])) blockA [] →
      (Rules.within Limits.standard.maxDepth).block.ReadsAll ⟨.standard, endB⟩
        (opening :: (behind ++ [closing])) blockB [] →
      Defect Keyword.startsStatement ts →
      (stmt (.within Limits.standard.maxDepth)).Rejects ⟨.standard, endJ⟩ (ts ++ [semi]) →
      ∃ e block, (Rules.within Limits.standard.maxDepth).block.ReadsAll ⟨.standard, stop⟩
          (opening :: (before ++ (ts ++ semi :: (behind ++ [closing])))) block [e] ∧
        relabel .bare block.stmts = relabel .bare (blockA.stmts ++ blockB.stmts)) ∧
    (∀ (semi : Lexeme) (before ts behind : List Lexeme) (programA programB : Program),
      semi.token.kind = .symbol .semicolon →
      (Parser.program (.within Limits.standard.maxDepth)).ReadsAll ⟨.standard, endA⟩ before
        programA [] →
      (Parser.program (.within Limits.standard.maxDepth)).ReadsAll ⟨.standard, endB⟩ behind
        programB [] →
      Defect Keyword.startsItem ts →
      (item (.within Limits.standard.maxDepth)).Rejects ⟨.standard, endJ⟩ (ts ++ [semi]) →
      ∃ e program, (Parser.program (.within Limits.standard.maxDepth)).ReadsAll ⟨.standard, stop⟩
          (before ++ (ts ++ semi :: behind)) program [e] ∧
        relabel .bare program.items = relabel .bare (programA.items ++ programB.items)) := by
  have hlimit : 1 < Limits.standard.maxErrors := by decide
  have hdepth : Limits.standard.maxDepth = 254 + 2 := rfl
  refine ⟨?_, ?_⟩
  · intro opening closing semi before ts behind blockA blockB hopening hclosing hsemi hlast hbefore
      hbehind hdefect hrejects
    exact block_one_error hdepth hlimit hopening hclosing hsemi hbefore hlast hdefect hrejects hbehind
  · intro semi before ts behind programA programB hsemi hbefore hbehind hdefect hrejects
    exact program_one_error hlimit hsemi hbefore hdefect hrejects hbehind

/-- The block `{ a; let = 1; b }` has the statements of `{ a; }` and of `{ b }`, and the program
`const a: T = 1; fn 1; const b: T = 2;` has the declarations on its sides. -/
theorem defect_costs_one_error_let_fn :
    let token (kind : TokenKind) : Lexeme := ⟨⟨kind, "", ⟨0, 0⟩⟩, false⟩
    let const (name : String) : List Lexeme :=
      [token (.keyword .constKw), token (.ident name), token (.symbol .colon), token (.ident "T"),
        token (.symbol .eq), token (.int 1), token (.symbol .semicolon)]
    let semi := token (.symbol .semicolon)
    let block (inner : List Lexeme) : List Lexeme :=
      token (.symbol .leftBrace) :: (inner ++ [token (.symbol .rightBrace)])
    (∃ blockA blockB e whole,
      (Rules.within 256).block.ReadsAll ⟨.standard, ⟨0, 0⟩⟩ (block [token (.ident "a"), semi]) blockA
        [] ∧
      (Rules.within 256).block.ReadsAll ⟨.standard, ⟨0, 0⟩⟩ (block [token (.ident "b")]) blockB [] ∧
      (Rules.within 256).block.ReadsAll ⟨.standard, ⟨0, 0⟩⟩
        (block [token (.ident "a"), semi, token (.keyword .letKw), token (.symbol .eq),
          token (.int 1), semi, token (.ident "b")]) whole [e] ∧
      relabel .bare whole.stmts = relabel .bare (blockA.stmts ++ blockB.stmts)) ∧
    ∃ programA programB e whole,
      (Parser.program (.within 256)).ReadsAll ⟨.standard, ⟨0, 0⟩⟩ (const "a") programA [] ∧
      (Parser.program (.within 256)).ReadsAll ⟨.standard, ⟨0, 0⟩⟩ (const "b") programB [] ∧
      (Parser.program (.within 256)).ReadsAll ⟨.standard, ⟨0, 0⟩⟩
        (const "a" ++ ([token (.keyword .fnKw), token (.int 1)] ++ semi :: const "b")) whole [e] ∧
      relabel .bare whole.items = relabel .bare (programA.items ++ programB.items) := by
  intro token const semi block
  refine ⟨?_, ?_⟩
  · obtain ⟨blockA, hA⟩ := readsClean_iff.1 (show (Rules.within 256).block.readsClean
      ⟨.standard, ⟨0, 0⟩⟩ (block [token (.ident "a"), semi]) = true by decide +kernel)
    obtain ⟨blockB, hB⟩ := readsClean_iff.1 (show (Rules.within 256).block.readsClean
      ⟨.standard, ⟨0, 0⟩⟩ (block [token (.ident "b")]) = true by decide +kernel)
    have hdefect : Defect Keyword.startsStatement
        [token (.keyword .letKw), token (.symbol .eq), token (.int 1)] :=
      ⟨by simp, by simp [Flat, token, TokenKind.isFlat, Symbol.opens, Symbol.closes],
        by simp [Unkeyed, token]⟩
    obtain ⟨e, whole, hwhole, hstmts⟩ := (defect_costs_one_error ⟨0, 0⟩ ⟨0, 0⟩ ⟨0, 0⟩ ⟨0, 0⟩).1
      (token (.symbol .leftBrace)) (token (.symbol .rightBrace)) semi _ _ _ _ _ rfl rfl rfl
      (by simp [semi, token]) hA hB hdefect (by decide +kernel)
    exact ⟨blockA, blockB, e, whole, hA, hB, hwhole, hstmts⟩
  · obtain ⟨programA, hA⟩ := readsClean_iff.1 (show (Parser.program (.within 256)).readsClean
      ⟨.standard, ⟨0, 0⟩⟩ (const "a") = true by decide +kernel)
    obtain ⟨programB, hB⟩ := readsClean_iff.1 (show (Parser.program (.within 256)).readsClean
      ⟨.standard, ⟨0, 0⟩⟩ (const "b") = true by decide +kernel)
    have hdefect : Defect Keyword.startsItem [token (.keyword .fnKw), token (.int 1)] :=
      ⟨by simp, by simp [Flat, token, TokenKind.isFlat], by simp [Unkeyed, token]⟩
    obtain ⟨e, whole, hwhole, hitems⟩ := (defect_costs_one_error ⟨0, 0⟩ ⟨0, 0⟩ ⟨0, 0⟩ ⟨0, 0⟩).2
      semi _ _ _ _ _ rfl hA hB hdefect (by decide +kernel)
    exact ⟨programA, programB, e, whole, hA, hB, hwhole, hitems⟩

end ActorFrontend
