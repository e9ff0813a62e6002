import ActorFrontend.Proofs.Motion.Statements
import ActorFrontend.Proofs.Motion.Texts
import ActorFrontend.Proofs.Nesting.Items

/-!
# What a splice means

The expression in a splice is what its text means on its own, moved to where it stands.
-/

namespace ActorFrontend

open ActorFrontend.Parser

/-- The same tokens are significant without the one for the end. -/
theorem Lexeme.significant_endAt (lineBreak : Bool) (ts : List Token) (offset : Nat) :
    significant lineBreak (ts ++ [Token.endAt offset]) = significant lineBreak ts := by
  induction ts generalizing lineBreak with
  | nil => rfl
  | cons t ts ih =>
    rw [List.cons_append, significant, significant, ih, ih]

/-- What an expression up to the end is does not depend on what is wanted behind it. -/
theorem Parser.wholeExpr_of_ok {g : Rules} {wanted wanted' : Expected} {setting : Setting}
    {s after : State} {e : Expr} (h : wholeExpr g wanted setting s = .ok e after) :
    wholeExpr g wanted' setting s = .ok e after := by
  change Parser.bind _ _ setting s = _ at h ⊢
  unfold Parser.bind at h ⊢
  cases hexpr : expr g setting s with
  | fail error s' =>
    rw [hexpr] at h
    cases h
  | ok e' s' =>
    rw [hexpr] at h
    simp only at h ⊢
    rw [atEnd, query_bind] at h ⊢
    split
    case isTrue hend => rwa [if_pos hend] at h
    case isFalse hend =>
      rw [if_neg hend] at h
      cases h

/-- A splice that is read without an error is read alike with all levels and at no depth. -/
theorem Parser.wholeExpr_of_within {levels : Nat} {setting : Setting} {s inner : State} {e : Expr}
    {tokens : List Token} (hlevels : levels ≤ setting.limits.maxDepth)
    (h : wholeExpr (.within levels) (.symbol .rightBrace) setting (s.inSplice setting tokens) =
      .ok e inner) (hsilent : inner.errors = []) :
    ∃ after, wholeExpr (.within setting.limits.maxDepth) (.symbol .rightBrace) setting
      { State.initial setting (Lexeme.significant false tokens) with nextId := s.nextId } =
        .ok e after ∧ after.errors = [] := by
  have hrules : Rules.Alike (⟨true, true, true⟩ : Likeness) (.within levels)
      (.within setting.limits.maxDepth) :=
    Rules.alike_within_of_le rfl hlevels
  have hsetting : setting.Comparable ⟨true, true, true⟩ .none setting := ⟨rfl, nofun⟩
  have hentry : (s.inSplice setting tokens).Together ⟨true, true, true⟩ .none setting setting []
      .unread none { State.initial setting (Lexeme.significant false tokens) with
        nextId := s.nextId, depth := 0 } :=
    State.together_initial hsetting (.refl _) (by omega) rfl
  have halike : Alike (⟨true, true, true⟩ : Likeness) true true none .unread .loose
      (Like ⟨true, true, true⟩)
      (wholeExpr (.within levels) (.symbol .rightBrace))
      (wholeExpr (.within setting.limits.maxDepth) (.symbol .rightBrace)) := alike_wholeExpr hrules
  have hruns := halike.together hsetting hentry
  have hkept := halike.keepAlike.left setting (s.inSplice setting tokens)
  rw [h] at hruns hkept
  generalize hreply : wholeExpr (.within setting.limits.maxDepth) _ setting _ = reply at hruns
  cases hruns with
  | astray hastray =>
    cases hastray with
    | noted hnoted =>
      obtain hnoted | hnoted := hnoted
      · exact absurd hsilent hnoted
      · exact absurd ((hkept.unspent hsilent).symm.trans hnoted) Bool.false_ne_true
    | stuck hblocked => cases hblocked
    | beyond hlt => exact absurd hlt (Nat.not_lt_zero _)
    | behind hcut => exact absurd rfl hcut
  | @both _ e' _ after hboth hlike =>
    rw [Like, Likeness.relabeling_eq_identity rfl rfl, relabel_identity, relabel_identity] at hlike
    subst hlike
    exact ⟨after, hreply, hboth.errors_right⟩

/-- An expression that is read further on means there what its text means on its own. -/
theorem parseExpression_of_moved {text : String} {offset : Nat} {nextId : NodeId} {e : Expr}
    {after : State} (hlexical : (Token.readAll offset text.toList).errors = [])
    (h : let setting : Setting := ⟨.standard, .empty (offset + Source.byteLength text.toList)⟩
      wholeExpr (.within Limits.standard.maxDepth) (.symbol .rightBrace) setting
        { State.initial setting (Lexeme.significant false (Token.readAll offset text.toList).tokens) with
          nextId } = .ok e after)
    (hsilent : after.errors = []) :
    ∃ e₀, parseExpression text = .ok e₀ ∧ e = relabel (Motion.renaming ⟨offset, nextId⟩) e₀ := by
  let m : Motion := ⟨offset, nextId⟩
  let session := Session.ofTokens (tokenize text).tokens .standard
  have hmoved : Token.readAll offset text.toList = (Token.readAll 0 text.toList).shift offset := by
    rw [← Token.readAll_add, Nat.zero_add]
  rw [hmoved] at hlexical h
  -- the reading from scratch, moved, is the one that is known
  have hsetting : session.setting = ⟨.standard, .empty (Source.byteLength text.toList)⟩ :=
    congrArg (Setting.mk Limits.standard) (Session.located_ofTokens_tokenize text .standard).2
  have hsettings : session.setting.move m =
      ⟨.standard, .empty (offset + Source.byteLength text.toList)⟩ := by
    rw [hsetting, Nat.add_comm]
    rfl
  have hlexemes : Lexeme.significant false (tokenize text).tokens =
      Lexeme.significant false (Token.readAll 0 text.toList).tokens := by
    rw [tokenize, Lexer.finish_ofSource, Lexeme.significant_endAt]
  have hstates : session.state.move m = { State.initial (session.setting.move m)
      (Lexeme.significant false ((Token.readAll 0 text.toList).shift offset).tokens) with nextId } := by
    have hinitial := @State.initial_move m session.setting
      (Lexeme.significant false (tokenize text).tokens) 0 0
    rw [Lexed.shift, Lexeme.significant_shift, ← hlexemes]
    rw [Nat.zero_add] at hinitial
    exact hinitial.symm
  have hmoves := moves_wholeExpr (Rules.move_within m Limits.standard.maxDepth) (.symbol .rightBrace)
    session.setting session.state
  rw [hstates, hsettings, h] at hmoves
  cases hreply : wholeExpr (.within Limits.standard.maxDepth) (.symbol .rightBrace) session.setting
      session.state with
  | fail error inner =>
    rw [hreply] at hmoves
    cases hmoves
  | ok e₀ inner =>
    rw [hreply] at hmoves
    obtain ⟨rfl, rfl⟩ := Reply.ok.inj hmoves
    refine ⟨e₀, ?_, rfl⟩
    have herrors : inner.errors = [] := List.map_eq_nil_iff.1 hsilent
    have hlexed : (tokenize text).errors = [] := List.map_eq_nil_iff.1 hlexical
    have hrun : wholeExpr session.rules .endOfInput session.setting session.state = .ok e₀ inner :=
      wholeExpr_of_ok hreply
    have hresult : session.run (wholeExpr session.rules .endOfInput) =
        (.ok e₀, { session with state := inner }) := by
      rw [Session.run, hrun]
    unfold parseExpression
    simp only
    erw [hresult]
    simp [hlexed, Session.errors, herrors, SyntaxError.merge]

/-- A splice stands there in a string among the tokens, at any depth. -/
def Token.SpliceAt (ts : List Token) (span : Span) : Prop :=
  ∃ t tokens, Occurs ts t ∧ t.HasSplice tokens span

/-- The expression is that of a splice of the source, and it is what the text of the splice means on its
own, moved to where the splice stands and with numbers that start higher. -/
def Expr.Standalone (source : String) (e : Expr) : Prop :=
  ∃ span, Token.SpliceAt (tokenize source).tokens span ∧
    ∃ e₀ ids, parseExpression (span.slice source) = .ok e₀ ∧
      e = relabel (Motion.renaming ⟨span.start, ids⟩) e₀

/-- In a source without lexical errors, what a splice makes without an error stands for itself. -/
theorem standalone_of_wholeExpr {source : String} (hlexical : (tokenize source).errors = [])
    {levels : Nat} (hlevels : levels ≤ Limits.standard.maxDepth) {t : Token} {tokens : List Token}
    {span : Span} (ht : Token.Occurs (tokenize source).tokens t) (hin : t.HasSplice tokens span)
    {setting : Setting} (hlimits : setting.limits = .standard) {s inner : State} {e : Expr}
    (h : wholeExpr (.within levels) (.symbol .rightBrace) (setting.inSplice span)
      (s.inSplice (setting.inSplice span) tokens) = .ok e inner)
    (hsilent : inner.errors = []) : e.Standalone source := by
  obtain ⟨rfl, hinner, hstop⟩ := (ht.reads hlexical hin).slice
  have hsetting : setting.inSplice span =
      ⟨.standard, .empty (span.start + Source.byteLength (span.slice source).toList)⟩ := by
    rw [← hlimits, ← hstop]
    rfl
  rw [hsetting] at h
  obtain ⟨after, hafter, herrors⟩ := wholeExpr_of_within hlevels h hsilent
  exact ⟨span, ⟨t, _, ht, hin⟩, (parseExpression_of_moved hinner hafter herrors).imp fun e₀ he =>
    ⟨s.nextId, he⟩⟩

/-- Every splice stands for itself where nothing is wrong with the source. -/
def Regime.standalone (source : String) (hlexical : (tokenize source).errors = []) : Regime where
  limits := .standard
  known := Token.Occurs (tokenize source).tokens
  silent := true
  good _ t := ∀ e ∈ t.splices, e.Standalone source
  known_splice ht hin u hu := .inside ht hin hu
  good_succ h := h
  good_nest h e he := by
    obtain ⟨t, ht, he⟩ := Shell.mem_splicesOf.1 he
    exact h t ht e he
  good_inner h t ht e he := h e (Shell.mem_splicesOf.2 ⟨t, ht, he⟩)
  good_splice hlevels ht hin hlimits hwhole hsilent hinner e he := by
    obtain rfl | he := List.mem_cons.1 he
    · exact standalone_of_wholeExpr hlexical hlevels ht hin hlimits hwhole (hsilent rfl)
    · obtain ⟨t, ht, he⟩ := Shell.mem_splicesOf.1 he
      exact hinner t ht e he

/-- In a source that is read without an error a splice means what its text means on its own.  This holds
of the splices in splices as well. -/
theorem parseSource_splices (source : String) (hsilent : (parseSource source .standard).errors = []) :
    ∀ e ∈ (parseSource source .standard).program.splices, e.Standalone source := by
  intro e he
  obtain ⟨hlexical, hparse⟩ := SyntaxError.of_merge_eq_nil (by decide) hsilent
  have hgood := Session.good_program (R := .standalone source hlexical) (fun t ht => .here ht)
    fun _ => hparse
  obtain ⟨t, ht, he⟩ := Shell.mem_splicesOf.1 he
  exact hgood t ht e he

/-- A string in a splice of another one: two splices, the second one inside the first. -/
theorem parseSource_splices_nested :
    let source := "const a: T = f\"\x7bf\"\x7bb + 1\x7d\"\x7d\";"
    let parsed := parseSource source .standard
    parsed.errors = [] ∧ parsed.program.splices.length = 2 ∧
      ∀ e ∈ parsed.program.splices, e.Standalone source := by
  intro source parsed
  have hsilent : parsed.errors = [] := List.isEmpty_iff.1 (by decide +kernel)
  exact ⟨hsilent, by decide +kernel, parseSource_splices source hsilent⟩

end ActorFrontend
