import ActorFrontend.Grammar.Source
import ActorFrontend.Proofs.Alike.Together
import ActorFrontend.Proofs.Bracketed.Statements
import ActorFrontend.Proofs.Invariance

/-!
# Arguments in brackets

An expression that is read on its own is read in the same way from the same tokens before a closing
parenthesis.
-/

namespace ActorFrontend

open ActorFrontend.Parser

/-- The tokens say what a text says on its own that is read as the expression, but for places and
numbers. -/
def Expr.WrittenAs (e : Expr) (lexemes : List Lexeme) : Prop :=
  ∃ text e', parseExpression text = .ok e' ∧ relabel .bare e' = relabel .bare e ∧
    Lexeme.AlikeUpTo ⟨false, false, true⟩ .none (Lexeme.significant false (tokenize text).tokens) lexemes

theorem parseExpression_eq (text : String) :
    parseExpression text =
      match (Session.ofTokens (tokenize text).tokens .standard).run
        (wholeExpr (Session.ofTokens (tokenize text).tokens .standard).rules .endOfInput) with
      | (.ok e, session) =>
          match SyntaxError.merge (tokenize text).errors session.errors Limits.standard.maxErrors with
          | [] => .ok e
          | errors => .error errors
      | (.error e, session) =>
          .error (SyntaxError.merge (tokenize text).errors (session.errors ++ [e])
            Limits.standard.maxErrors) := rfl

/-- The expression is read from all of the tokens, with no error. -/
def Expr.ReadFrom (setting : Setting) (lexemes : List Lexeme) (e : Expr) : Prop :=
  ∃ after, expr (.within Limits.standard.maxDepth) setting (.initial setting lexemes) = .ok e after ∧
    after.rest = [] ∧ after.errors = []

/-- A text is read as an expression exactly if its tokens are, and if nothing is wrong with them. -/
theorem parseExpression_eq_ok_iff {text : String} {e : Expr} :
    parseExpression text = .ok e ↔ (tokenize text).errors = [] ∧
      e.ReadFrom ⟨.standard, Session.endOf (tokenize text).tokens⟩
        (Lexeme.significant false (tokenize text).tokens) := by
  let session := Session.ofTokens (tokenize text).tokens .standard
  constructor
  · intro h
    rw [parseExpression_eq, Session.run] at h
    cases hwhole : wholeExpr session.rules .endOfInput session.setting session.state with
    | fail error after =>
      rw [hwhole] at h
      cases h
    | ok e' after =>
      rw [hwhole] at h
      simp only at h
      split at h
      case h_2 => cases h
      case h_1 hmerge =>
        obtain rfl := Except.ok.inj h
        obtain ⟨hlexical, hsilent⟩ := SyntaxError.of_merge_eq_nil (by decide) hmerge
        obtain ⟨e₀, s₀, hexpr, hend⟩ := bind_eq_ok_iff.1 hwhole
        rw [atEnd, query_bind] at hend
        split at hend
        case isFalse => cases hend
        case isTrue hatEnd =>
          obtain ⟨rfl, rfl⟩ := Reply.ok.inj hend
          exact ⟨hlexical, s₀, hexpr, List.isEmpty_iff.1 hatEnd, hsilent⟩
  · rintro ⟨hlexical, after, hexpr, hend, hsilent⟩
    have hatEnd : after.atEnd = true := List.isEmpty_iff.2 hend
    have hwhole : wholeExpr session.rules .endOfInput session.setting session.state = .ok e after := by
      refine bind_eq_ok_iff.2 ⟨e, after, hexpr, ?_⟩
      rw [atEnd, query_bind, if_pos hatEnd]
      rfl
    have hmerge (limit : Nat) : SyntaxError.merge [] [] limit = [] := by simp [SyntaxError.merge]
    rw [parseExpression_eq, Session.run, hwhole]
    simp only [Session.errors, hlexical, hsilent, hmerge]

/-- An expression is read from its tokens up to a closing parenthesis behind which nothing goes on that
ends in another one. -/
theorem Expr.WrittenAs.reads {e : Expr} {lexemes more : List Lexeme} {paren : Lexeme} {levels : Nat}
    {setting : Setting} {s : State} (h : e.WrittenAs lexemes) (hs : s.rest = lexemes ++ paren :: more)
    (hparen : paren.token.kind = .symbol .rightParen)
    (hmore : EndsGroup (more.map fun lexeme => lexeme.token.kind))
    (hlevels : Limits.standard.maxDepth ≤ levels)
    (hdepth : Limits.standard.maxDepth + s.depth ≤ setting.limits.maxDepth)
    (hcontext : s.context = .anything) (herrors : s.errors = []) (hrunning : s.halted = false) :
    ∃ e' t, expr (.within levels) setting s = .ok e' t ∧ relabel .bare e' = relabel .bare e ∧
      t.rest = paren :: more ∧ t.errors = [] := by
  obtain ⟨text, e₀, hparse, hlike, hlexemes⟩ := h
  let L : Likeness := ⟨false, false, true⟩
  let session := Session.ofTokens (tokenize text).tokens .standard
  let inner : Setting := { setting with endOfInput := paren.token.span }
  let before : State := { s with rest := lexemes }
  obtain ⟨-, after, hexpr, hend, hsilent⟩ := parseExpression_eq_ok_iff.1 hparse
  -- up to the parenthesis the reading goes like the one of the text
  have hrules : Rules.Alike L (.within Limits.standard.maxDepth) (.within levels) :=
    Rules.alike_within_of_le rfl hlevels
  have halike := hrules.expr 0
  have htogether : session.state.Together L .none session.setting inner [] .unread none before :=
    ⟨.before hlexemes (Hand.holds_none _ _), hcontext.symm, hdepth, nofun, rfl, rfl, rfl, herrors,
      hrunning⟩
  have hruns := halike.together (.of_unplaced rfl) htogether
  have hkept := halike.keepAlike.left session.setting session.state
  have hreply : (Rules.within Limits.standard.maxDepth).expr 0 session.setting session.state =
      .ok e₀ after := hexpr
  rw [hreply] at hruns hkept
  have hquiet : ¬ after.Noted := by
    rintro (hnoted | hnoted)
    · exact hnoted hsilent
    · exact absurd ((hkept.unspent hsilent).symm.trans hnoted) Bool.false_ne_true
  obtain ⟨e', t, hbefore, ht, hsame⟩ := hruns.of_done hend hquiet
  have htrest : t.rest = [] := by
    cases ht.meet with
    | behind hcut => exact absurd rfl hcut
    | before halike =>
      rw [hend] at halike
      generalize t.rest = left at halike
      cases halike
      rfl
  -- and it stops there where the parenthesis follows
  let parting : Parting :=
    { setting := inner
      setting' := setting
      place := paren.token.span
      left := []
      right := paren :: more
      limits := rfl
      left_closing := .nothing rfl
      right_closing := .paren hparen rfl hmore }
  have hstart : parting.Before before s :=
    ⟨⟨lexemes, (List.append_nil _).symm, hs⟩, rfl, herrors, hrunning⟩
  obtain ⟨t', hreply', ht'⟩ := ((Rules.carry_within levels).expr 0 before.kind).carries parting before s
    e' t rfl hstart hbefore ht.errors_right (Nat.zero_le _)
  obtain ⟨ts, hleft, hright⟩ := ht'.rest
  have hts : ts = [] := List.append_eq_nil_iff.1 (hleft.symm.trans htrest) |>.1
  refine ⟨e', t', hreply', hsame.symm.trans hlike, ?_, ht'.swap.errors⟩
  rw [hright, hts]
  rfl

end ActorFrontend
