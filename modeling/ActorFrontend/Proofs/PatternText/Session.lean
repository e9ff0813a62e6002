import ActorFrontend.Grammar.Session
import ActorFrontend.Proofs.Course.Statements
import ActorFrontend.Proofs.PatternText.Reading

/-!
# Printed patterns are read back

A session reads the tokens that a pattern is printed as, all of them, as that pattern.  Parentheses
that are not needed, around a part of it or around some of its alternatives, make no difference.
-/

namespace ActorFrontend

open ActorFrontend.Parser

variable {setting : Setting} {depth n levels : Nat} {p : Pattern} {ks : List TokenKind}

theorem Pattern.SpelledAlone.starts {inner : Pattern → List TokenKind → Prop}
    (h : p.SpelledAlone inner ks) : ∃ k ks', ks = k :: ks' ∧ k.startsPattern = true := by
  cases h with
  | paren _ => exact ⟨_, _, rfl, rfl⟩
  | plain hkind =>
    have hpath {path : List String} (hpath : startsNamed path = true) (more : List TokenKind) :
        ∃ k ks', pathTokens path ++ more = k :: ks' ∧ k.startsPattern = true := by
      obtain ⟨first, rest, rfl, -⟩ := startsNamed_cons hpath
      exact ⟨_, _, rfl, rfl⟩
    cases hkind with
    | @path path hnamed _ => exact List.append_nil (pathTokens path) ▸ hpath hnamed []
    | @literal literal => exact ⟨_, _, rfl, literal.value.startsPattern_token⟩
    | struct hnamed _ => exact hpath hnamed _
    | constructor hnamed _ => exact hpath hnamed _
    | _ => exact ⟨_, _, rfl, rfl⟩

/-- A spelling starts like a pattern. -/
theorem Pattern.Spelled.starts (h : p.Spelled n ks) :
    ∃ k ks', ks = k :: ks' ∧ k.startsPattern = true := by
  cases n with
  | zero => exact h.elim
  | succ n =>
    have h : SpelledOver (Spelled n) p ks := h
    cases h with
    | alone hp => exact hp.starts
    | or hps _ =>
      obtain ⟨q, hq, -⟩ := ReadsPatterns.exists_spelledAlone hps
      obtain ⟨k, ks', rfl, hk⟩ := hq.starts
      exact ⟨k, _, rfl, hk⟩

/-- Where enough levels are left, patterns are read from their spellings. -/
theorem Rules.reads_pattern_within (hn : n ≤ levels)
    (hdepth : depth + levels ≤ setting.limits.maxDepth) :
    (Rules.within levels).pattern.ReadsUpTo EndsPattern setting depth (Pattern.Spelled n) := by
  induction n generalizing levels depth with
  | zero => exact fun p ks s rest h => h.elim
  | succ n ih =>
    intro p ks s rest hp hs hsdepth hrest
    subst hsdepth
    cases levels with
    | zero => omega
    | succ levels =>
      have hinner : ReadsPatterns (.within levels) setting (s.depth + 1) (Pattern.Spelled n) :=
        ⟨ih (by omega) (by omega), fun p ks h => h.starts⟩
      -- the reading uses up one of the levels itself
      apply gives_nested (by omega)
      intro s' hkinds hdepth'
      exact hinner.patternRule p ks s' rest hp (hkinds.trans hs) hdepth' hrest

/-- The session reads the pattern, but for places and numbers, and all its tokens are used up then. -/
def Session.ReadsPatternBack (session : Session) (p : Pattern) : Prop :=
  ∃ q after, session.run session.rules.pattern = (.ok q, after) ∧
    relabel .bare q = relabel .bare p ∧ after.atEnd = true ∧ after.errors = []

/-- A session reads the tokens that a pattern is printed as back, if the limits allow as many levels as
it has.  From the tokens of any other spelling that the limits allow, with parentheses around parts of
it and around groups of its alternatives, it reads the same pattern. -/
theorem Session.pattern_reads_back (tokens : List Token) (limits : Limits) (p : Pattern) :
    let session := Session.ofTokens tokens limits
    (p.isPrintable = true → p.levels ≤ limits.maxDepth →
      session.state.kinds = p.tokens → session.ReadsPatternBack p) ∧
    (∀ n ≤ limits.maxDepth, p.Spelled n session.state.kinds → session.ReadsPatternBack p) := by
  intro session
  have hspelled (n : Nat) (hn : n ≤ limits.maxDepth) (h : p.Spelled n session.state.kinds) :
      session.ReadsPatternBack p := by
    have hread : session.rules.pattern.ReadsUpTo EndsPattern session.setting 0 (Pattern.Spelled n) :=
      Rules.reads_pattern_within hn (Nat.le_of_eq (Nat.zero_add _))
    obtain ⟨q, after, hrun, hq, hkinds, -⟩ :=
      (hread p _ session.state [] h (List.append_nil _).symm rfl .nil).exists_eq
    have hrest : after.rest = [] := List.map_eq_nil_iff.1 hkinds
    refine ⟨q, { session with state := after }, ?_, hq, ?_, ?_⟩
    · rw [Session.run, hrun]
    · rw [Session.atEnd, State.atEnd, hrest]
      rfl
    · -- no error is recorded in a pattern
      have hcourse : (session.rules.pattern session.setting session.state).Follows false
          session.setting session.state 0 (fun _ => true) 0 :=
        (Rules.follow_within limits.maxDepth).pattern session.setting session.state 0
      rw [hrun] at hcourse
      exact hcourse.course.errors_eq.1
  constructor
  · intro hp hlevels htokens
    have hprinted : p.Spelled p.levels p.tokens := Pattern.spelled_tokens hp (Nat.le_refl _)
    rw [← htokens] at hprinted
    exact hspelled p.levels hlevels hprinted
  · exact hspelled

/-- The printed `Shape::Dot(-1, _) | Frame { w, h: (a | b,) } | x`, and `(1 | (2 | 3)) | (4)`, which is
read as four alternatives. -/
theorem Session.pattern_reads_back_alternatives :
    let pattern (kind : PatternKind) : Pattern := ⟨0, .empty 0, kind⟩
    let number (value : UInt64) : Pattern := pattern (.literal ⟨0, .empty 0, .int value⟩)
    let session (ks : List TokenKind) := Session.ofTokens (ks.map fun k => ⟨k, "", .empty 0⟩) .standard
    (session [.ident "Shape", .symbol .colonColon, .ident "Dot", .symbol .leftParen, .symbol .minus,
      .int 1, .symbol .comma, .ident "_", .symbol .rightParen, .symbol .pipe, .ident "Frame",
      .symbol .leftBrace, .ident "w", .symbol .comma, .ident "h", .symbol .colon, .symbol .leftParen,
      .ident "a", .symbol .pipe, .ident "b", .symbol .comma, .symbol .rightParen, .symbol .rightBrace,
      .symbol .pipe, .ident "x"]).ReadsPatternBack
        (pattern (.or [
          pattern (.constructor ["Shape", "Dot"]
            [pattern (.negated 0 (.empty 0) ⟨0, .empty 0, .int 1⟩), pattern .wildcard]),
          pattern (.struct ["Frame"] [⟨"w", none, .empty 0⟩,
            ⟨"h", some (pattern (.tuple [pattern (.or [pattern (.ident "a"), pattern (.ident "b")])])),
              .empty 0⟩]),
          pattern (.ident "x")])) ∧
    (session [.symbol .leftParen, .int 1, .symbol .pipe, .symbol .leftParen, .int 2, .symbol .pipe,
      .int 3, .symbol .rightParen, .symbol .rightParen, .symbol .pipe, .symbol .leftParen, .int 4,
      .symbol .rightParen]).ReadsPatternBack
        (pattern (.or [number 1, number 2, number 3, number 4])) := by
  intro pattern number session
  constructor
  · exact (Session.pattern_reads_back _ .standard _).1 (by decide) (by decide) rfl
  · have hnumber (inner : Pattern → List TokenKind → Prop) (value : UInt64) :
        (number value).SpelledAlone inner [.int value] := .plain .literal
    have hpair : (pattern (.or [number 2, number 3])).Spelled 1
        [.int 2, .symbol .pipe, .int 3] :=
      .or (.one (hnumber _ 2) rfl) (.last (.one (hnumber _ 3) rfl))
    have hgroup : (pattern (.or [number 1, number 2, number 3])).Spelled 2
        [.int 1, .symbol .pipe, .symbol .leftParen, .int 2, .symbol .pipe, .int 3,
          .symbol .rightParen] :=
      .or (.one (hnumber _ 1) rfl) (.last (.group hpair))
    have hlast : (number 4).SpelledAlone (Pattern.Spelled 2)
        [.symbol .leftParen, .int 4, .symbol .rightParen] :=
      .paren (show (number 4).Spelled 2 [.int 4] from .alone (hnumber _ 4))
    exact (Session.pattern_reads_back _ .standard _).2 3 (by decide)
      (.or (.group hgroup) (.last (.one hlast rfl)))

end ActorFrontend
