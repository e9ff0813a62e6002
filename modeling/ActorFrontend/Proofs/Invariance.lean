import ActorFrontend.Grammar.Source
import ActorFrontend.Proofs.Alike.Identity
import ActorFrontend.Proofs.Alike.Items
import ActorFrontend.Proofs.Alike.Together

/-!
# What a program does not depend on

A program that is read without an error does not depend on the layout of its tokens, nor on the limits
of the reading: with other spaces, line breaks and comments, or under looser limits, it is the same
program, and no error turns up.
-/

namespace ActorFrontend

open ActorFrontend.Parser

variable {L : Likeness} {tokens tokens' : List Token} {limits limits' : Limits}

namespace Session

theorem program_eq_of_ok {session : Session} {program : Program} {state : State}
    (h : Parser.program session.rules session.setting session.state = .ok program state) :
    session.program = (program, { session with state }) := by
  rw [Session.program, Session.run, h]

theorem trivia_program (session : Session) : session.program.2.trivia = session.trivia := by
  unfold Session.program Session.run
  cases Parser.program session.rules session.setting session.state <;> rfl

/-- Where the first of two programs that are alike is read without an error, the second one is read
like it. -/
theorem program_alike (hrules : Rules.Alike L (.within limits.maxDepth) (.within limits'.maxDepth))
    (hdepth : limits.maxDepth ≤ limits'.maxDepth)
    (hend : L.SameSpan (endOf tokens) (endOf tokens'))
    (htokens : Lexeme.AlikeUpTo L .none (Lexeme.significant false tokens)
      (Lexeme.significant false tokens'))
    (hsilent : (ofTokens tokens limits).program.2.errors = []) :
    (ofTokens tokens' limits').program.2.errors = [] ∧
      Like L (ofTokens tokens limits).program.1 (ofTokens tokens' limits').program.1 := by
  have hsetting : (ofTokens tokens limits).setting.Comparable L .none
      (ofTokens tokens' limits').setting := ⟨hend, nofun⟩
  have hinitial : (ofTokens tokens limits).state.Together L .none (ofTokens tokens limits).setting
      (ofTokens tokens' limits').setting [] .unread none (ofTokens tokens' limits').state :=
    State.together_initial hsetting htokens hdepth rfl
  have halike := alike_program hrules
  have hruns := halike.together hsetting hinitial
  have hends := ends_program (Rules.follow_within limits.maxDepth) (ofTokens tokens limits).setting
    (ofTokens tokens limits).state
  have hkept := halike.keepAlike.left (ofTokens tokens limits).setting
    (ofTokens tokens limits).state
  cases hreply : Parser.program (.within limits.maxDepth) (ofTokens tokens limits).setting
      (ofTokens tokens limits).state with
  | fail e state =>
    rw [hreply] at hends
    exact hends.elim
  | ok program state =>
    rw [hreply] at hruns hends hkept
    have hprogram : (ofTokens tokens limits).program =
        (program, { ofTokens tokens limits with state }) := program_eq_of_ok hreply
    rw [hprogram] at hsilent ⊢
    have herrors : state.errors = [] := hsilent
    have hquiet : ¬ state.Noted := by
      rintro (h | h)
      · exact h herrors
      · exact absurd ((hkept.unspent herrors).symm.trans h) Bool.false_ne_true
    obtain ⟨program', state', hreply', h, hlike⟩ := hruns.of_done hends hquiet
    have hprogram' : (ofTokens tokens' limits').program =
        (program', { ofTokens tokens' limits' with state := state' }) := program_eq_of_ok hreply'
    rw [hprogram']
    exact ⟨h.errors_right, hlike⟩

end Session

/-! ## Layout -/

/-- The significant tokens are the same one by one, those in the splices of strings included, and so
are the names that start exactly where an integer before them ends.  What stands between the tokens
may differ, and with it their places and the texts of strings with splices. -/
def Relaid (tokens tokens' : List Token) : Prop :=
  Lexeme.AlikeUpTo ⟨false, true, false⟩ .none (Lexeme.significant false tokens)
    (Lexeme.significant false tokens')

/-- Layout does not change a valid program. -/
theorem Session.program_eq_of_relaid (limits : Limits) (tokens tokens' : List Token)
    (h : Relaid tokens tokens')
    (hsilent : (Session.ofTokens tokens limits).program.2.errors = []) :
    (Session.ofTokens tokens' limits).program.2.errors = [] ∧
      relabel .withoutSpans (Session.ofTokens tokens limits).program.1 =
        relabel .withoutSpans (Session.ofTokens tokens' limits).program.1 := by
  have hend : Likeness.SameSpan ⟨false, true, false⟩ (endOf tokens) (endOf tokens') := rfl
  exact program_alike (Rules.alike_within limits.maxDepth) (Nat.le_refl _) hend h hsilent

/-- Two layouts of `const t: T = 5s;`, in one line and in two.  In both of them the unit stands
directly behind its number. -/
theorem Session.program_eq_of_relaid_duration :
    let tokens : List Token :=
      [⟨.keyword .constKw, "const", ⟨0, 5⟩⟩, ⟨.whitespace, " ", ⟨5, 6⟩⟩, ⟨.ident "t", "t", ⟨6, 7⟩⟩,
        ⟨.symbol .colon, ":", ⟨7, 8⟩⟩, ⟨.ident "T", "T", ⟨8, 9⟩⟩, ⟨.symbol .eq, "=", ⟨9, 10⟩⟩,
        ⟨.int 5, "5", ⟨10, 11⟩⟩, ⟨.ident "s", "s", ⟨11, 12⟩⟩, ⟨.symbol .semicolon, ";", ⟨12, 13⟩⟩]
    let tokens' : List Token :=
      [⟨.keyword .constKw, "const", ⟨0, 5⟩⟩, ⟨.whitespace, "\n", ⟨5, 6⟩⟩, ⟨.ident "t", "t", ⟨6, 7⟩⟩,
        ⟨.symbol .colon, ":", ⟨7, 8⟩⟩, ⟨.ident "T", "T", ⟨8, 9⟩⟩, ⟨.symbol .eq, "=", ⟨9, 10⟩⟩,
        ⟨.blockComment, "/**/", ⟨10, 14⟩⟩, ⟨.int 5, "5", ⟨14, 15⟩⟩, ⟨.ident "s", "s", ⟨15, 16⟩⟩,
        ⟨.symbol .semicolon, ";", ⟨16, 17⟩⟩]
    Relaid tokens tokens' ∧ (Session.ofTokens tokens ⟨20, 3⟩).program.2.errors = [] ∧
      (Session.ofTokens tokens' ⟨20, 3⟩).program.2.errors = [] ∧
      relabel .withoutSpans (Session.ofTokens tokens ⟨20, 3⟩).program.1 =
        relabel .withoutSpans (Session.ofTokens tokens' ⟨20, 3⟩).program.1 := by
  intro tokens tokens'
  have hnext {lexeme lexeme' : Lexeme} {rest rest' : List Lexeme}
      (hkind : lexeme.token.kind = lexeme'.token.kind) (htext : lexeme.token.text = lexeme'.token.text)
      (hmet : lexeme.isMet rest = lexeme'.isMet rest')
      (h : Lexeme.AlikeUpTo ⟨false, true, false⟩ .none rest rest') :
      Lexeme.AlikeUpTo ⟨false, true, false⟩ .none (lexeme :: rest) (lexeme' :: rest') :=
    .cons (hkind ▸ .same _) (fun _ => htext) nofun (fun _ _ => hmet) h
  have hrelaid : Relaid tokens tokens' :=
    hnext rfl rfl rfl <| hnext rfl rfl rfl <| hnext rfl rfl rfl <| hnext rfl rfl rfl <|
      hnext rfl rfl rfl <| hnext rfl rfl rfl <| hnext rfl rfl rfl <| hnext rfl rfl rfl .nil
  have hsilent : (Session.ofTokens tokens ⟨20, 3⟩).program.2.errors = [] :=
    List.isEmpty_iff.1 (by decide +kernel)
  exact ⟨hrelaid, hsilent, Session.program_eq_of_relaid _ _ _ hrelaid hsilent⟩

/-! ## Limits -/

theorem Likeness.relabeling_eq_identity (hspans : L.spans = true) (hids : L.ids = true) :
    L.relabeling = .identity := by
  simp [relabeling, hspans, hids, Renaming.identity]

/-- A program that is read without an error is the same under looser limits. -/
theorem Session.program_eq_of_looser (tokens : List Token)
    (hdepth : limits.maxDepth ≤ limits'.maxDepth)
    (hsilent : (Session.ofTokens tokens limits).program.2.errors = []) :
    (Session.ofTokens tokens limits').program.2.errors = [] ∧
      (Session.ofTokens tokens limits').program.1 = (Session.ofTokens tokens limits).program.1 := by
  have hrules : Rules.Alike (⟨true, true, true⟩ : Likeness) (.within limits.maxDepth)
      (.within limits'.maxDepth) :=
    Rules.alike_within_of_le rfl hdepth
  obtain ⟨hsilent', hlike⟩ := program_alike hrules hdepth rfl (.refl _) hsilent
  refine ⟨hsilent', ?_⟩
  rw [Like, Likeness.relabeling_eq_identity rfl rfl, relabel_identity, relabel_identity] at hlike
  exact hlike.symm

/-- Where nothing is reported, though something might be, there is no error. -/
theorem SyntaxError.of_merge_eq_nil {lexical : List LexicalError} {parse : List ParseError}
    {limit : Nat} (hpos : 1 ≤ limit) (h : merge lexical parse limit = []) :
    lexical = [] ∧ parse = [] := by
  have hlength := congrArg List.length h
  rw [merge, List.length_take, List.length_mergeSort] at hlength
  simp only [List.length_append, List.length_map, List.length_nil] at hlength
  exact ⟨List.length_eq_zero_iff.1 (by omega), List.length_eq_zero_iff.1 (by omega)⟩

/-- Limits matter only when they are hit.  A source that is read without an error is read in the same
way under limits that are as loose or looser. -/
theorem parseSource_eq_of_looser (source : String) (limits limits' : Limits)
    (hpos : 1 ≤ limits.maxErrors) (hdepth : limits.maxDepth ≤ limits'.maxDepth)
    (hsilent : (parseSource source limits).errors = []) :
    parseSource source limits' = parseSource source limits := by
  obtain ⟨hlexical, hparse⟩ := SyntaxError.of_merge_eq_nil hpos hsilent
  obtain ⟨hsilent', hprogram⟩ := Session.program_eq_of_looser (tokenize source).tokens hdepth hparse
  have herrors : (parseSource source limits').errors = (parseSource source limits).errors := by
    rw [hsilent]
    change SyntaxError.merge (tokenize source).errors
      (Session.ofTokens (tokenize source).tokens limits').program.2.errors limits'.maxErrors = []
    rw [hlexical, hsilent']
    simp [SyntaxError.merge]
  have htrivia : (parseSource source limits').trivia = (parseSource source limits).trivia := by
    change (Session.program _).2.trivia = (Session.program _).2.trivia
    rw [Session.trivia_program, Session.trivia_program]
    rfl
  have hsame : (parseSource source limits').program = (parseSource source limits).program := hprogram
  generalize parseSource source limits' = parsed' at *
  generalize parseSource source limits = parsed at *
  cases parsed'
  cases parsed
  simp_all

/-- A lambda in brackets needs four levels; with as many as that it is read as with the standard
limits. -/
theorem parseSource_eq_of_looser_lambda :
    let source := "const f: T = ((x) => x);"
    (parseSource source ⟨1, 4⟩).errors = [] ∧
      parseSource source .standard = parseSource source ⟨1, 4⟩ :=
  have hsilent : (parseSource "const f: T = ((x) => x);" ⟨1, 4⟩).errors = [] :=
    List.isEmpty_iff.1 (by decide +kernel)
  ⟨hsilent, parseSource_eq_of_looser _ ⟨1, 4⟩ .standard (by decide) (by decide) hsilent⟩

end ActorFrontend
