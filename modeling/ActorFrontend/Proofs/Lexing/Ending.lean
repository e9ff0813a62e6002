import ActorFrontend.Proofs.Lexing.Boundary
import ActorFrontend.Proofs.Motion.Splices

/-!
# The end of a token sequence

A session may start from tokens with or without the one for the end.  Where the sequence does not have
it, it is put behind the last token, and so a source is read in the same way whether its tokens were
pulled one by one or read all at once.  Only without a single token nothing tells where the end is.
-/

namespace ActorFrontend

/-! ## Tokens pulled one by one -/

namespace Lexer

/-- Every token takes a character at least. -/
theorem length_rest_of_next? {l l' : Lexer} {t : Token} (h : l.next? = some (t, l')) :
    l'.rest.length < l.rest.length := by
  obtain ⟨rest, offset, errors⟩ := l
  cases rest with
  | nil => cases h
  | cons c cs =>
    rw [next?_cons] at h
    obtain ⟨-, rfl⟩ := Prod.mk.inj (Option.some.inj h)
    exact Nat.lt_succ_of_le (Match.length_rest_longest c cs)

/-- The tokens that a lexer gives one by one, until it has no more. -/
def pullAll (l : Lexer) : List Token :=
  match _h : l.next? with
  | none => []
  | some (t, l') => t :: pullAll l'
termination_by l.rest.length
decreasing_by exact length_rest_of_next? _h

/-- These are all tokens that are left. -/
theorem pullAll_eq (l : Lexer) : l.pullAll = (Token.readAll l.offset l.rest).tokens := by
  fun_induction pullAll l with
  | case1 l h =>
    obtain ⟨rest, offset, errors⟩ := l
    cases rest with
    | nil => rfl
    | cons c cs =>
      rw [next?_cons] at h
      cases h
  | case2 l t l' h ih =>
    obtain ⟨rest, offset, errors⟩ := l
    cases rest with
    | nil => cases h
    | cons c cs =>
      rw [next?_cons] at h
      obtain ⟨rfl, rfl⟩ := Prod.mk.inj (Option.some.inj h)
      rw [ih, Token.readAll_cons]
      rfl

end Lexer

/-! ## The token for the end -/

namespace Lexeme

/-- The significant tokens with the one for the end, which is supplied where it is missing.  `ended`
tells whether the last significant token was the one for the end, and `stop` where the last token
ended. -/
def withEnd (lineBreak ended : Bool) (stop : Nat) : List Token → List Lexeme
  | [] => if ended then [] else [⟨Token.endAt stop, lineBreak⟩]
  | t :: ts =>
      if t.isTrivia then withEnd (lineBreak || t.hasLineBreak) ended t.span.stop ts
      else ⟨t, lineBreak⟩ :: withEnd false t.kind.isEndOfFile t.span.stop ts

/-- Whether a line break stands behind the last significant token. -/
def breakBehind (lineBreak : Bool) : List Token → Bool
  | [] => lineBreak
  | t :: ts =>
      if t.isTrivia then breakBehind (lineBreak || t.hasLineBreak) ts else breakBehind false ts

/-- Where a token sequence stops, if what stands before it stops at `stop`. -/
def stopOf (stop : Nat) (ts : List Token) : Nat := ts.getLast?.elim stop (·.span.stop)

theorem stopOf_cons (stop : Nat) (t : Token) (ts : List Token) :
    stopOf stop (t :: ts) = stopOf t.span.stop ts := by
  rw [stopOf, stopOf, List.getLast?_cons]
  cases ts.getLast? <;> rfl

variable {ts : List Token} (hts : ∀ t ∈ ts, t.kind.isEndOfFile = false)

include hts

/-- The tokens in front of some others give their significant ones.  What the others give depends on
the line breaks behind the last of these, and on where the last token of all stops. -/
theorem withEnd_append (lineBreak : Bool) (stop : Nat) (more : List Token) :
    withEnd lineBreak false stop (ts ++ more) =
      significant lineBreak ts ++
        withEnd (breakBehind lineBreak ts) false (stopOf stop ts) more := by
  induction ts generalizing lineBreak stop with
  | nil => rfl
  | cons t ts ih =>
    obtain ⟨ht, hts⟩ := List.forall_mem_cons.1 hts
    rw [List.cons_append, withEnd, significant, breakBehind, stopOf_cons]
    by_cases htrivia : t.isTrivia
    · rw [if_pos htrivia, if_pos htrivia, if_pos htrivia, ih hts]
    · rw [if_neg htrivia, if_neg htrivia, if_neg htrivia, ht, if_neg Bool.false_ne_true, ih hts,
        List.cons_append]

/-- Without a token for the end, one is put behind the last token. -/
theorem withEnd_of_open (lineBreak : Bool) (stop : Nat) :
    withEnd lineBreak false stop ts =
      significant lineBreak ts ++ [⟨Token.endAt (stopOf stop ts), breakBehind lineBreak ts⟩] := by
  have happend := withEnd_append hts lineBreak stop []
  rw [List.append_nil] at happend
  exact happend

/-- With one at the end, nothing is added. -/
theorem withEnd_append_endAt (lineBreak : Bool) (stop offset : Nat) :
    withEnd lineBreak false stop (ts ++ [Token.endAt offset]) =
      significant lineBreak ts ++ [⟨Token.endAt offset, breakBehind lineBreak ts⟩] :=
  withEnd_append hts lineBreak stop [Token.endAt offset]

end Lexeme

/-! ## Sessions -/

namespace Session

/-- A session at the first of some significant tokens, the last of which is the one for the end. -/
def ofLexemes (lexemes : List Lexeme) (trivia : List Token) (limits : Limits) : Session :=
  let setting : Setting := ⟨limits, lexemes.getLast?.elim (.empty 0) (·.token.span)⟩
  { setting, state := .initial setting lexemes.dropLast, trivia }

variable {ts : List Token} (hts : ∀ t ∈ ts, t.kind.isEndOfFile = false)

include hts

theorem find?_isEndOfFile_eq_none : ts.find? (·.kind.isEndOfFile) = none :=
  List.find?_eq_none.2 fun t ht h => absurd ((hts t ht).symm.trans h) Bool.false_ne_true

theorem ofTokens_of_open (limits : Limits) :
    ofTokens ts limits =
      ofLexemes (Lexeme.withEnd false false 0 ts) (ts.filter Token.isTrivia) limits := by
  have hend : endOf ts = .empty (Lexeme.stopOf 0 ts) := by
    rw [endOf, find?_isEndOfFile_eq_none hts, Lexeme.stopOf]
    cases ts.getLast? <;> rfl
  rw [Lexeme.withEnd_of_open hts, ofLexemes, List.getLast?_concat, List.dropLast_concat, ofTokens, hend]
  rfl

theorem ofTokens_append_endAt (offset : Nat) (limits : Limits) :
    ofTokens (ts ++ [Token.endAt offset]) limits =
      ofLexemes (Lexeme.withEnd false false 0 (ts ++ [Token.endAt offset]))
        ((ts ++ [Token.endAt offset]).filter Token.isTrivia) limits := by
  have hend : endOf (ts ++ [Token.endAt offset]) = .empty offset := by
    rw [endOf, List.find?_append, find?_isEndOfFile_eq_none hts]
    rfl
  rw [Lexeme.withEnd_append_endAt hts, ofLexemes, List.getLast?_concat, List.dropLast_concat, ofTokens,
    hend, Lexeme.significant_endAt]
  rfl

end Session

/-! ## What can be done with a session -/

namespace Session

/-- One use of a session. -/
inductive Step where
  | expr (minPower : Nat)
  | program
  | errors
  | takeErrors
  | takeTrivia
  | atEnd

/-- What a use of a session answers with. -/
inductive Answer where
  | expr (answer : Except ParseError Expr)
  | program (program : Program)
  | errors (errors : List ParseError)
  | trivia (tokens : List Token)
  | flag (atEnd : Bool)

def step (session : Session) : Step → Answer × Session
  | .expr minPower => (session.expr minPower).map .expr id
  | .program => session.program.map .program id
  | .errors => (.errors session.errors, session)
  | .takeErrors => session.takeErrors.map .errors id
  | .takeTrivia => session.takeTrivia.map .trivia id
  | .atEnd => (.flag session.atEnd, session)

/-- What uses of a session, one after the other, answer with. -/
def answers (session : Session) : List Step → List Answer
  | [] => []
  | step :: steps => (session.step step).1 :: (session.step step).2.answers steps

/-! ## Nothing to read -/

/-- What a session without tokens answers with, whose input ends at `place`. -/
def Step.onNothing (limits : Limits) (place : Nat) : Step → Answer
  | .expr _ =>
      .expr (.error ⟨if limits.maxDepth = 0 then .tooDeep 0 else .expected .expression .endOfFile,
        .empty place⟩)
  | .program => .program ⟨[], ⟨0, place⟩⟩
  | .errors => .errors []
  | .takeErrors => .errors []
  | .takeTrivia => .trivia []
  | .atEnd => .flag true

/-- A session without tokens stays as it is. -/
theorem step_ofLexemes_nil (limits : Limits) (place : Nat) (lineBreak : Bool) (step : Step) :
    (ofLexemes [⟨Token.endAt place, lineBreak⟩] [] limits).step step =
      (step.onNothing limits place, ofLexemes [⟨Token.endAt place, lineBreak⟩] [] limits) := by
  obtain ⟨maxErrors, maxDepth⟩ := limits
  cases step with
  | expr minPower => cases maxDepth <;> rfl
  | program => rfl
  | errors => rfl
  | takeErrors => rfl
  | takeTrivia => rfl
  | atEnd => rfl

theorem answers_ofLexemes_nil (limits : Limits) (place : Nat) (lineBreak : Bool)
    (steps : List Step) :
    (ofLexemes [⟨Token.endAt place, lineBreak⟩] [] limits).answers steps =
      steps.map (·.onNothing limits place) := by
  induction steps with
  | nil => rfl
  | cons step steps ih => rw [answers, step_ofLexemes_nil, ih, List.map_cons]

end Session

/-! ## Two ways to a session -/

/-- The last token of a text stops where the text does. -/
theorem Token.stopOf_readAll (base : Nat) {cs : List Char} (h : cs ≠ [] ∨ base = 0) :
    Lexeme.stopOf 0 (readAll base cs).tokens = base + Source.byteLength cs := by
  have hspells := spells_readAll cs base (List.Subset.refl _)
  have hchain := hspells.isChain_span.1
  have htext := hspells.flatMap_text
  generalize (readAll base cs).tokens = ts at hchain htext
  obtain rfl | ⟨front, t, rfl⟩ := List.eq_nil_or_concat' ts
  · -- without tokens there is no text
    obtain rfl : [] = cs := htext
    obtain h | rfl := h
    · exact absurd rfl h
    · rfl
  · rw [List.append_assoc, List.singleton_append, List.isChain_append_cons_cons] at hchain
    rw [Lexeme.stopOf, List.getLast?_concat]
    exact hchain.2.1

/-- A session starts from the significant tokens with the one for the end, which it supplies itself
to tokens pulled one by one from a lexer.  It is the session of the tokens that the lexer ends with
that token, and whatever is done with the two they answer alike.  Only where the source is empty, and
yet does not start at 0, is the end in two places: at 0, or where the source starts.  There the
answers are the same but for that place. -/
theorem session_of_pulled (source : String) (base : Nat) (limits : Limits) :
    let pulled := (Lexer.ofSource source base).pullAll
    let finished := (Lexer.ofSource source base).finish.tokens
    (∀ ts, ts = pulled ∨ ts = finished → Session.ofTokens ts limits =
      Session.ofLexemes (Lexeme.withEnd false false 0 ts) (ts.filter Token.isTrivia) limits) ∧
    pulled.filter Token.isTrivia = finished.filter Token.isTrivia ∧
    (source ≠ "" ∨ base = 0 →
      Lexeme.withEnd false false 0 pulled = Lexeme.withEnd false false 0 finished ∧
      Session.ofTokens pulled limits = Session.ofTokens finished limits ∧
      ∀ steps, (Session.ofTokens pulled limits).answers steps =
        (Session.ofTokens finished limits).answers steps) ∧
    (source = "" →
      Lexeme.withEnd false false 0 pulled = [⟨Token.endAt 0, false⟩] ∧
      Lexeme.withEnd false false 0 finished = [⟨Token.endAt base, false⟩] ∧
      ∀ steps,
        (Session.ofTokens pulled limits).answers steps = steps.map (·.onNothing limits 0) ∧
        (Session.ofTokens finished limits).answers steps = steps.map (·.onNothing limits base)) := by
  intro pulled finished
  have hpulled : pulled = (Token.readAll base source.toList).tokens := Lexer.pullAll_eq _
  have hfinished : finished = pulled ++ [Token.endAt (base + Source.byteLength source.toList)] := by
    rw [hpulled]
    rfl
  have hopen : ∀ t ∈ pulled, t.kind.isEndOfFile = false := by
    rw [hpulled]
    exact (spells_readAll source.toList base (List.Subset.refl _)).isEndOfFile_kind
  have htrivia : pulled.filter Token.isTrivia = finished.filter Token.isTrivia := by
    rw [hfinished, List.filter_append]
    exact (List.append_nil _).symm
  have hsession : ∀ ts, ts = pulled ∨ ts = finished → Session.ofTokens ts limits =
      Session.ofLexemes (Lexeme.withEnd false false 0 ts) (ts.filter Token.isTrivia) limits := by
    rintro ts (rfl | rfl)
    · exact Session.ofTokens_of_open hopen limits
    · rw [hfinished]
      exact Session.ofTokens_append_endAt hopen _ limits
  refine ⟨hsession, htrivia, fun h => ?_, fun h => ?_⟩
  · -- the last token, or 0, tells where the end is
    have hnonempty : source.toList ≠ [] ∨ base = 0 :=
      h.imp_left fun hne hnil => hne (String.toList_eq_nil_iff.1 hnil)
    have hlexemes : Lexeme.withEnd false false 0 pulled = Lexeme.withEnd false false 0 finished := by
      rw [hfinished, Lexeme.withEnd_of_open hopen, Lexeme.withEnd_append_endAt hopen, hpulled,
        Token.stopOf_readAll base hnonempty]
    have hsessions : Session.ofTokens pulled limits = Session.ofTokens finished limits := by
      rw [hsession _ (.inl rfl), hsession _ (.inr rfl), hlexemes, htrivia]
    exact ⟨hlexemes, hsessions, fun steps => by rw [hsessions]⟩
  · subst h
    have hnone : pulled = [] := hpulled
    rw [hnone, List.nil_append] at hfinished
    rw [hsession _ (.inl rfl), hsession _ (.inr rfl), ← htrivia, hnone, hfinished]
    exact ⟨rfl, rfl, fun steps => ⟨Session.answers_ofLexemes_nil limits 0 false steps,
      Session.answers_ofLexemes_nil limits base false steps⟩⟩

/-- A source at offset 3 that ends in a line break and a comment. -/
theorem session_of_pulled_comment :
    let l := Lexer.ofSource "x\n// c" 3
    ("x\n// c" ≠ "" ∨ 3 = 0) ∧
      Lexeme.withEnd false false 0 l.pullAll = Lexeme.withEnd false false 0 l.finish.tokens ∧
      (Lexeme.withEnd false false 0 l.finish.tokens).map
        (fun lexeme => (lexeme.token.span, lexeme.afterLineBreak)) =
          [(⟨3, 4⟩, false), (⟨9, 9⟩, true)] ∧
      (Session.ofTokens l.pullAll .standard).answers [.expr 0, .program] =
        (Session.ofTokens l.finish.tokens .standard).answers [.expr 0, .program] := by
  intro l
  have hsource : "x\n// c" ≠ "" ∨ 3 = 0 := .inl (by decide)
  obtain ⟨hlexemes, -, hanswers⟩ := (session_of_pulled "x\n// c" 3 .standard).2.2.1 hsource
  exact ⟨hsource, hlexemes, by decide +kernel, hanswers _⟩

/-- Without a token the end is at 0, and the error of a reading there, whatever the source's offset. -/
theorem not_session_of_pulled_empty :
    let l := Lexer.ofSource "" 5
    (Lexeme.withEnd false false 0 l.pullAll).map (·.token.span) = [⟨0, 0⟩] ∧
      (Lexeme.withEnd false false 0 l.finish.tokens).map (·.token.span) = [⟨5, 5⟩] ∧
      (Session.ofTokens l.pullAll .standard).answers [.expr 0] ≠
        (Session.ofTokens l.finish.tokens .standard).answers [.expr 0] := by
  intro l
  have hpulled : l.pullAll = [] := Lexer.pullAll_eq l
  have hstart : (Session.ofTokens [] .standard).answers [.expr 0] =
      [.expr (.error ⟨.expected .expression .endOfFile, ⟨0, 0⟩⟩)] := rfl
  have hend : (Session.ofTokens l.finish.tokens .standard).answers [.expr 0] =
      [.expr (.error ⟨.expected .expression .endOfFile, ⟨5, 5⟩⟩)] := rfl
  rw [hpulled, hstart, hend]
  exact ⟨rfl, rfl, by simp⟩

end ActorFrontend
