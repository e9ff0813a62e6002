import ActorFrontend.Proofs.Alike.Statements
import ActorFrontend.Proofs.Bracketed.Combinators

/-!
# Lambda heads before a closing parenthesis

What is tried as the head of a lambda may take the parenthesis that closes an argument for one of its own.
Behind that a name follows, or a semicolon that no number follows, which no type goes on with, so the
arrow is missed then: a head that is read lies before the parenthesis.
-/

namespace ActorFrontend

open ActorFrontend.Parser

variable {α β σ : Type} {k : TokenKind} {setting : Setting} {place : Span} {stop : List Lexeme}
  {s t : State}

/-- The run has not got beyond the place, but perhaps over the parenthesis that stands there. -/
def State.Reaches (stop : List Lexeme) (s : State) : Prop :=
  stop <:+ s.rest ∨ ∃ paren, stop = paren :: s.rest

theorem State.reaches_advance (h : stop <:+ s.rest) : s.advance.Reaches stop := by
  obtain ⟨ts, hrest⟩ := h
  rw [State.Reaches, State.rest_advance, ← hrest]
  cases ts with
  | nil =>
    cases stop with
    | nil => exact .inl List.suffix_rfl
    | cons paren more => exact .inr ⟨paren, rfl⟩
  | cons lexeme ts => exact .inl ⟨ts, rfl⟩

/-- No argument ends before such a token. -/
theorem Closing.suffix_advance (hstop : Closing setting place stop) (h : stop <:+ s.rest)
    (hkind : s.kind ≠ .symbol .rightParen) : stop <:+ s.advance.rest := by
  obtain ⟨ts, hrest⟩ := h
  rw [State.rest_advance, ← hrest]
  rw [State.kind, ← hrest] at hkind
  cases ts with
  | nil =>
    cases hstop with
    | nothing => exact List.suffix_rfl
    | paren hparen => exact absurd hparen hkind
  | cons lexeme ts => exact ⟨ts, rfl⟩

theorem Closing.endsGroup {paren : Lexeme} (hstop : Closing setting place stop)
    (h : stop = paren :: s.rest) : EndsGroup s.kinds := by
  subst h
  cases hstop with
  | paren _ _ hmore => exact hmore

theorem EndsGroup.test_eq_false (h : EndsGroup s.kinds) {test : TokenKind → Bool}
    (hname : ∀ name, test (.ident name) = false) (hsemicolon : test (.symbol .semicolon) = false) :
    test s.kind = false := by
  generalize hks : s.kinds = ks at h
  cases h with
  | name name ks => rw [State.kind_eq hks, hname]
  | semicolon => rw [State.kind_eq hks, hsemicolon]

namespace Parser

/-! ## Three ways to stop -/

/-- At a token of this kind the parser stops at the place, if it does not stop before. -/
def Lags (k : TokenKind) (p : Parser α) : Prop :=
  ∀ (setting : Setting) (place : Span) (stop : List Lexeme) (s : State) (a : α) (t : State),
    s.kind = k → Closing setting place stop → stop <:+ s.rest → p setting s = .ok a t → stop <:+ t.rest

/-- At a token of this kind the parser stops at the place, or right behind the parenthesis that stands
there, if it does not stop before. -/
def Confined (k : TokenKind) (p : Parser α) : Prop :=
  ∀ (setting : Setting) (place : Span) (stop : List Lexeme) (s : State) (a : α) (t : State),
    s.kind = k → Closing setting place stop → stop <:+ s.rest → p setting s = .ok a t → t.Reaches stop

/-- Behind the parenthesis the parser reads nothing. -/
def Idle (p : Parser α) : Prop :=
  ∀ (setting : Setting) (s : State) (a : α) (t : State), EndsGroup s.kinds →
    p setting s = .ok a t → t.rest = s.rest

variable {p : Parser α} {q : α → Parser β}

namespace Idle

theorem value (a : α) : (pure a : Parser α).Idle := by
  intro setting s b t _ hreply
  obtain ⟨-, rfl⟩ := Reply.ok.inj hreply
  rfl

theorem bind (hp : p.Idle) (hq : ∀ a, (q a).Idle) : (p >>= q).Idle := by
  intro setting s b t hs hreply
  obtain ⟨a, t₁, hfirst, hthen⟩ := bind_eq_ok_iff.1 hreply
  have hrest := hp setting s a t₁ hs hfirst
  have ht₁ : EndsGroup t₁.kinds := by
    rw [State.kinds, hrest]
    exact hs
  exact (hq a setting t₁ b t ht₁ hthen).trans hrest

theorem spanFrom (start : Nat) : (Parser.spanFrom start).Idle := by
  intro setting s b t _ hreply
  obtain ⟨-, rfl⟩ := Reply.ok.inj hreply
  rfl

theorem node (start : Nat) (make : NodeId → Span → α) : (Parser.node start make).Idle := by
  intro setting s b t _ hreply
  obtain ⟨-, rfl⟩ := Reply.ok.inj hreply
  rfl

/-- A token that is neither a name nor a semicolon is missed. -/
theorem ifAcceptIf {test : TokenKind → Bool} {yes no : Parser β}
    (hname : ∀ name, test (.ident name) = false) (hsemicolon : test (.symbol .semicolon) = false)
    (hno : no.Idle) : (do if ← acceptIf test then yes else no).Idle := by
  intro setting s b t hs hreply
  rw [acceptIf_bind, kind_bind, hs.test_eq_false hname hsemicolon] at hreply
  exact hno setting s b t hs hreply

theorem require {test : TokenKind → Bool} {q : Unit → Parser β}
    (hname : ∀ name, test (.ident name) = false) (hsemicolon : test (.symbol .semicolon) = false)
    (wanted : Expected) : (Parser.require test wanted >>= q).Idle := by
  intro setting s b t hs hreply
  rw [require_bind, kind_bind, hs.test_eq_false hname hsemicolon] at hreply
  cases hreply

theorem expect {symbol : Symbol} {q : Unit → Parser β} (hsymbol : symbol ≠ .semicolon) :
    (Parser.expect symbol >>= q).Idle := by
  refine .require (fun _ => rfl) ?_ _
  simpa [TokenKind.isSymbol] using hsymbol.symm

theorem optional {symbol : Symbol} (hsymbol : symbol ≠ .semicolon) :
    (Parser.optional (accept symbol) p).Idle :=
  .ifAcceptIf (fun _ => rfl) (by simpa [TokenKind.isSymbol] using hsymbol.symm) (.value none)

theorem collect {step : Parser (Bool × List α)} (hstep : step.Idle) : (Parser.collect step).Idle := by
  have hrepeat (fuel : List Lexeme) (turns : List (List α)) :
      (repeatAlong (collectTurn step) fuel turns).Idle := by
    induction fuel generalizing turns with
    | nil => exact .bind (.bind hstep fun r => .value _) fun r => .value r.2
    | cons lexeme fuel ih =>
      refine .bind (.bind hstep fun r => .value _) fun r => ?_
      obtain ⟨again, turns'⟩ := r
      cases again with
      | true => exact ih turns'
      | false => exact .value turns'
  refine .bind (fun setting s => hrepeat s.rest [] setting s) fun turns => .value _

end Idle

namespace Lags

theorem value (a : α) : (pure a : Parser α).Lags k := by
  intro setting place stop s b t _ _ hs hreply
  obtain ⟨-, rfl⟩ := Reply.ok.inj hreply
  exact hs

theorem bind (hp : p.Lags k) (hq : ∀ a k, (q a).Lags k) : (p >>= q).Lags k := by
  intro setting place stop s b t hk hstop hs hreply
  obtain ⟨a, t₁, hfirst, hthen⟩ := bind_eq_ok_iff.1 hreply
  exact hq a _ setting place stop t₁ b t rfl hstop (hp setting place stop s a t₁ hk hstop hs hfirst) hthen

theorem advance (hk : k ≠ .symbol .rightParen) : Parser.advance.Lags k := by
  intro setting place stop s b t hkind hstop hs hreply
  obtain ⟨-, rfl⟩ := Reply.ok.inj hreply
  exact hstop.suffix_advance hs (hkind ▸ hk)

theorem acceptIf {test : TokenKind → Bool} (htest : test (.symbol .rightParen) = false) :
    (Parser.acceptIf test).Lags k := by
  intro setting place stop s b t _ hstop hs hreply
  rw [acceptIf_eq] at hreply
  split at hreply
  case isTrue hkind =>
    obtain ⟨-, rfl⟩ := Reply.ok.inj hreply
    refine hstop.suffix_advance hs fun hclose => ?_
    rw [hclose, htest] at hkind
    cases hkind
  case isFalse =>
    obtain ⟨-, rfl⟩ := Reply.ok.inj hreply
    exact hs

theorem require {test : TokenKind → Bool} (htest : test (.symbol .rightParen) = false)
    (wanted : Expected) : (Parser.require test wanted).Lags k := by
  intro setting place stop s b t _ hstop hs hreply
  rw [require_eq] at hreply
  split at hreply
  case isTrue hkind =>
    obtain ⟨-, rfl⟩ := Reply.ok.inj hreply
    refine hstop.suffix_advance hs fun hclose => ?_
    rw [hclose, htest] at hkind
    cases hkind
  case isFalse => cases hreply

theorem expect {symbol : Symbol} (hsymbol : symbol ≠ .rightParen) : (Parser.expect symbol).Lags k :=
  .require (by simpa [TokenKind.isSymbol] using hsymbol.symm) _

theorem valueOf {value? : TokenKind → Option α} (hvalue : value? (.symbol .rightParen) = none)
    (wanted : Expected) : (Parser.valueOf value? wanted).Lags k := by
  intro setting place stop s b t _ hstop hs hreply
  rw [valueOf_eq] at hreply
  cases hkind : value? s.kind with
  | none =>
    rw [hkind] at hreply
    cases hreply
  | some a =>
    rw [hkind] at hreply
    obtain ⟨-, rfl⟩ := Reply.ok.inj hreply
    refine hstop.suffix_advance hs fun hclose => ?_
    rw [hclose, hvalue] at hkind
    cases hkind

theorem query {f : State → α} (hq : ∀ s : State, s.kind = k → (q (f s)).Lags k) :
    (Parser.query f >>= q).Lags k := by
  intro setting place stop s b t hk hstop hs hreply
  rw [query_bind] at hreply
  exact hq s hk setting place stop s b t hk hstop hs hreply

theorem collect {step : Parser (Bool × List α)} (hstep : ∀ k, step.Lags k) :
    (Parser.collect step).Lags k := by
  intro setting place stop s as t _ hstop hs hreply
  obtain ⟨turns, t₁, hturns, hdone⟩ := bind_eq_ok_iff.1 hreply
  obtain ⟨-, rfl⟩ := Reply.ok.inj hdone
  have hloop : (loop (collectTurn step) [] setting s).Ends (fun _ s' => stop <:+ s'.rest)
      fun _ => True := by
    refine ends_loop (fun _ s' => stop <:+ s'.rest) (fun turns s hs => ?_) hs
    cases hreply : collectTurn step turns setting s with
    | fail e s' => trivial
    | ok r s' =>
      have hturn : (collectTurn step turns).Lags s.kind := .bind (hstep _) fun r _ => .value _
      exact hturn setting place stop s r s' rfl hstop hs hreply
  change loop (collectTurn step) [] setting s = _ at hturns
  rw [hturns] at hloop
  exact hloop

end Lags

namespace Confined

theorem of_lags (h : p.Lags k) : p.Confined k := by
  intro setting place stop s a t hk hstop hs hreply
  exact .inl (h setting place stop s a t hk hstop hs hreply)

theorem value (a : α) : (pure a : Parser α).Confined k := .of_lags (.value a)

theorem expected (wanted : Expected) : (Parser.expected wanted : Parser α).Confined k :=
  fun _ _ _ _ _ _ _ _ _ => nofun

/-- What follows has not got beyond the parenthesis. -/
theorem after (hp : p.Lags k) (hq : ∀ a k, (q a).Confined k) : (p >>= q).Confined k := by
  intro setting place stop s b t hk hstop hs hreply
  obtain ⟨a, t₁, hfirst, hthen⟩ := bind_eq_ok_iff.1 hreply
  exact hq a _ setting place stop t₁ b t rfl hstop (hp setting place stop s a t₁ hk hstop hs hfirst) hthen

theorem bind (hp : p.Confined k) (hq : ∀ a k, (q a).Confined k) (hidle : ∀ a, (q a).Idle) :
    (p >>= q).Confined k := by
  intro setting place stop s b t hk hstop hs hreply
  obtain ⟨a, t₁, hfirst, hthen⟩ := bind_eq_ok_iff.1 hreply
  obtain hbefore | ⟨paren, hbehind⟩ := hp setting place stop s a t₁ hk hstop hs hfirst
  · exact hq a _ setting place stop t₁ b t rfl hstop hbefore hthen
  · have hrest := hidle a setting t₁ b t (hstop.endsGroup hbehind) hthen
    exact .inr ⟨paren, by rw [hrest, hbehind]⟩

theorem start {q : Nat → Parser β} (hq : ∀ a, (q a).Confined k) :
    (Parser.start >>= q).Confined k := by
  intro setting place stop s b t hk hstop hs hreply
  rw [start_bind] at hreply
  exact hq _ setting place stop s b t hk hstop hs hreply

theorem kind {q : TokenKind → Parser β} (hq : (q k).Confined k) : (Parser.kind >>= q).Confined k := by
  intro setting place stop s b t hk hstop hs hreply
  rw [kind_bind, hk] at hreply
  exact hq setting place stop s b t hk hstop hs hreply

theorem spanFrom (start : Nat) : (Parser.spanFrom start).Confined k := by
  refine .of_lags fun setting place stop s b t _ _ hs hreply => ?_
  obtain ⟨-, rfl⟩ := Reply.ok.inj hreply
  exact hs

theorem node (start : Nat) (make : NodeId → Span → α) : (Parser.node start make).Confined k := by
  refine .of_lags fun setting place stop s b t _ _ hs hreply => ?_
  obtain ⟨-, rfl⟩ := Reply.ok.inj hreply
  exact hs

theorem expect (symbol : Symbol) : (Parser.expect symbol).Confined k := by
  intro setting place stop s b t _ _ hs hreply
  obtain ⟨-, rfl⟩ := expect_eq_ok_iff.1 hreply
  exact State.reaches_advance hs

/-- A parenthesis that ends what has been opened here. -/
theorem ifClose {yes no : Parser β} (hyes : ∀ k, yes.Confined k) (hidle : yes.Idle)
    (hno : no.Confined k) : (do if ← accept .rightParen then yes else no).Confined k := by
  intro setting place stop s b t hk hstop hs hreply
  rw [accept, acceptIf_bind, kind_bind] at hreply
  split at hreply
  case isTrue =>
    have hreply : yes setting s.advance = .ok b t := hreply
    obtain hbefore | ⟨paren, hbehind⟩ := State.reaches_advance hs
    · exact hyes _ setting place stop s.advance b t rfl hstop hbefore hreply
    · have hrest := hidle setting s.advance b t (hstop.endsGroup hbehind) hreply
      exact .inr ⟨paren, by rw [hrest, hbehind]⟩
  case isFalse => exact hno setting place stop s b t hk hstop hs hreply

theorem nested (hp : ∀ k, p.Confined k) : (Parser.nested p).Confined k := by
  intro setting place stop s b t hk hstop hs hreply
  unfold Parser.nested at hreply
  split at hreply
  case isTrue => cases hreply
  case isFalse =>
    obtain ⟨t₁, hinner, rfl⟩ := mapState_eq_ok_iff.1 hreply
    exact hp k setting place stop { s with depth := s.depth + 1 } b t₁ hk hstop hs hinner

/-- If a turn asks for another one behind the parenthesis, that reads nothing. -/
theorem collect {step : Parser (Bool × List α)}
    (hstep : ∀ setting place stop s r t, Closing setting place stop → stop <:+ s.rest →
      step setting s = .ok r t → t.Reaches stop ∧ (r.1 = true → stop <:+ t.rest ∨ step.Idle)) :
    (Parser.collect step).Confined k := by
  intro setting place stop s as t _ hstop hs hreply
  obtain ⟨turns, t₁, hturns, hdone⟩ := bind_eq_ok_iff.1 hreply
  obtain ⟨-, rfl⟩ := Reply.ok.inj hdone
  have hturn (turns : List (List α)) (s : State)
      (hs : stop <:+ s.rest ∨ s.Reaches stop ∧ step.Idle) : (collectTurn step turns setting s).Ends
        (fun r s' => s'.Reaches stop ∧ (r.1 = true → stop <:+ s'.rest ∨ step.Idle)) fun _ => True := by
    cases hreply : step setting s with
    | fail e s' =>
      show (Parser.bind step _ setting s).Ends _ _
      rw [Parser.bind, hreply]
      trivial
    | ok r s' =>
      rw [collectTurn, bind_ok hreply]
      obtain hbefore | ⟨hbefore | ⟨paren, hbehind⟩, hidle⟩ := hs
      · exact hstep setting place stop s r s' hstop hbefore hreply
      · exact hstep setting place stop s r s' hstop hbefore hreply
      · have hrest := hidle setting s r s' (hstop.endsGroup hbehind) hreply
        exact ⟨.inr ⟨paren, by rw [hrest, hbehind]⟩, fun _ => .inr hidle⟩
  have hloop : (repeatAlong (collectTurn step) s.rest [] setting s).Ends
      (fun _ s' => s'.Reaches stop) fun _ => True := by
    refine ends_repeatAlong (fun _ _ s => stop <:+ s.rest ∨ s.Reaches stop ∧ step.Idle) _
      (fun n turns s hs => ?_) (fun turns s hs => ?_) (.inl hs)
    · refine (hturn turns s hs).imp (fun r s' h => ?_) fun _ h => h
      split
      case isTrue hagain => exact (h.2 hagain).imp_right fun hidle => ⟨h.1, hidle⟩
      case isFalse => exact h.1
    · exact (hturn turns s hs).imp (fun _ _ h => h.1) fun _ h => h
  change repeatAlong (collectTurn step) s.rest [] setting s = _ at hturns
  rw [hturns] at hloop
  exact hloop

theorem commaList {elem : Parser α} {close : Symbol} (hclose : close ≠ .semicolon)
    (helem : ∀ k, elem.Confined k) : (Parser.commaList close elem).Confined k := by
  refine .bind (.collect fun setting place stop s r t hstop hs hreply => ?_)
    (fun elems k => .bind (.expect close) (fun _ _ => .value elems) fun _ => .value elems)
    fun elems => .expect hclose
  change (if s.kind.isSymbol close = true then _ else _ : Parser _) setting s = _ at hreply
  split at hreply
  case isTrue =>
    obtain ⟨rfl, rfl⟩ := Reply.ok.inj hreply
    exact ⟨.inl hs, by simp⟩
  case isFalse =>
    obtain ⟨a, t₁, helem₁, hcomma⟩ := bind_eq_ok_iff.1 hreply
    obtain ⟨again, t₂, hagain, hdone⟩ := bind_eq_ok_iff.1 hcomma
    obtain ⟨rfl, rfl⟩ := Reply.ok.inj hdone
    obtain hbefore | ⟨paren, hbehind⟩ := helem _ setting place stop s a t₁ rfl hstop hs helem₁
    · have hlags : (accept .comma).Lags t₁.kind := .acceptIf rfl
      have hsuffix := hlags setting place stop t₁ again t₂ rfl hstop hbefore hagain
      exact ⟨.inl hsuffix, fun _ => .inl hsuffix⟩
    · have hmissed : t₁.kind.isSymbol .comma = false :=
        (hstop.endsGroup hbehind).test_eq_false (fun _ => rfl) rfl
      rw [accept, acceptIf_eq, hmissed] at hagain
      obtain ⟨rfl, rfl⟩ := Reply.ok.inj hagain
      exact ⟨.inr ⟨paren, hbehind⟩, by simp⟩

end Confined

/-! ## Types -/

theorem lags_path : path.Lags k := by
  have hturn (k : TokenKind) : pathTurn.Lags k := by
    refine .query fun s hk => ?_
    split
    case isTrue hcolons =>
      rw [TokenKind.eq_of_isSymbol (Bool.and_eq_true_iff.1 hcolons).1] at hk
      subst hk
      exact .bind (.advance nofun) fun _ _ => .bind (.valueOf rfl _) fun part _ => .value _
    case isFalse => exact .value _
  exact .bind (.valueOf rfl _) fun first _ => .bind (.collect hturn) fun more _ => .value _

section

variable {g : Rules} (hg : ∀ k, g.type.Confined k)
include hg

theorem confined_typeArgs : (typeArgs g).Confined k := by
  refine .after (.acceptIf rfl) fun found k => ?_
  split
  · exact .commaList nofun hg
  · exact .value []

theorem confined_bound : (bound g).Confined k := by
  refine .start fun start => .after lags_path fun path k => ?_
  refine .bind (confined_typeArgs hg) (fun args k => ?_) fun args => ?_
  · exact .bind (.spanFrom start) (fun _ _ => .value _) fun _ => .value _
  · exact .bind (.spanFrom start) fun _ => .value _

theorem confined_boundTurn : (boundTurn g).Confined k := by
  refine .after (.acceptIf rfl) fun found k => ?_
  split
  · exact .bind (confined_bound hg) (fun _ _ => .value _) fun _ => .value _
  · exact .value _

theorem confined_bounds : (bounds g).Confined k := by
  have hidle : (boundTurn g).Idle := .ifAcceptIf (fun _ => rfl) rfl (.value _)
  refine .bind (confined_bound hg) (fun first k => ?_) fun first => ?_
  · refine .bind (.collect fun setting place stop s r t hstop hs hreply => ?_) (fun _ _ => .value _)
      fun _ => .value _
    exact ⟨confined_boundTurn hg setting place stop s r t rfl hstop hs hreply, fun _ => .inr hidle⟩
  · exact .bind (.collect hidle) fun _ => .value _

theorem confined_resultType : (resultType g).Confined k := by
  refine .after (.acceptIf rfl) fun found k => ?_
  split
  · exact .bind (hg k) (fun _ _ => .value _) fun _ => .value _
  · exact .value none

theorem confined_typeAfterColon : (typeAfterColon g).Confined k := by
  refine .after (.acceptIf rfl) fun found k => ?_
  split
  · exact .bind (hg k) (fun _ _ => .value _) fun _ => .value _
  · exact .value none

theorem confined_parenType (start : Nat) : (parenType g start).Confined (.symbol .leftParen) := by
  refine .after (.advance nofun) fun _ k => ?_
  refine .ifClose (fun _ => .node start _) (.node start _) ?_
  refine .bind (hg k) (fun first k => ?_) fun first => ?_
  · refine .after (.acceptIf rfl) fun several k => ?_
    split
    · exact .bind (.commaList nofun hg) (fun _ _ => .node start _) fun _ => .node start _
    · exact .bind (.expect _) (fun _ _ => .value _) fun _ => .value _
  · exact .ifAcceptIf (fun _ => rfl) rfl (.expect nofun)

omit hg in
/-- No number follows the semicolon behind the parenthesis. -/
theorem idle_arrayLength : (optional (accept .semicolon) integer).Idle := by
  intro setting s length t hs hreply
  rw [optional, accept, acceptIf_bind, kind_bind] at hreply
  generalize hks : s.kinds = ks at hs
  cases hs with
  | name name ks =>
    rw [State.kind_eq hks] at hreply
    obtain ⟨-, rfl⟩ := Reply.ok.inj hreply
    rfl
  | @semicolon ks hmore =>
    rw [State.kind_eq hks] at hreply
    obtain ⟨_, s₁, hadvance, hreply⟩ := bind_eq_ok_iff.1 hreply
    obtain ⟨-, rfl⟩ := Reply.ok.inj hadvance
    obtain ⟨value, t₁, hinteger, -⟩ := bind_eq_ok_iff.1 hreply
    have hkinds := (State.kinds_advance hks).1
    rw [integer, valueOf_eq] at hinteger
    split at hinteger
    case h_1 value' hvalue =>
      cases ks with
      | nil =>
        rw [State.kind_eq_endOfFile hkinds] at hvalue
        cases hvalue
      | cons next ks =>
        rw [State.kind_eq hkinds] at hvalue
        split at hvalue
        · exact absurd rfl (hmore _)
        · cases hvalue
    case h_2 => cases hinteger

theorem confined_bracketType : (bracketType g).Confined (.symbol .leftBracket) := by
  have hlength (k : TokenKind) : (optional (accept .semicolon) integer).Lags k := by
    refine .bind (.acceptIf rfl) fun found k => ?_
    split
    · exact .bind (.valueOf rfl _) fun _ _ => .value _
    · exact .value none
  refine .after (.advance nofun) fun _ k => .bind (hg k) (fun elem k => ?_) fun elem => ?_
  · refine .after (hlength k) fun length k => .after (.expect nofun) fun _ k => ?_
    split
    · exact .value _
    · exact .value _
  · exact .bind idle_arrayLength fun length => .expect nofun

theorem confined_functionType : (functionType g).Confined (.keyword .fnKw) := by
  refine .after (.advance nofun) fun _ k => .after (.expect nofun) fun _ k => ?_
  refine .bind (.commaList nofun hg) (fun params k => ?_) fun params => ?_
  · exact .bind (confined_resultType hg) (fun _ _ => .value _) fun _ => .value _
  · exact .bind (.optional nofun) fun ret => .value _

theorem confined_pointerType : (pointerType g).Confined (.symbol .star) := by
  have hpointee (mutability : Option PointerMutability) (k : TokenKind) :
      (do pure (.pointer mutability (← g.type)) : Parser TypeKind).Confined k :=
    .bind (hg k) (fun type _ => .value _) fun type => .value _
  refine .after (.advance nofun) fun _ k => .after (.acceptIf rfl) fun isConst k => ?_
  split
  · exact hpointee _ k
  · refine .after (.acceptIf rfl) fun isMut k => ?_
    split
    · exact hpointee _ k
    · exact hpointee _ k

theorem confined_traitObjectType : (traitObjectType g).Confined (.keyword .dynKw) := by
  refine .after (.advance nofun) fun _ k => .after (.acceptIf rfl) fun grouped k => ?_
  split
  · refine .bind (confined_bounds hg) (fun bounds k => ?_) fun bounds => .expect nofun
    exact .bind (.expect _) (fun _ _ => .value _) fun _ => .value _
  · exact .bind (confined_bound hg) (fun only _ => .value _) fun only => .value _

theorem confined_namedType : (namedType g).Confined k := by
  refine .after lags_path fun path k => ?_
  exact .bind (confined_typeArgs hg) (fun args _ => .value _) fun args => .value _

theorem confined_typeRule : (typeRule g).Confined k := by
  have hfinish (start : Nat) {k : TokenKind} {kind : Parser TypeKind} (h : kind.Confined k) :
      (do
        let kind ← kind
        node start fun id span => (⟨id, span, kind⟩ : TypeExpr)).Confined k :=
    .bind h (fun kind _ => .node start _) fun kind => .node start _
  refine .start fun start => .kind ?_
  split
  · exact hfinish start (confined_namedType hg)
  · exact confined_parenType hg start
  · exact hfinish start (confined_bracketType hg)
  · exact hfinish start (confined_functionType hg)
  · exact hfinish start (confined_pointerType hg)
  · exact hfinish start (confined_traitObjectType hg)
  · exact .expected _

theorem confined_lambdaParam : (lambdaParam g).Confined k := by
  refine .start fun start => .after (.valueOf rfl _) fun name k => ?_
  refine .bind (confined_typeAfterColon hg) (fun type k => ?_) fun type => ?_
  · exact .bind (.spanFrom start) (fun _ _ => .value _) fun _ => .value _
  · exact .bind (.spanFrom start) fun _ => .value _

/-- The arrow of a lambda is missed behind the parenthesis. -/
theorem lags_lambdaHead : (lambdaHead g).Lags k := by
  have hhead (k : TokenKind) : (do
      let params ← commaList .rightParen (lambdaParam g)
      let ret ← resultType g
      pure (params, ret)).Confined k := by
    refine .bind (.commaList nofun fun _ => confined_lambdaParam hg) (fun params k => ?_) fun params => ?_
    · exact .bind (confined_resultType hg) (fun _ _ => .value _) fun _ => .value _
    · exact .bind (.optional nofun) fun ret => .value _
  intro setting place stop s head t hk hstop hs hreply
  obtain ⟨_, s₁, hopen, hreply⟩ := bind_eq_ok_iff.1 hreply
  obtain ⟨params, s₂, hparams, hreply⟩ := bind_eq_ok_iff.1 hreply
  obtain ⟨ret, s₃, hret, hreply⟩ := bind_eq_ok_iff.1 hreply
  obtain ⟨_, s₄, harrow, hreply⟩ := bind_eq_ok_iff.1 hreply
  obtain ⟨-, rfl⟩ := Reply.ok.inj hreply
  have hbracket : (expect .leftParen).Lags k := .expect nofun
  have hs₁ : stop <:+ s₁.rest := hbracket setting place stop s _ s₁ hk hstop hs hopen
  have hs₃ : s₃.Reaches stop := by
    refine hhead _ setting place stop s₁ (params, ret) s₃ rfl hstop hs₁ ?_
    rw [bind_ok hparams, bind_ok hret]
    rfl
  obtain hbefore | ⟨paren, hbehind⟩ := hs₃
  · have hexpect : (expect .fatArrow).Lags s₃.kind := .expect nofun
    exact hexpect setting place stop s₃ _ s₄ rfl hstop hbefore harrow
  · have hmissed : s₃.kind.isSymbol .fatArrow = false :=
      (hstop.endsGroup hbehind).test_eq_false (fun _ => rfl) rfl
    rw [(expect_eq_ok_iff.1 harrow).1] at hmissed
    cases hmissed

end

end Parser

end ActorFrontend
