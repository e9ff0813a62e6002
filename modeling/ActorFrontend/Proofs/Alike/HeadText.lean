import ActorFrontend.Proofs.Alike.Gaps
import ActorFrontend.Proofs.Course.Statements
import ActorFrontend.Proofs.Lookahead.Angles

/-!
# The text of lambda heads

The tokens that are read as a type, or as the head of a lambda, are all of a few kinds, and a semicolon
stands only between brackets that are closed again.
-/

namespace ActorFrontend

open ActorFrontend.Parser

variable {α β : Type} {setting : Setting} {s : State} {g : Rules} {n m depth : Nat}
  {lexeme : Lexeme} {rest rest' rest'' stop : List Lexeme}

namespace TokenKind

/-- Tokens of which types are made. -/
def inType (k : TokenKind) : Bool := k.inHead && !k.isSymbol .colon

/-- Tokens that may stand anywhere in a type. -/
def standsFreely : TokenKind → Bool
  | .ident _ | .int _ | .keyword .dynKw => true
  | .symbol s =>
      s == .comma || s == .arrow || s == .star || s == .plus || s == .lt || s == .gt ||
        s == .colonColon
  | _ => false

theorem inHead_of_inType {k : TokenKind} (h : k.inType = true) : k.inHead = true :=
  (Bool.and_eq_true_iff.1 h).1

theorem ne_colon_of_inType {k : TokenKind} (h : k.inType = true) : k ≠ .symbol .colon := by
  rintro rfl
  cases h

theorem inType_of_standsFreely {k : TokenKind} (h : k.standsFreely = true) : k.inType = true := by
  cases k with
  | ident _ | int _ => rfl
  | symbol symbol => cases symbol <;> first | rfl | cases h
  | keyword keyword => cases keyword <;> first | rfl | cases h
  | _ => cases h

end TokenKind

/-! ## Token sequences -/

namespace Lexeme

theorem HeadText.suffix (h : HeadText stop depth rest) : stop <:+ rest := by
  induction h with
  | stop => exact List.suffix_rfl
  | symbol _ _ _ _ ih | other _ _ _ ih => exact ih.trans (List.suffix_cons _ _)

/-- All tokens up to a later place satisfy a test. -/
def PassesOver (test : TokenKind → Bool) (rest rest' : List Lexeme) : Prop :=
  ∃ before, rest = before ++ rest' ∧ ∀ lexeme ∈ before, test lexeme.token.kind = true

/-- The tokens up to a later place are those of a type, or of its end: `n` brackets are closed that
have been opened before. -/
structure ReadsType (n : Nat) (rest rest' : List Lexeme) : Prop where
  tokens : PassesOver TokenKind.inType rest rest'
  text : firstKind rest' ≠ .symbol .colon → ∀ stop depth, HeadText stop depth rest' →
    HeadText stop (depth + n) rest

namespace PassesOver

variable {test test' : TokenKind → Bool}

theorem refl (rest : List Lexeme) : PassesOver test rest rest := ⟨[], rfl, nofun⟩

theorem trans (h : PassesOver test rest rest') (h' : PassesOver test rest' rest'') :
    PassesOver test rest rest'' := by
  obtain ⟨before, rfl, hbefore⟩ := h
  obtain ⟨before', rfl, hbefore'⟩ := h'
  refine ⟨before ++ before', (List.append_assoc ..).symm, fun lexeme hl => ?_⟩
  exact (List.mem_append.1 hl).elim (hbefore lexeme) (hbefore' lexeme)

theorem cons (hlexeme : test lexeme.token.kind = true) (h : PassesOver test rest rest') :
    PassesOver test (lexeme :: rest) rest' := by
  obtain ⟨before, rfl, hbefore⟩ := h
  exact ⟨lexeme :: before, rfl, List.forall_mem_cons.2 ⟨hlexeme, hbefore⟩⟩

theorem imp (h : PassesOver test rest rest') (htest : ∀ k, test k = true → test' k = true) :
    PassesOver test' rest rest' := by
  obtain ⟨before, heq, hbefore⟩ := h
  exact ⟨before, heq, fun lexeme hl => htest _ (hbefore lexeme hl)⟩

theorem firstKind_ne_colon (h : PassesOver TokenKind.inType rest rest')
    (hcolon : firstKind rest' ≠ .symbol .colon) : firstKind rest ≠ .symbol .colon := by
  obtain ⟨before, rfl, hbefore⟩ := h
  cases before with
  | nil => exact hcolon
  | cons lexeme before => exact TokenKind.ne_colon_of_inType (hbefore lexeme List.mem_cons_self)

/-- The second token that is passed over is no colon either. -/
theorem secondKind_ne_colon (h : PassesOver TokenKind.inType rest rest') (hne : rest ≠ rest')
    (hcolon : firstKind rest' ≠ .symbol .colon) : firstKind (rest.drop 1) ≠ .symbol .colon := by
  obtain ⟨before, rfl, hbefore⟩ := h
  cases before with
  | nil => exact absurd rfl hne
  | cons lexeme before =>
    exact firstKind_ne_colon ⟨before, rfl, fun l hl => hbefore l (List.mem_cons_of_mem _ hl)⟩ hcolon

end PassesOver

namespace HeadText

/-- What stands before the end of the text of a head belongs to it. -/
theorem uncons (h : HeadText stop depth (lexeme :: rest)) (hstop : stop.length ≤ rest.length) :
    lexeme.InHead rest ∧ ∃ depth, HeadText stop depth rest := by
  cases h with
  | stop => exact absurd hstop (Nat.not_succ_le_self _)
  | symbol _ hin _ h => exact ⟨hin, _, h⟩
  | other _ hin h => exact ⟨hin, _, h⟩

/-- A token that opens and closes nothing. -/
theorem free (hkind : lexeme.token.kind.standsFreely = true) (h : HeadText stop depth rest) :
    HeadText stop depth (lexeme :: rest) := by
  have hin : lexeme.InHead rest := by
    refine ⟨TokenKind.inHead_of_inType (TokenKind.inType_of_standsFreely hkind), ?_, ?_, ?_⟩
    all_goals
      intro heq
      rw [heq] at hkind
      cases hkind
  by_cases hsymbol : ∃ s, lexeme.token.kind = .symbol s
  · obtain ⟨s, hs⟩ := hsymbol
    rw [hs] at hkind
    refine .symbol hs hin ?_ ?_
    · rintro rfl
      cases hkind
    · have hdepth : Recovery.depthAfter s depth = depth := by
        cases s <;> first | rfl | cases hkind
      rwa [hdepth]
  · exact .other (not_exists.1 hsymbol) hin h

/-- A colon, or a bracket. -/
theorem mark {symbol : Symbol} (hkind : lexeme.token.kind = .symbol symbol)
    (hin : (TokenKind.symbol symbol).inHead = true) (hsymbol : symbol ≠ .semicolon)
    (h : HeadText stop (Recovery.depthAfter symbol depth) rest) :
    HeadText stop depth (lexeme :: rest) := by
  refine .symbol hkind ⟨by rwa [hkind], ?_, ?_, ?_⟩ (fun heq => absurd heq hsymbol) h
  · intro heq
    rw [hkind] at heq
    cases heq
  · intro heq
    rw [hkind] at heq
    cases heq
    exact absurd rfl hsymbol
  · intro heq
    rw [hkind] at heq
    cases heq

end HeadText

namespace ReadsType

theorem refl (rest : List Lexeme) : ReadsType 0 rest rest := ⟨.refl rest, fun _ _ _ h => h⟩

theorem trans (h : ReadsType n rest rest') (h' : ReadsType m rest' rest'') :
    ReadsType (n + m) rest rest'' := by
  refine ⟨h.tokens.trans h'.tokens, fun hcolon stop depth htext => ?_⟩
  have hwhole := h.text (h'.tokens.firstKind_ne_colon hcolon) stop _ (h'.text hcolon stop depth htext)
  rwa [Nat.add_assoc, Nat.add_comm m n] at hwhole

theorem free (hkind : lexeme.token.kind.standsFreely = true) : ReadsType 0 (lexeme :: rest) rest :=
  ⟨.cons (TokenKind.inType_of_standsFreely hkind) (.refl rest), fun _ _ _ h => h.free hkind⟩

theorem closing {symbol : Symbol} (hkind : lexeme.token.kind = .symbol symbol)
    (hsymbol : symbol = .rightParen ∨ symbol = .rightBracket) :
    ReadsType 1 (lexeme :: rest) rest := by
  refine ⟨.cons ?_ (.refl rest), fun _ stop depth h => .mark hkind ?_ ?_ ?_⟩
  · rw [hkind]
    rcases hsymbol with rfl | rfl <;> rfl
  all_goals rcases hsymbol with rfl | rfl
  · rfl
  · rfl
  · exact nofun
  · exact nofun
  · exact h
  · exact h

theorem opening {symbol : Symbol} (hkind : lexeme.token.kind = .symbol symbol)
    (hsymbol : symbol = .leftParen ∨ symbol = .leftBracket) (h : ReadsType (n + 1) rest rest') :
    ReadsType n (lexeme :: rest) rest' := by
  refine ⟨.cons ?_ h.tokens, fun hcolon stop depth htext => .mark hkind ?_ ?_ ?_⟩
  · rw [hkind]
    rcases hsymbol with rfl | rfl <;> rfl
  all_goals rcases hsymbol with rfl | rfl
  · rfl
  · rfl
  · exact nofun
  · exact nofun
  · exact h.text hcolon stop depth htext
  · exact h.text hcolon stop depth htext

/-- The semicolon before the length of an array; the bracket behind it is closed. -/
theorem length {value : UInt64} (hkind : lexeme.token.kind = .symbol .semicolon)
    (hnext : firstKind rest = .int value) (h : ReadsType (n + 1) rest rest') :
    ReadsType (n + 1) (lexeme :: rest) rest' := by
  refine ⟨.cons (by rw [hkind]; rfl) h.tokens, fun hcolon stop depth htext => ?_⟩
  refine .symbol hkind ⟨by rw [hkind]; rfl, ?_, fun _ => ⟨value, hnext⟩, ?_⟩
    (fun _ => Nat.succ_ne_zero _) (h.text hcolon stop depth htext)
  · intro heq
    rw [hkind] at heq
    cases heq
  · intro heq
    rw [hkind] at heq
    cases heq

theorem function (hkind : lexeme.token.kind = .keyword .fnKw)
    (hnext : firstKind rest = .symbol .leftParen) (h : ReadsType n rest rest') :
    ReadsType n (lexeme :: rest) rest' := by
  refine ⟨.cons (by rw [hkind]; rfl) h.tokens, fun hcolon stop depth htext => ?_⟩
  refine .other (by simp [hkind]) ⟨by rw [hkind]; rfl, fun _ => hnext, ?_, ?_⟩
    (h.text hcolon stop depth htext)
  · intro heq
    rw [hkind] at heq
    cases heq
  · intro heq
    rw [hkind] at heq
    cases heq

theorem pointer (hkind : lexeme.token.kind = .keyword .constKw)
    (hnext : firstKind rest ≠ .symbol .semicolon) (hne : rest ≠ rest') (h : ReadsType n rest rest') :
    ReadsType n (lexeme :: rest) rest' := by
  refine ⟨.cons (by rw [hkind]; rfl) h.tokens, fun hcolon stop depth htext => ?_⟩
  refine .other (by simp [hkind]) ⟨by rw [hkind]; rfl, ?_, ?_, fun _ => ⟨hnext, fun _ => ?_⟩⟩
    (h.text hcolon stop depth htext)
  · intro heq
    rw [hkind] at heq
    cases heq
  · intro heq
    rw [hkind] at heq
    cases heq
  · exact h.tokens.secondKind_ne_colon hne hcolon

end ReadsType

end Lexeme

/-! ## Readings -/

/-- What has been read since a place is a type, or the end of one; where the reading failed, it is
made of the same tokens. -/
def Reply.ReadsType (n : Nat) (rest : List Lexeme) (r : Reply α) : Prop :=
  r.Ends (fun _ after => Lexeme.ReadsType n rest after.rest)
    fun after => Lexeme.PassesOver TokenKind.inType rest after.rest

/-- What a reading starts with that fails, the whole of it ends with. -/
theorem Reply.Ends.of_fails {p : Parser α} {q : α → Parser β} {onOk : β → State → Prop}
    {onFail : State → Prop} (h : (p setting s).Ends (fun _ _ => False) onFail) :
    ((p >>= q) setting s).Ends onOk onFail :=
  Reply.Ends.bind h fun _ _ h => h.elim

/-- What is read behind tokens of a type is read with them. -/
theorem Reply.ReadsType.behind {r : Reply α} (h : r.ReadsType 0 rest')
    (hread : Lexeme.ReadsType 0 rest rest') : r.ReadsType 0 rest :=
  Reply.Ends.imp h (fun _ _ h => hread.trans h) fun _ h => hread.tokens.trans h

/-- The parser reads what types are made of. -/
def Parser.ReadsType (n : Nat) (p : Parser α) : Prop :=
  ∀ setting s, (p setting s).ReadsType n s.rest

/-- The rule of types reads what types are made of.  No type starts with a semicolon, and none has no
token. -/
structure Rules.ReadsTypes (g : Rules) : Prop where
  type : g.type.ReadsType 0
  consumes : g.type.Consumes false
  starts : ∀ setting s, (g.type setting s).Ends (fun _ _ => s.kind ≠ .symbol .semicolon) fun _ => True

namespace Parser.ReadsType

theorem bind {p : Parser α} {q : α → Parser β} (hp : p.ReadsType n) (hq : ∀ a, (q a).ReadsType m) :
    (p >>= q).ReadsType (n + m) := by
  intro setting s
  refine Reply.Ends.bind (hp setting s) fun a after h => ?_
  exact (hq a setting after).imp (fun _ _ h' => h.trans h') fun _ h' => h.tokens.trans h'

/-- What closes no bracket is read first. -/
theorem pass {p : Parser α} {q : α → Parser β} (hp : p.ReadsType 0) (hq : ∀ a, (q a).ReadsType m) :
    (p >>= q).ReadsType m := by
  have h := hp.bind hq
  rwa [Nat.zero_add] at h

/-- What closes no bracket is read last. -/
theorem ends {p : Parser α} {q : α → Parser β} (hp : p.ReadsType n) (hq : ∀ a, (q a).ReadsType 0) :
    (p >>= q).ReadsType n := hp.bind hq

theorem value (a : α) : (pure a : Parser α).ReadsType 0 := fun _ s => .refl s.rest

theorem query (f : State → α) : (Parser.query f).ReadsType 0 := fun _ s => .refl s.rest

theorem start {q : Nat → Parser β} (hq : ∀ start, (q start).ReadsType n) :
    (Parser.start >>= q).ReadsType n := fun setting s => hq _ setting s

theorem part {start : Nat} {make : Span → α} :
    (do pure (make (← spanFrom start)) : Parser α).ReadsType 0 := fun _ s => .refl s.rest

theorem node {start : Nat} {make : NodeId → Span → α} : (Parser.node start make).ReadsType 0 :=
  fun _ s => .refl s.rest

theorem expected (wanted : Expected) : (Parser.expected wanted : Parser α).ReadsType n :=
  fun _ s => .refl s.rest

end Parser.ReadsType

namespace Parser

/-- The token at hand, where there is one. -/
theorem exists_lexeme (h : s.kind ≠ .endOfFile) :
    ∃ lexeme, lexeme.token.kind = s.kind ∧ s.rest = lexeme :: s.advance.rest := by
  unfold State.kind at *
  unfold State.advance
  cases hrest : s.rest with
  | nil =>
    rw [hrest] at h
    exact absurd rfl h
  | cons lexeme behind => exact ⟨lexeme, rfl, rfl⟩

/-- A token that may stand anywhere is passed over. -/
theorem readsType_advance (hkind : s.kind.standsFreely = true) :
    Lexeme.ReadsType 0 s.rest s.advance.rest := by
  have hne : s.kind ≠ .endOfFile := by
    intro heq
    rw [heq] at hkind
    cases hkind
  obtain ⟨lexeme, hlexeme, hrest⟩ := exists_lexeme hne
  rw [hrest]
  exact .free (hlexeme ▸ hkind)

theorem readsType_acceptIf {test : TokenKind → Bool}
    (htest : ∀ k, test k = true → k.standsFreely = true) : (acceptIf test).ReadsType 0 := by
  intro setting s
  rw [acceptIf_eq]
  split
  case isTrue h => exact readsType_advance (htest _ h)
  case isFalse => exact .refl s.rest

theorem readsType_accept {symbol : Symbol} (h : (TokenKind.symbol symbol).standsFreely = true) :
    (accept symbol).ReadsType 0 :=
  readsType_acceptIf fun _ hk => TokenKind.eq_of_isSymbol hk ▸ h

theorem readsType_expect {symbol : Symbol} (h : (TokenKind.symbol symbol).standsFreely = true) :
    (expect symbol).ReadsType 0 :=
  (readsType_accept h).pass fun found => by
    cases found with
    | true => exact .value ()
    | false => exact .expected _

theorem readsType_valueOf {value? : TokenKind → Option α} (wanted : Expected)
    (hvalue : ∀ k a, value? k = some a → k.standsFreely = true) :
    (valueOf value? wanted).ReadsType 0 := by
  intro setting s
  rw [valueOf_eq]
  split
  case h_1 a ha => exact readsType_advance (hvalue _ a ha)
  case h_2 => exact .refl s.rest

theorem readsType_name : name.ReadsType 0 := by
  refine readsType_valueOf _ fun k a h => ?_
  cases k with
  | ident _ => rfl
  | _ => cases h

theorem readsType_collect {step : Parser (Bool × List α)} (hstep : step.ReadsType 0) :
    (collect step).ReadsType 0 := by
  intro setting s
  have hturns : (loop (collectTurn step) [] setting s).ReadsType 0 s.rest := by
    refine ends_loop (fun _ after => Lexeme.ReadsType 0 s.rest after.rest) (fun turns s' h => ?_)
      (.refl s.rest)
    refine Reply.Ends.bind ((hstep setting s').imp (fun _ _ h' => h.trans h') fun _ h' =>
      h.tokens.trans h') fun r after h => h
  exact Reply.Ends.bind hturns fun turns after h => h

theorem readsType_listIf {announced : Parser Bool} {p : Parser (List α)}
    (hannounced : announced.ReadsType 0) (hp : p.ReadsType 0) : (listIf announced p).ReadsType 0 :=
  hannounced.pass fun found => by
    cases found with
    | true => exact hp
    | false => exact .value []

theorem readsType_optional {announced : Parser Bool} {p : Parser α}
    (hannounced : announced.ReadsType 0) (hp : p.ReadsType 0) :
    (optional announced p).ReadsType 0 :=
  hannounced.pass fun found => by
    cases found with
    | true => exact hp.pass fun a => .value _
    | false => exact .value none

/-- A bracket that closes what has been opened before. -/
theorem readsType_expect_closing {symbol : Symbol}
    (hsymbol : symbol = .rightParen ∨ symbol = .rightBracket) : (expect symbol).ReadsType 1 := by
  intro setting s
  rw [expect, require_eq]
  split
  case isTrue h =>
    obtain ⟨lexeme, hlexeme, hrest⟩ := rest_eq_of_kind (TokenKind.eq_of_isSymbol h)
    rw [hrest]
    exact .closing hlexeme hsymbol
  case isFalse => exact .refl s.rest

theorem readsType_commaElems {p : Parser α} (close : Symbol) (hp : p.ReadsType 0) :
    (collect (commaTurn close p)).ReadsType 0 := by
  refine readsType_collect (.pass (.query _) fun closes => ?_)
  split
  · exact .value _
  · exact hp.pass fun a => (readsType_accept rfl).pass fun again => .value _

theorem readsType_angleList {p : Parser α} (hp : p.ReadsType 0) :
    (listIf (accept .lt) (commaList .gt p)).ReadsType 0 :=
  readsType_listIf (readsType_accept rfl) <|
    (readsType_commaElems .gt hp).pass fun elems => (readsType_expect rfl).pass fun _ => .value elems

/-- Elements up to the parenthesis that closes them. -/
theorem readsType_parenList {p : Parser α} (hp : p.ReadsType 0) :
    (commaList .rightParen p).ReadsType 1 :=
  (readsType_commaElems .rightParen hp).pass fun elems =>
    (readsType_expect_closing (.inl rfl)).ends fun _ => .value elems

/-- What stands behind an opening bracket, up to the one that closes it. -/
theorem readsType_advance_opening {q : Parser α} {symbol : Symbol}
    (hsymbol : symbol = .leftParen ∨ symbol = .leftBracket) (hq : q.ReadsType 1)
    (hs : s.kind = .symbol symbol) : (q setting s.advance).ReadsType 0 s.rest := by
  obtain ⟨lexeme, hlexeme, hrest⟩ := rest_eq_of_kind hs
  rw [hrest]
  refine (hq setting s.advance).imp (fun _ _ h => h.opening hlexeme hsymbol) fun _ h => h.cons ?_
  rw [hlexeme]
  rcases hsymbol with rfl | rfl <;> rfl

theorem readsType_expect_opening {q : Parser α} (hq : q.ReadsType 1) :
    (expect .leftParen >>= fun _ => q).ReadsType 0 := by
  intro setting s
  by_cases hopens : s.kind.isSymbol .leftParen = true
  · have hopen : expect .leftParen setting s = .ok () s.advance := by
      rw [expect, require_eq, if_pos hopens]
    rw [bind_ok hopen]
    exact readsType_advance_opening (.inl rfl) hq (TokenKind.eq_of_isSymbol hopens)
  · refine Reply.Ends.of_fails ?_
    rw [expect, require_eq, if_neg hopens]
    exact Lexeme.PassesOver.refl s.rest

/-! ## Types -/

theorem readsType_path : path.ReadsType 0 := by
  refine readsType_name.pass fun first => (readsType_collect ?_).pass fun more => .value _
  intro setting s
  rw [query_bind]
  split
  case isTrue hmore =>
    have hkind := TokenKind.eq_of_isSymbol (Bool.and_eq_true_iff.1 hmore).1
    rw [advance_bind]
    have h : Lexeme.ReadsType 0 s.rest s.advance.rest := readsType_advance (by rw [hkind]; rfl)
    refine Reply.Ends.bind ((readsType_name setting s.advance).imp (fun _ _ h' => h.trans h')
      fun _ h' => h.tokens.trans h') fun part after h => h
  case isFalse => exact .refl s.rest

theorem readsType_typeArgs (hg : g.ReadsTypes) : (typeArgs g).ReadsType 0 :=
  readsType_angleList hg.type

theorem readsType_bound (hg : g.ReadsTypes) : (bound g).ReadsType 0 :=
  .start fun _ => readsType_path.pass fun _ => (readsType_typeArgs hg).pass fun _ => .part

theorem readsType_bounds (hg : g.ReadsTypes) : (bounds g).ReadsType 0 := by
  refine (readsType_bound hg).pass fun first => (readsType_collect ?_).pass fun more => .value _
  refine (readsType_accept rfl).pass fun found => ?_
  split
  · exact (readsType_bound hg).pass fun next => .value _
  · exact .value _

theorem readsType_resultType (hg : g.ReadsTypes) : (resultType g).ReadsType 0 :=
  readsType_optional (readsType_accept rfl) hg.type

theorem readsType_parenType (hg : g.ReadsTypes) {start : Nat} (hs : s.kind = .symbol .leftParen) :
    (parenType g start setting s).ReadsType 0 s.rest := by
  rw [parenType, advance_bind]
  refine readsType_advance_opening (.inl rfl) ?_ hs
  intro setting s
  by_cases hclose : s.kind.isSymbol .rightParen = true
  · have hfound : accept .rightParen setting s = .ok true s.advance := by
      rw [accept, acceptIf_eq, if_pos hclose]
    obtain ⟨lexeme, hlexeme, hrest⟩ := rest_eq_of_kind (TokenKind.eq_of_isSymbol hclose)
    rw [bind_ok hfound, hrest]
    exact Lexeme.ReadsType.closing hlexeme (.inl rfl)
  · have hfound : accept .rightParen setting s = .ok false s := by
      rw [accept, acceptIf_eq, if_neg hclose]
    rw [bind_ok hfound]
    refine Parser.ReadsType.pass hg.type (fun first => ?_) setting s
    refine (readsType_accept rfl).pass fun several => ?_
    split
    · exact (readsType_parenList hg.type).ends fun more => .node
    · exact (readsType_expect_closing (.inl rfl)).ends fun _ => .value first

/-- The length of an array, and the bracket behind it. -/
theorem readsType_length {q : Option UInt64 → Parser α} (hq : ∀ length, (q length).ReadsType 0) :
    (optional (accept .semicolon) integer >>= fun length =>
      expect .rightBracket >>= fun _ => q length).ReadsType 1 := by
  have hclose (length : Option UInt64) :
      (expect .rightBracket >>= fun _ => q length).ReadsType 1 :=
    (readsType_expect_closing (.inr rfl)).ends fun _ => hq length
  intro setting s
  by_cases hlength : s.kind.isSymbol .semicolon = true
  · have hkind := TokenKind.eq_of_isSymbol hlength
    obtain ⟨lexeme, hlexeme, hrest⟩ := rest_eq_of_kind hkind
    have hfound : acceptIf (·.isSymbol .semicolon) setting s = .ok true s.advance := by
      rw [acceptIf_eq, if_pos hlength]
    cases hnext : s.advance.kind with
    | int value =>
      have hinteger : integer setting s.advance = .ok value s.advance.advance := by
        rw [integer, valueOf_eq, hnext]
      have hoptional : optional (accept .semicolon) integer setting s =
          .ok (some value) s.advance.advance := by
        rw [optional, accept, bind_ok hfound]
        exact bind_ok hinteger
      have hread : Lexeme.ReadsType 0 s.advance.rest s.advance.advance.rest :=
        readsType_advance (by rw [hnext]; rfl)
      rw [bind_ok hoptional, hrest]
      refine (hclose _ setting s.advance.advance).imp (fun _ _ h => ?_) fun _ h => ?_
      · exact .length hlexeme hnext (by simpa using hread.trans h)
      · exact (hread.tokens.trans h).cons (by rw [hlexeme]; rfl)
    | _ =>
      refine Reply.Ends.of_fails ?_
      rw [optional, accept, bind_ok hfound]
      refine Reply.Ends.of_fails ?_
      rw [integer, valueOf_eq, hnext, hrest]
      exact (Lexeme.PassesOver.refl s.advance.rest).cons (by rw [hlexeme]; rfl)
  · have hnone : acceptIf (·.isSymbol .semicolon) setting s = .ok false s := by
      rw [acceptIf_eq, if_neg hlength]
    have hoptional : optional (accept .semicolon) integer setting s = .ok none s := by
      rw [optional, accept, bind_ok hnone]
      rfl
    rw [bind_ok hoptional]
    exact hclose none setting s

theorem readsType_bracketType (hg : g.ReadsTypes) (hs : s.kind = .symbol .leftBracket) :
    (bracketType g setting s).ReadsType 0 s.rest := by
  rw [bracketType, advance_bind]
  refine readsType_advance_opening (.inr rfl) (hg.type.pass fun elem => ?_) hs
  refine readsType_length fun length => ?_
  cases length with
  | some length => exact .value _
  | none => exact .value _

theorem readsType_functionType (hg : g.ReadsTypes) (hs : s.kind = .keyword .fnKw) :
    (functionType g setting s).ReadsType 0 s.rest := by
  have hne : s.kind ≠ .endOfFile := by
    rw [hs]
    exact nofun
  obtain ⟨lexeme, hlexeme, hrest⟩ := exists_lexeme hne
  rw [functionType, advance_bind, hrest]
  have hrest : Parser.ReadsType 0 (expect .leftParen >>= fun _ => commaList .rightParen g.type >>=
      fun params => resultType g >>= fun ret => (pure (.function params ret) : Parser TypeKind)) :=
    readsType_expect_opening ((readsType_parenList hg.type).ends fun params =>
      (readsType_resultType hg).pass fun ret => .value _)
  by_cases hopens : s.advance.kind.isSymbol .leftParen = true
  · refine (hrest setting s.advance).imp (fun _ _ h => ?_) fun _ h => h.cons ?_
    · exact h.function (hlexeme.trans hs) (TokenKind.eq_of_isSymbol hopens)
    · rw [hlexeme, hs]
      rfl
  · refine Reply.Ends.of_fails ?_
    rw [expect, require_eq, if_neg hopens]
    exact (Lexeme.PassesOver.refl s.advance.rest).cons (by rw [hlexeme, hs]; rfl)

theorem readsType_pointerType (hg : g.ReadsTypes) (hs : s.kind = .symbol .star) :
    (pointerType g setting s).ReadsType 0 s.rest := by
  have hstar : Lexeme.ReadsType 0 s.rest s.advance.rest := readsType_advance (by rw [hs]; rfl)
  have hpointee (mutability : Option PointerMutability) :
      Parser.ReadsType 0 (do pure (.pointer mutability (← g.type)) : Parser TypeKind) :=
    hg.type.pass fun pointee => .value _
  rw [pointerType, advance_bind]
  by_cases hconst : s.advance.kind.isKeyword .constKw = true
  · have hfound : acceptKeyword .constKw setting s.advance = .ok true s.advance.advance := by
      rw [acceptKeyword, acceptIf_eq, if_pos hconst]
    have hne : s.advance.kind ≠ .endOfFile := by
      intro heq
      rw [heq] at hconst
      cases hconst
    have hkind : s.advance.kind = .keyword .constKw := by
      cases hk : s.advance.kind <;> simp_all [TokenKind.isKeyword]
    obtain ⟨lexeme, hlexeme, hrest⟩ := exists_lexeme hne
    rw [bind_ok hfound]
    refine Reply.ReadsType.behind ?_ hstar
    rw [hrest]
    have hread := hg.type setting s.advance.advance
    have hstarts := hg.starts setting s.advance.advance
    have hconsumes := hg.consumes setting s.advance.advance 0
    change ((g.type >>= fun type => pure _ : Parser TypeKind) setting s.advance.advance).Ends _ _
    cases hreply : g.type setting s.advance.advance with
    | ok type after =>
      rw [hreply] at hread hstarts hconsumes
      rw [bind_ok hreply]
      refine Lexeme.ReadsType.pointer (hlexeme.trans hkind) hstarts (fun heq => ?_) hread
      exact absurd (hconsumes.shorter rfl) (by rw [heq]; exact Nat.lt_irrefl _)
    | fail e after =>
      rw [hreply] at hread
      refine Reply.Ends.of_fails ?_
      rw [hreply]
      exact Lexeme.PassesOver.cons (by rw [hlexeme, hkind]; rfl) hread
  · have hfound : acceptKeyword .constKw setting s.advance = .ok false s.advance := by
      rw [acceptKeyword, acceptIf_eq, if_neg hconst]
    have hmut : (acceptWord "mut").ReadsType 0 := by
      refine readsType_acceptIf fun k h => ?_
      cases k with
      | ident _ => rfl
      | _ => cases h
    rw [bind_ok hfound]
    have hrest : Parser.ReadsType 0 (do
        if ← acceptWord "mut" then pure (.pointer (some .mut) (← g.type))
        else pure (.pointer none (← g.type)) : Parser TypeKind) := by
      refine hmut.pass fun isMut => ?_
      split
      · exact hpointee _
      · exact hpointee _
    exact (hrest setting s.advance).imp (fun _ _ h => hstar.trans h) fun _ h => hstar.tokens.trans h

theorem readsType_traitObjectType (hg : g.ReadsTypes) (hs : s.kind = .keyword .dynKw) :
    (traitObjectType g setting s).ReadsType 0 s.rest := by
  have hdyn : Lexeme.ReadsType 0 s.rest s.advance.rest := readsType_advance (by rw [hs]; rfl)
  rw [traitObjectType, advance_bind]
  refine Reply.ReadsType.behind ?_ hdyn
  by_cases hopens : s.advance.kind.isSymbol .leftParen = true
  · have hfound : accept .leftParen setting s.advance = .ok true s.advance.advance := by
      rw [accept, acceptIf_eq, if_pos hopens]
    rw [bind_ok hfound]
    refine readsType_advance_opening (.inl rfl) ?_ (TokenKind.eq_of_isSymbol hopens)
    exact (readsType_bounds hg).pass fun bounds =>
      (readsType_expect_closing (.inl rfl)).ends fun _ => .value _
  · have hfound : accept .leftParen setting s.advance = .ok false s.advance := by
      rw [accept, acceptIf_eq, if_neg hopens]
    rw [bind_ok hfound]
    have honly : Parser.ReadsType 0 (do pure (.traitObject [← bound g]) : Parser TypeKind) :=
      (readsType_bound hg).pass fun only => .value _
    exact honly setting s.advance

theorem readsType_namedType (hg : g.ReadsTypes) : (namedType g).ReadsType 0 :=
  readsType_path.pass fun _ => (readsType_typeArgs hg).pass fun _ => .value _

theorem readsType_typeRule (hg : g.ReadsTypes) : (typeRule g).ReadsType 0 := by
  intro setting s
  have hfinish {kind : Parser TypeKind} (h : (kind setting s).ReadsType 0 s.rest) :
      ((kind >>= fun kind => node (s.span setting).start fun id span => (⟨id, span, kind⟩ : TypeExpr))
        setting s).ReadsType 0 s.rest :=
    Reply.Ends.bind h fun _ _ h => h
  rw [typeRule, start_bind, kind_bind]
  generalize hkind : s.kind = kind
  split
  case h_1 => exact hfinish (readsType_namedType hg setting s)
  case h_2 => exact readsType_parenType hg hkind
  case h_3 => exact hfinish (readsType_bracketType hg hkind)
  case h_4 => exact hfinish (readsType_functionType hg hkind)
  case h_5 => exact hfinish (readsType_pointerType hg hkind)
  case h_6 => exact hfinish (readsType_traitObjectType hg hkind)
  case h_7 => exact Lexeme.PassesOver.refl s.rest

end Parser

theorem Rules.readsTypes_within (levels : Nat) : (Rules.within levels).ReadsTypes := by
  induction levels with
  | zero =>
    exact ⟨fun _ s => Lexeme.PassesOver.refl s.rest, (Rules.follow_within 0).type, fun _ _ => trivial⟩
  | succ levels ih =>
    refine ⟨fun setting s => ?_, (Rules.follow_within (levels + 1)).type, fun setting s => ?_⟩
    · change (nested (typeRule (.within levels)) setting s).ReadsType 0 s.rest
      unfold nested
      split
      · exact Lexeme.PassesOver.refl s.rest
      · have h := readsType_typeRule ih setting { s with depth := s.depth + 1 }
        cases hreply : typeRule (.within levels) setting { s with depth := s.depth + 1 } with
        | ok t after =>
          rw [hreply] at h
          exact h
        | fail e after =>
          rw [hreply] at h
          exact h
    · change (nested (typeRule (.within levels)) setting s).Ends _ _
      unfold nested
      split
      · trivial
      · cases hreply : typeRule (.within levels) setting { s with depth := s.depth + 1 } with
        | ok t after =>
          intro hkind
          rw [typeRule, start_bind, kind_bind] at hreply
          rw [show State.kind { s with depth := s.depth + 1 } = .symbol .semicolon from hkind] at hreply
          cases hreply
        | fail e after => trivial

/-! ## Lambda heads -/

namespace Parser

/-- What has been read since a place is a number of parameters of a lambda, and what separates
them. -/
structure ReadsParams (rest rest' : List Lexeme) : Prop where
  tokens : Lexeme.PassesOver TokenKind.inHead rest rest'
  text : Lexeme.firstKind rest' ≠ .symbol .colon → ∀ stop depth, Lexeme.HeadText stop depth rest' →
    Lexeme.HeadText stop depth rest

theorem ReadsParams.refl (rest : List Lexeme) : ReadsParams rest rest := ⟨.refl rest, fun _ _ _ h => h⟩

theorem ReadsParams.ofType (h : Lexeme.ReadsType 0 rest rest') : ReadsParams rest rest' :=
  ⟨h.tokens.imp fun _ => TokenKind.inHead_of_inType, h.text⟩

/-- What does not start with a colon may follow. -/
theorem ReadsParams.trans (h : ReadsParams rest rest') (h' : ReadsParams rest' rest'')
    (hnext : rest' = rest'' ∨ Lexeme.firstKind rest' ≠ .symbol .colon) : ReadsParams rest rest'' := by
  refine ⟨h.tokens.trans h'.tokens, fun hcolon stop depth htext => ?_⟩
  refine h.text ?_ stop depth (h'.text hcolon stop depth htext)
  obtain rfl | hnext := hnext
  · exact hcolon
  · exact hnext

theorem ReadsParams.name {word : String} (hkind : lexeme.token.kind = .ident word)
    (h : ReadsParams rest rest') : ReadsParams (lexeme :: rest) rest' :=
  ⟨h.tokens.cons (by rw [hkind]; rfl), fun hcolon stop depth htext =>
    (h.text hcolon stop depth htext).free (by rw [hkind]; rfl)⟩

theorem ReadsParams.colon (hkind : lexeme.token.kind = .symbol .colon)
    (h : ReadsParams rest rest') : ReadsParams (lexeme :: rest) rest' :=
  ⟨h.tokens.cons (by rw [hkind]; rfl), fun hcolon stop depth htext =>
    .mark hkind rfl nofun (h.text hcolon stop depth htext)⟩

theorem readsParams_typeAfterColon (hg : g.ReadsTypes) : (typeAfterColon g setting s).Ends
    (fun _ after => ReadsParams s.rest after.rest)
    fun after => Lexeme.PassesOver TokenKind.inHead s.rest after.rest := by
  by_cases hs : s.kind.isSymbol .colon = true
  · have hfound : accept .colon setting s = .ok true s.advance := by
      rw [accept, acceptIf_eq, if_pos hs]
    obtain ⟨lexeme, hlexeme, hrest⟩ := rest_eq_of_kind (TokenKind.eq_of_isSymbol hs)
    rw [typeAfterColon, optional, bind_ok hfound, hrest]
    refine Reply.Ends.bind ((hg.type setting s.advance).imp (fun _ _ h => h) fun _ h => ?_)
      fun type after h => .colon hlexeme (.ofType h)
    exact (h.imp fun _ => TokenKind.inHead_of_inType).cons (by rw [hlexeme]; rfl)
  · have hfound : accept .colon setting s = .ok false s := by
      rw [accept, acceptIf_eq, if_neg hs]
    rw [typeAfterColon, optional, bind_ok hfound]
    exact .refl s.rest

theorem readsParams_lambdaParam (hg : g.ReadsTypes) : (lambdaParam g setting s).Ends
    (fun _ after => ReadsParams s.rest after.rest ∧ s.kind ≠ .symbol .colon)
    fun after => Lexeme.PassesOver TokenKind.inHead s.rest after.rest := by
  rw [lambdaParam, start_bind]
  have hname : (name setting s).Ends
      (fun _ after => ∃ word lexeme, s.kind = .ident word ∧ lexeme.token.kind = .ident word ∧
        s.rest = lexeme :: after.rest)
      fun after => Lexeme.PassesOver TokenKind.inHead s.rest after.rest := by
    rw [name, valueOf_eq]
    cases hs : s.kind with
    | ident word =>
      obtain ⟨lexeme, hlexeme, hrest⟩ := exists_lexeme (s := s) (by rw [hs]; exact nofun)
      exact ⟨word, lexeme, rfl, hlexeme.trans hs, hrest⟩
    | _ => exact Lexeme.PassesOver.refl s.rest
  refine Reply.Ends.bind hname fun _ s₁ ⟨word, lexeme, hs, hlexeme, hrest⟩ => ?_
  rw [hrest, hs]
  refine Reply.Ends.bind ((readsParams_typeAfterColon hg).imp (fun _ _ h => h) fun _ h => ?_)
    fun type s₂ h => ⟨.name hlexeme h, nofun⟩
  exact h.cons (by rw [hlexeme]; rfl)

/-- One parameter, and a comma if one follows. -/
theorem readsParams_turn (hg : g.ReadsTypes) :
    (commaTurn .rightParen (lambdaParam g) setting s).Ends
      (fun _ after => ReadsParams s.rest after.rest ∧
        (s.rest = after.rest ∨ s.kind ≠ .symbol .colon))
      fun after => Lexeme.PassesOver TokenKind.inHead s.rest after.rest := by
  rw [commaTurn]
  change ((if s.kind.isSymbol .rightParen = true then _ else _ : Parser _) setting s).Ends _ _
  split
  · exact ⟨.refl s.rest, .inl rfl⟩
  · refine Reply.Ends.bind (readsParams_lambdaParam hg) fun param s₁ ⟨h, hcolon⟩ => ?_
    refine Reply.Ends.bind ((readsType_accept rfl setting s₁).imp (fun _ _ h => h) fun _ h' =>
      h.tokens.trans (h'.imp fun _ => TokenKind.inHead_of_inType)) fun found s₂ h' => ?_
    refine ⟨h.trans (.ofType h') ?_, .inr hcolon⟩
    by_cases hne : s₁.rest = s₂.rest
    · exact .inl hne
    · obtain ⟨before, heq, hbefore⟩ := h'.tokens
      cases before with
      | nil => exact absurd heq hne
      | cons lexeme before =>
        refine .inr ?_
        rw [heq]
        exact TokenKind.ne_colon_of_inType (hbefore lexeme List.mem_cons_self)

theorem readsParams_turns (hg : g.ReadsTypes) :
    (collect (commaTurn .rightParen (lambdaParam g)) setting s).Ends
      (fun _ after => ReadsParams s.rest after.rest)
      fun after => Lexeme.PassesOver TokenKind.inHead s.rest after.rest := by
  have hturns : (loop (collectTurn (commaTurn .rightParen (lambdaParam g))) [] setting s).Ends
      (fun _ after => ReadsParams s.rest after.rest)
      fun after => Lexeme.PassesOver TokenKind.inHead s.rest after.rest := by
    refine ends_loop (fun _ after => ReadsParams s.rest after.rest) (fun turns s' h => ?_)
      (.refl s.rest)
    refine Reply.Ends.bind ((readsParams_turn hg).imp (fun _ _ h' => h.trans h'.1 h'.2)
      fun _ h' => h.tokens.trans h') fun r after h => h
  exact Reply.Ends.bind hturns fun turns after h => h

/-- The text of a head that has been read, behind its first parenthesis and up to its arrow.  Where no
head can be read, no arrow of one is passed over. -/
theorem readsHead_lambdaHead (setting : Setting) (s : State) (hg : g.ReadsTypes) :
    (lambdaHead g setting s).Ends
    (fun _ after => ∃ arrow, arrow.token.kind = .symbol .fatArrow ∧
      Lexeme.HeadText (arrow :: after.rest) 0 (s.rest.drop 1))
    fun after => Lexeme.PassesOver TokenKind.inHead s.rest after.rest := by
  rw [lambdaHead]
  have hopen : (expect .leftParen setting s).Ends
      (fun _ after => ∃ lexeme, lexeme.token.kind = .symbol .leftParen ∧ s.rest = lexeme :: after.rest)
      fun after => Lexeme.PassesOver TokenKind.inHead s.rest after.rest := by
    rw [expect, require_eq]
    split
    case isTrue h => exact rest_eq_of_kind (TokenKind.eq_of_isSymbol h)
    case isFalse => exact Lexeme.PassesOver.refl s.rest
  refine Reply.Ends.bind hopen fun _ s₁ h₁ => ?_
  obtain ⟨opening, hopening, hrest⟩ := h₁
  rw [hrest]
  have hcons {rest : List Lexeme} (h : Lexeme.PassesOver TokenKind.inHead s₁.rest rest) :
      Lexeme.PassesOver TokenKind.inHead (opening :: s₁.rest) rest := h.cons (by rw [hopening]; rfl)
  have himp {rest rest' : List Lexeme} (h : Lexeme.PassesOver TokenKind.inType rest rest') :
      Lexeme.PassesOver TokenKind.inHead rest rest' := h.imp fun _ => TokenKind.inHead_of_inType
  -- the parameters and the bracket behind them
  refine Reply.Ends.bind (?_ : Reply.Ends (fun _ after =>
      Lexeme.PassesOver TokenKind.inHead s₁.rest after.rest ∧
        ∀ stop, Lexeme.HeadText stop 0 after.rest → Lexeme.HeadText stop 0 s₁.rest) _ _)
    fun params s₃ h => ?_
  · refine Reply.Ends.bind ((readsParams_turns hg).imp (fun _ _ h => h) fun _ h => hcons h)
      fun params s₂ h₂ => ?_
    have hclose : (expect .rightParen setting s₂).Ends
        (fun _ after => ∃ lexeme, lexeme.token.kind = .symbol .rightParen ∧
          s₂.rest = lexeme :: after.rest) fun after => after.rest = s₂.rest := by
      rw [expect, require_eq]
      split
      case isTrue h => exact rest_eq_of_kind (TokenKind.eq_of_isSymbol h)
      case isFalse => rfl
    refine Reply.Ends.bind (hclose.imp (fun _ _ h => h) fun _ h => h ▸ hcons h₂.tokens)
      fun _ s₃ h => ?_
    obtain ⟨closing, hclosing, hrest₂⟩ := h
    refine ⟨h₂.tokens.trans ?_, fun stop htext => h₂.text ?_ stop 0 ?_⟩
    · rw [hrest₂]
      exact (Lexeme.PassesOver.refl s₃.rest).cons (by rw [hclosing]; rfl)
    · rw [hrest₂]
      change closing.token.kind ≠ _
      rw [hclosing]
      simp
    · rw [hrest₂]
      exact .mark hclosing rfl (by decide) htext
  · obtain ⟨h₃, htext₃⟩ := h
    refine Reply.Ends.bind ((readsType_resultType hg setting s₃).imp (fun _ _ h => h) fun _ h =>
      hcons (h₃.trans (himp h))) fun ret s₄ h₄ => ?_
    have harrow : (expect .fatArrow setting s₄).Ends
        (fun _ after => ∃ lexeme, lexeme.token.kind = .symbol .fatArrow ∧
          s₄.rest = lexeme :: after.rest) fun after => after.rest = s₄.rest := by
      rw [expect, require_eq]
      split
      case isTrue h => exact rest_eq_of_kind (TokenKind.eq_of_isSymbol h)
      case isFalse => rfl
    refine Reply.Ends.bind (harrow.imp (fun _ _ h => h) fun _ h =>
      h ▸ hcons (h₃.trans (himp h₄.tokens))) fun _ s₅ h₅ => ?_
    obtain ⟨arrow, harrow, hrest₄⟩ := h₅
    refine ⟨arrow, harrow, htext₃ _ ?_⟩
    have htext := h₄.text (by rw [hrest₄]; change arrow.token.kind ≠ _; rw [harrow]; simp)
      (arrow :: s₅.rest) 0 (hrest₄ ▸ .stop 0)
    exact htext

end Parser

end ActorFrontend
