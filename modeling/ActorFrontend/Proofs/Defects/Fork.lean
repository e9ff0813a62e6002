import ActorFrontend.Proofs.Alike.Items

/-!
# Up to an opening brace

What stands before the body of a declaration is read without regard to that body.  Two inputs that are
the same up to and including an opening brace are compared: the parts of a head answer alike in both,
and stop before the brace.
-/

namespace ActorFrontend

open ActorFrontend.Parser

variable {α β σ : Type}

/-- Two inputs that go different ways behind an opening brace. -/
structure Fork where
  brace : Lexeme
  left : List Lexeme
  right : List Lexeme
  setting : Setting
  setting' : Setting
  opens : brace.token.kind = .symbol .leftBrace
  limits : setting.limits = setting'.limits

/-- Two states that differ only in what follows the next opening brace, where the inputs part. -/
structure Fork.Before (fork : Fork) (s s' : State) : Prop where
  rest : ∃ ts, (∀ lexeme ∈ ts, lexeme.token.kind ≠ .symbol .leftBrace) ∧
    s.rest = ts ++ fork.brace :: fork.left ∧ s'.rest = ts ++ fork.brace :: fork.right
  same : s' = { s with rest := s'.rest }

namespace Fork.Before

variable {fork : Fork} {s s' : State}

theorem kind_eq (h : fork.Before s s') : s.kind = s'.kind := by
  obtain ⟨ts, -, hrest, hrest'⟩ := h.rest
  rw [State.kind, State.kind, hrest, hrest']
  cases ts <;> rfl

theorem span_eq (h : fork.Before s s') : s.span fork.setting = s'.span fork.setting' := by
  obtain ⟨ts, -, hrest, hrest'⟩ := h.rest
  rw [State.span, State.span, hrest, hrest']
  cases ts <;> rfl

/-- A change that does not concern the tokens. -/
theorem congr {t t' : State} (h : fork.Before s s') (hrest : t.rest = s.rest)
    (hrest' : t'.rest = s'.rest) (hsame : t' = { t with rest := t'.rest }) : fork.Before t t' :=
  ⟨by rw [hrest, hrest']; exact h.rest, hsame⟩

theorem advance (h : fork.Before s s') (hkind : s.kind ≠ .symbol .leftBrace) :
    fork.Before s.advance s'.advance := by
  obtain ⟨ts, hts, hrest, hrest'⟩ := h.rest
  cases ts with
  | nil =>
    rw [State.kind, hrest] at hkind
    exact absurd fork.opens hkind
  | cons lexeme ts =>
    have hadvance : s.advance = { s with
        rest := ts ++ fork.brace :: fork.left
        previousEnd := lexeme.token.span.stop } := by
      unfold State.advance
      rw [hrest]
      rfl
    have hadvance' : s'.advance = { s with
        rest := ts ++ fork.brace :: fork.right
        previousEnd := lexeme.token.span.stop } := by
      unfold State.advance
      rw [hrest', h.same]
      rfl
    rw [hadvance, hadvance']
    exact ⟨⟨ts, fun l hl => hts l (List.mem_cons_of_mem _ hl), rfl, rfl⟩, rfl⟩

/-- Where the brace is at hand. -/
theorem rest_of_kind (h : fork.Before s s') (hkind : s.kind = .symbol .leftBrace) :
    s.rest = fork.brace :: fork.left ∧ s'.rest = fork.brace :: fork.right := by
  obtain ⟨ts, hts, hrest, hrest'⟩ := h.rest
  cases ts with
  | nil => exact ⟨hrest, hrest'⟩
  | cons lexeme ts =>
    rw [State.kind, hrest] at hkind
    exact absurd hkind (hts lexeme List.mem_cons_self)

end Fork.Before

/-- Two readings that start with the same tokens up to the brace. -/
theorem Fork.before_initial (fork : Fork) {head : List Lexeme}
    (hhead : ∀ lexeme ∈ head, lexeme.token.kind ≠ .symbol .leftBrace) :
    fork.Before (.initial fork.setting (head ++ fork.brace :: fork.left))
      (.initial fork.setting' (head ++ fork.brace :: fork.right)) :=
  ⟨⟨head, hhead, rfl, rfl⟩, by cases head <;> rfl⟩

namespace Parser

/-- At a token of this kind the parser heeds nothing that follows the next opening brace, and does not
pass over that brace. -/
def Heedless (k : TokenKind) (p : Parser α) : Prop :=
  ∀ (fork : Fork) (s s' : State), s.kind = k → fork.Before s s' →
    ∀ a after, p fork.setting s = .ok a after →
      ∃ after', p fork.setting' s' = .ok a after' ∧ fork.Before after after'

namespace Heedless

variable {k : TokenKind} {p : Parser α} {q : α → Parser β}

/-! ## Steps -/

theorem value (a : α) : (pure a : Parser α).Heedless k := by
  intro fork s s' _ hs b after hreply
  obtain ⟨rfl, rfl⟩ := Reply.ok.inj hreply
  exact ⟨s', rfl, hs⟩

theorem bind (hp : p.Heedless k) (hq : ∀ a k, (q a).Heedless k) : (p >>= q).Heedless k := by
  intro fork s s' hk hs b after hreply
  obtain ⟨a, t, hfirst, hthen⟩ := bind_eq_ok_iff.1 hreply
  obtain ⟨t', hfirst', ht⟩ := hp fork s s' hk hs a t hfirst
  rw [bind_ok hfirst']
  exact hq a _ fork t t' rfl ht b after hthen

theorem expected (wanted : Expected) : (expected wanted : Parser α).Heedless k :=
  fun _ _ _ _ _ _ _ => nofun

theorem tooDeep : (tooDeep : Parser α).Heedless k := fun _ _ _ _ _ _ _ => nofun

/-- Something that is not told apart by what follows the brace. -/
theorem query {f : State → α} (hf : ∀ fork s s', s.kind = k → Fork.Before fork s s' → f s = f s')
    (hq : ∀ s : State, s.kind = k → (q (f s)).Heedless k) : (Parser.query f >>= q).Heedless k := by
  intro fork s s' hk hs b after hreply
  rw [query_bind] at hreply ⊢
  rw [← hf fork s s' hk hs]
  exact hq s hk fork s s' hk hs b after hreply

theorem kind {q : TokenKind → Parser β} (hq : (q k).Heedless k) :
    (Parser.kind >>= q).Heedless k := by
  intro fork s s' hk hs b after hreply
  rw [kind_bind, hk] at hreply
  rw [kind_bind, ← hs.kind_eq, hk]
  exact hq fork s s' hk hs b after hreply

theorem start {q : Nat → Parser β} (hq : ∀ n, (q n).Heedless k) :
    (Parser.start >>= q).Heedless k := by
  intro fork s s' hk hs b after hreply
  rw [start_bind] at hreply ⊢
  rw [← hs.span_eq]
  exact hq _ fork s s' hk hs b after hreply

theorem spanFrom (start : Nat) : (Parser.spanFrom start).Heedless k := by
  intro fork s s' _ hs span after hreply
  obtain ⟨rfl, rfl⟩ := Reply.ok.inj hreply
  refine ⟨s', ?_, hs⟩
  rw [hs.same]
  rfl

theorem node (start : Nat) (make : NodeId → Span → α) : (Parser.node start make).Heedless k := by
  intro fork s s' _ hs a after hreply
  obtain ⟨rfl, rfl⟩ := Reply.ok.inj hreply
  refine ⟨{ s' with nextId := s'.nextId + 1 }, ?_, hs.congr rfl rfl (by rw [hs.same])⟩
  rw [hs.same]
  rfl

theorem advance (hk : k ≠ .symbol .leftBrace) : Parser.advance.Heedless k := by
  rintro fork s s' rfl hs u after hreply
  obtain ⟨rfl, rfl⟩ := Reply.ok.inj hreply
  exact ⟨s'.advance, rfl, hs.advance hk⟩

theorem nested (hp : ∀ k, p.Heedless k) : (Parser.nested p).Heedless k := by
  intro fork s s' _ hs a after hreply
  have hdepth : s'.depth = s.depth := by rw [hs.same]
  unfold Parser.nested at hreply ⊢
  rw [← fork.limits, hdepth]
  split at hreply
  case isTrue => cases hreply
  case isFalse hlevel =>
    rw [if_neg hlevel]
    obtain ⟨t, hinner, rfl⟩ := mapState_eq_ok_iff.1 hreply
    obtain ⟨t', hinner', ht⟩ := hp _ fork { s with depth := s.depth + 1 } { s' with depth := s.depth + 1 }
      rfl (hs.congr rfl rfl (by rw [hs.same])) a t hinner
    refine ⟨_, mapState_eq_ok_iff.2 ⟨t', hinner', rfl⟩, ht.congr rfl rfl ?_⟩
    rw [ht.same]

/-! ## Single tokens -/

theorem acceptIf {test : TokenKind → Bool} (htest : test (.symbol .leftBrace) = false) :
    (Parser.acceptIf test).Heedless k := by
  intro fork s s' hk hs a after hreply
  rw [acceptIf_eq] at hreply ⊢
  rw [← hs.kind_eq]
  split at hreply
  case isTrue hkind =>
    obtain ⟨rfl, rfl⟩ := Reply.ok.inj hreply
    rw [if_pos hkind]
    refine ⟨s'.advance, rfl, hs.advance fun hbrace => ?_⟩
    rw [hbrace, htest] at hkind
    cases hkind
  case isFalse hkind =>
    obtain ⟨rfl, rfl⟩ := Reply.ok.inj hreply
    rw [if_neg hkind]
    exact ⟨s', rfl, hs⟩

theorem require {test : TokenKind → Bool} (htest : test (.symbol .leftBrace) = false)
    (wanted : Expected) : (Parser.require test wanted).Heedless k := by
  refine .bind (.acceptIf htest) fun found _ => ?_
  split
  · exact .value ()
  · exact .expected wanted

theorem valueOf {value? : TokenKind → Option α} (hvalue : value? (.symbol .leftBrace) = none)
    (wanted : Expected) : (Parser.valueOf value? wanted).Heedless k := by
  refine .kind ?_
  split
  case h_1 a hk =>
    refine .bind (.advance fun hbrace => ?_) fun _ _ => .value a
    rw [hbrace, hvalue] at hk
    cases hk
  case h_2 => exact .expected wanted

theorem name : Parser.name.Heedless k := .valueOf rfl _

/-! ## Repetition and lists -/

theorem loop {step : σ → Parser (Bool × σ)} (hprogresses : Progresses step)
    (hstep : ∀ a k, (step a).Heedless k) (a : σ) : (Parser.loop step a).Heedless k := by
  intro fork s s' hk hs b after hreply
  clear hk
  generalize hn : s.rest.length = n
  induction n using Nat.strongRecOn generalizing a s s' with
  | _ n ih =>
    subst hn
    rw [loop_eq hprogresses] at hreply
    rw [loop_eq hprogresses]
    cases hturn : step a fork.setting s with
    | fail e t =>
      rw [hturn] at hreply
      cases hreply
    | ok r t =>
      obtain ⟨again, c⟩ := r
      obtain ⟨t', hturn', ht⟩ := hstep a _ fork s s' rfl hs _ t hturn
      rw [hturn] at hreply
      rw [hturn']
      cases again with
      | false =>
        obtain ⟨rfl, rfl⟩ := Reply.ok.inj hreply
        exact ⟨t', rfl, ht⟩
      | true => exact ih _ (hprogresses _ _ _ _ _ hturn) c t t' ht hreply rfl

theorem collect {step : Parser (Bool × List α)} {loud : Bool} (hfollows : step.Follows loud Prod.fst)
    (hstep : ∀ k, step.Heedless k) : (Parser.collect step).Heedless k := by
  refine .bind (.loop (progresses (follows_collectTurn hfollows)) (fun turns k => ?_) [])
    fun turns _ => .value _
  exact .bind (hstep k) fun r _ => .value _

theorem optional {test : TokenKind → Bool} (htest : test (.symbol .leftBrace) = false)
    (hp : ∀ k, p.Heedless k) : (Parser.optional (Parser.acceptIf test) p).Heedless k := by
  refine .bind (.acceptIf htest) fun found k => ?_
  split
  · exact .bind (hp k) fun a _ => .value _
  · exact .value none

theorem listIf {test : TokenKind → Bool} {p : Parser (List α)}
    (htest : test (.symbol .leftBrace) = false) (hp : ∀ k, p.Heedless k) :
    (Parser.listIf (Parser.acceptIf test) p).Heedless k := by
  refine .bind (.acceptIf htest) fun found k => ?_
  split
  · exact hp k
  · exact .value []

theorem commaList {loud : Bool} {close : Symbol} (helem : p.MayConsume loud)
    (hclose : close ≠ .leftBrace) (hp : ∀ k, p.Heedless k) :
    (Parser.commaList close p).Heedless k := by
  have hsees (k : TokenKind) : (commaTurn close p).Heedless k := by
    refine .query (fun fork s s' _ hs => by rw [hs.kind_eq]) fun s _ => ?_
    split
    · exact .value _
    · refine .bind (hp k) fun a _ => .bind (.acceptIf rfl) fun again _ => .value _
  refine .bind (.collect (follows_commaTurn helem close) hsees) fun elems _ => ?_
  refine .bind (.require ?_ _) fun _ _ => .value elems
  simpa [TokenKind.isSymbol] using hclose.symm

end Heedless

end Parser

/-- Types are read without regard to what follows the next opening brace. -/
structure Rules.Heedless (g : Rules) : Prop where
  follows : g.type.Consumes false
  type : ∀ k, g.type.Heedless k

namespace Parser

variable {k : TokenKind} {g : Rules}

/-! ## Types -/

theorem heedless_path : path.Heedless k := by
  refine .bind .name fun first _ => ?_
  refine .bind (.collect (@follows_pathTurn false) fun k => ?_) fun more _ => .value _
  refine .query (fun fork s s' hk hs => ?_) fun s hk => ?_
  · rw [← hs.kind_eq]
    cases hsymbol : s.kind.isSymbol .colonColon with
    | false => rfl
    | true =>
      have hkind := TokenKind.eq_of_isSymbol hsymbol
      rw [← kind_advance, ← kind_advance, (hs.advance (by simp [hkind])).kind_eq]
  · split
    case isTrue hg.followss =>
      rw [TokenKind.eq_of_isSymbol (Bool.and_eq_true_iff.1 hg.followss).1] at hk
      subst hk
      exact .bind (.advance nofun) fun _ _ => .bind .name fun part _ => .value _
    case isFalse => exact .value _

section

variable (hg : g.Heedless)
include hg

theorem heedless_typeArgs : (typeArgs g).Heedless k :=
  .listIf rfl fun _ => .commaList hg.follows.mayConsume nofun hg.type

theorem heedless_bound : (bound g).Heedless k := by
  refine .start fun start => ?_
  refine .bind heedless_path fun path _ => ?_
  refine .bind (heedless_typeArgs hg) fun args _ => ?_
  exact .bind (.spanFrom start) fun span _ => .value _

theorem heedless_bounds : (bounds g).Heedless k := by
  refine .bind (heedless_bound hg) fun first _ => ?_
  refine .bind (.collect (follows_boundTurn hg.follows) fun k => ?_) fun more _ => .value _
  refine .bind (.acceptIf rfl) fun found k => ?_
  split
  · exact .bind (heedless_bound hg) fun next _ => .value _
  · exact .value _

theorem heedless_boundsAfterColon : (boundsAfterColon g).Heedless k :=
  .listIf rfl fun _ => heedless_bounds hg

theorem heedless_typeParam : (typeParam g).Heedless k := by
  refine .start fun start => ?_
  refine .bind .name fun name _ => ?_
  refine .bind (heedless_boundsAfterColon hg) fun bounds _ => ?_
  exact .bind (.spanFrom start) fun span _ => .value _

theorem heedless_typeParams : (typeParams g).Heedless k :=
  .listIf rfl fun _ => .commaList (consumes_typeParam hg.follows).mayConsume nofun fun _ =>
    heedless_typeParam hg

theorem heedless_wherePredicate : (wherePredicate g).Heedless k := by
  refine .start fun start => ?_
  refine .bind (hg.type k) fun type _ => ?_
  refine .bind (.require rfl _) fun _ _ => ?_
  refine .bind (heedless_bounds hg) fun bounds _ => ?_
  exact .bind (.spanFrom start) fun span _ => .value _

theorem heedless_whereClause : (whereClause g).Heedless k := by
  refine .listIf rfl fun _ => .collect (follows_whereTurn hg.follows) fun k => ?_
  refine .bind (heedless_wherePredicate hg) fun predicate _ => ?_
  refine .bind (.acceptIf rfl) fun found k => ?_
  split
  · exact .query (fun fork s s' _ hs => by rw [hs.kind_eq]) fun s _ => .value _
  · exact .value _

theorem heedless_resultType : (resultType g).Heedless k := .optional rfl hg.type

theorem heedless_parenType (start : Nat) : (parenType g start).Heedless (.symbol .leftParen) := by
  refine .bind (.advance nofun) fun _ _ => ?_
  refine .bind (.acceptIf rfl) fun empty _ => ?_
  split
  · exact .node start _
  · refine .bind (hg.type _) fun first _ => ?_
    refine .bind (.acceptIf rfl) fun more _ => ?_
    split
    · refine .bind (.commaList hg.follows.mayConsume nofun hg.type) fun more _ => ?_
      exact .node start _
    · exact .bind (.require rfl _) fun _ _ => .value first

theorem heedless_bracketType : (bracketType g).Heedless (.symbol .leftBracket) := by
  refine .bind (.advance nofun) fun _ _ => ?_
  refine .bind (hg.type _) fun elem _ => ?_
  refine .bind (.optional rfl fun _ => .valueOf rfl _) fun length _ => ?_
  refine .bind (.require rfl _) fun _ _ => ?_
  split
  · exact .value _
  · exact .value _

theorem heedless_functionType : (functionType g).Heedless (.keyword .fnKw) := by
  refine .bind (.advance nofun) fun _ _ => ?_
  refine .bind (.require rfl _) fun _ _ => ?_
  refine .bind (.commaList hg.follows.mayConsume nofun hg.type) fun params _ => ?_
  exact .bind (heedless_resultType hg) fun ret _ => .value _

theorem heedless_pointerType : (pointerType g).Heedless (.symbol .star) := by
  have hpointee (mutability : Option PointerMutability) (k : TokenKind) :
      (do pure (.pointer mutability (← g.type)) : Parser TypeKind).Heedless k :=
    .bind (hg.type k) fun type _ => .value _
  refine .bind (.advance nofun) fun _ _ => ?_
  refine .bind (.acceptIf rfl) fun isConst k => ?_
  split
  · exact hpointee _ k
  · refine .bind (.acceptIf rfl) fun isMut k => ?_
    split
    · exact hpointee _ k
    · exact hpointee _ k

theorem heedless_traitObjectType : (traitObjectType g).Heedless (.keyword .dynKw) := by
  refine .bind (.advance nofun) fun _ _ => ?_
  refine .bind (.acceptIf rfl) fun grouped _ => ?_
  split
  · refine .bind (heedless_bounds hg) fun bounds _ => ?_
    exact .bind (.require rfl _) fun _ _ => .value _
  · exact .bind (heedless_bound hg) fun only _ => .value _

theorem heedless_typeRule : (typeRule g).Heedless k := by
  refine .start fun start => .kind ?_
  have hfinish {kind : Parser TypeKind} (h : kind.Heedless k) :
      (do
        let kind ← kind
        node start fun id span => (⟨id, span, kind⟩ : TypeExpr)).Heedless k :=
    .bind h fun kind _ => .node start _
  split
  · refine hfinish (.bind heedless_path fun path _ => ?_)
    exact .bind (heedless_typeArgs hg) fun args _ => .value _
  · exact heedless_parenType hg start
  · exact hfinish (heedless_bracketType hg)
  · exact hfinish (heedless_functionType hg)
  · exact hfinish (heedless_pointerType hg)
  · exact hfinish (heedless_traitObjectType hg)
  · exact .expected _

end

end Parser

namespace Parser

variable {k : TokenKind} {g : Rules}

/-! ## Heads of declarations -/

theorem restriction?_eq_of_before {fork : Fork} {s s' : State} (h : fork.Before s s') :
    restriction? s = restriction? s' := by
  unfold restriction?
  rw [← h.kind_eq]
  cases hopen : s.kind.isSymbol .leftParen with
  | false => rfl
  | true =>
    have hs := TokenKind.eq_of_isSymbol hopen
    have hnext := h.advance (by simp [hs])
    rw [← kind_advance s, ← kind_advance s', ← hnext.kind_eq]
    by_cases hbrace : s.advance.kind = .symbol .leftBrace
    · simp [hbrace, restrictedVisibility?]
    · have hclose := (hnext.advance hbrace).kind_eq
      rw [kind_advance, kind_advance, peek_advance, peek_advance] at hclose
      rw [hclose]

theorem heedless_visibility : visibility.Heedless k := by
  rw [visibility_eq]
  refine .bind (.acceptIf rfl) fun found k => ?_
  split
  · refine .query (fun fork s s' _ hs => restriction?_eq_of_before hs) fun s _ => ?_
    cases restriction? s with
    | none => exact .value _
    | some vis =>
      refine .bind (.require rfl _) fun _ _ => ?_
      refine .bind .name fun _ _ => ?_
      exact .bind (.require rfl _) fun _ _ => .value _
  · exact .value _

theorem heedless_implHead (hg : g.Heedless) : (implHead g).Heedless k := by
  refine .bind (hg.type _) fun first _ => ?_
  refine .bind (.acceptIf rfl) fun found k => ?_
  split
  · have htrait : (traitOf first).Heedless k := by
      unfold traitOf
      cases first.kind with
      | named path args => exact .value _
      | _ => exact fun _ _ _ _ _ _ _ hreply => by cases hreply
    refine .bind htrait fun traitRef _ => ?_
    exact .bind (hg.type _) fun selfType _ => .value _
  · exact .value _

end Parser

theorem Rules.heedless_within (levels : Nat) : (Rules.within levels).Heedless := by
  induction levels with
  | zero => exact ⟨(Rules.follow_within 0).type, fun _ => .tooDeep⟩
  | succ levels ih =>
    exact ⟨(Rules.follow_within (levels + 1)).type, fun _ => .nested fun _ => heedless_typeRule ih⟩

end ActorFrontend
