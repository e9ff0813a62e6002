import ActorFrontend.Proofs.Alike.Kept
import ActorFrontend.Proofs.Nesting.Shell

/-!
# What a reading makes

A property of what nests in a tree may depend on how many levels are left where it is read.  If it is
kept where a level is entered and holds of every splice, it holds of all that is read.  The property
may be one that only readings without an error have.
-/

namespace ActorFrontend

variable {α β σ : Type} {setting : Setting} {s after : State} {loud : Bool} {n : Nat}

/-- Nothing has been recorded yet. -/
def State.Quiet (s : State) : Prop := s.errors = [] ∧ s.halted = false

/-- A significant token is one of the tokens. -/
theorem Lexeme.token_mem_of_mem_significant {ts : List Token} {lineBreak : Bool} {lexeme : Lexeme}
    (h : lexeme ∈ significant lineBreak ts) : lexeme.token ∈ ts := by
  induction ts generalizing lineBreak with
  | nil => cases h
  | cons t ts ih =>
    unfold significant at h
    split at h
    · exact List.mem_cons_of_mem t (ih h)
    · split at h
      · cases h
      · obtain rfl | h := List.mem_cons.1 h
        · exact List.mem_cons_self
        · exact List.mem_cons_of_mem t (ih h)

/-- The splice stands in the token. -/
def Token.HasSplice (t : Token) (tokens : List Token) (span : Span) : Prop :=
  ∃ fragments, t.kind = .interpolated fragments ∧ .splice tokens span ∈ fragments

/-- A property of what nests, and what is known of the tokens that it is read from. -/
structure Regime where
  limits : Limits
  known : Token → Prop
  /-- Only readings that record no error count. -/
  silent : Bool
  /-- What holds of the shells that are read where so many levels are left. -/
  good : Nat → Shell → Prop
  known_splice : ∀ {t : Token} {tokens : List Token} {span : Span}, known t →
    t.HasSplice tokens span → ∀ u ∈ tokens, known u
  good_succ : ∀ {n : Nat} {t : Shell}, good n t → good (n + 1) t
  good_nest : ∀ {n : Nat} {ts : List Shell}, (∀ t ∈ ts, good n t) → good (n + 1) (.nest ts)
  good_inner : ∀ {n : Nat} {ts : List Shell}, good n (.nest ts) → ∀ t ∈ ts, good n t
  good_splice : ∀ {n : Nat} {t : Token} {tokens : List Token} {span : Span} {setting : Setting}
    {s inner : State} {e : Expr}, n ≤ limits.maxDepth → known t → t.HasSplice tokens span →
    setting.limits = limits →
    Parser.wholeExpr (.within n) (.symbol .rightBrace) (setting.inSplice span)
      (s.inSplice (setting.inSplice span) tokens) = .ok e inner →
    (silent = true → inner.errors = []) → (∀ t ∈ shells e, good n t) →
    good n (.splice e (shells e))

variable {R : Regime}

/-- All of the shells have the property. -/
def Regime.All (R : Regime) (n : Nat) (ts : List Shell) : Prop := ∀ t ∈ ts, R.good n t

/-- All that nests in the data has the property. -/
@[simp] def Regime.Good (R : Regime) [Shelled α] (n : Nat) (a : α) : Prop := R.All n (shells a)

/-- The limits are those of the regime, and all tokens are known. -/
structure State.Holds (R : Regime) (setting : Setting) (s : State) : Prop where
  limits : setting.limits = R.limits
  known : ∀ lexeme ∈ s.rest, R.known lexeme.token

namespace State

theorem Holds.kept (h : s.Holds R setting) (hkept : s.Kept loud after) : after.Holds R setting where
  limits := h.limits
  known lexeme hlexeme := h.known lexeme (hkept.rest.subset hlexeme)

theorem Quiet.of_kept (h : after.Quiet) (hkept : s.Kept loud after) : s.Quiet := by
  have herrors : s.errors = [] := hkept.errors_eq_nil h.1
  exact ⟨herrors, (hkept.unspent (h.1.trans herrors.symm)).symm.trans h.2⟩

/-- Behind a splice nothing has been recorded only if nothing was in it. -/
theorem Quiet.of_leaveSplice {inner : State} (h : (Parser.leaveSplice setting s inner).Quiet) :
    s.Quiet ∧ inner.errors = [] := by
  have hs : s.Quiet := h.of_kept (.leaveSplice setting s inner)
  refine ⟨hs, ?_⟩
  cases herrors : inner.errors with
  | nil => rfl
  | cons error errors =>
    -- the first error would have been recorded
    have hfirst : ({ s with nextId := inner.nextId }.record setting error).Quiet := by
      unfold Parser.leaveSplice at h
      rw [herrors, List.foldl_cons] at h
      exact h.of_kept (.recordAll setting errors _)
    have hrecord := hfirst.1
    rw [State.record, if_neg (by simp [hs.2])] at hrecord
    simp at hrecord

end State

namespace Regime

variable {ts us : List Shell}

@[simp] theorem all_nil : R.All n [] := nofun

@[simp] theorem all_cons {t : Shell} : R.All n (t :: ts) ↔ R.good n t ∧ R.All n ts :=
  List.forall_mem_cons

@[simp] theorem all_append : R.All n (ts ++ us) ↔ R.All n ts ∧ R.All n us := List.forall_mem_append

theorem All.succ (h : R.All n ts) : R.All (n + 1) ts := fun t ht => R.good_succ (h t ht)

theorem all_nest (h : R.All n ts) : R.All (n + 1) [.nest ts] := all_cons.2 ⟨R.good_nest h, all_nil⟩

theorem good_list [Shelled α] {as : List α} : R.Good n as ↔ ∀ a ∈ as, R.Good n a := by
  constructor
  · exact fun h a ha t ht => h t (mem_shells_list.2 ⟨a, ha, ht⟩)
  · intro h t ht
    obtain ⟨a, ha, ht⟩ := mem_shells_list.1 ht
    exact h a ha t ht

theorem good_reverse [Shelled α] {as : List α} (h : R.Good n as) : R.Good n as.reverse :=
  good_list.2 fun a ha => good_list.1 h a (List.mem_reverse.1 ha)

theorem good_single [Shelled α] {a : α} (h : R.Good n a) : R.Good n [a] := by
  simpa using h

end Regime

namespace Parser

/-- The parser keeps what a reading keeps, and `good` holds of what it answers with. -/
structure Makes (R : Regime) (loud : Bool) (good : α → Prop) (p : Parser α) : Prop where
  keeps : p.Keeps loud
  makes : ∀ setting s a after, s.Holds R setting → p setting s = .ok a after →
    (R.silent = true → after.Quiet) → good a

namespace Makes

variable {p : Parser α} {good : α → Prop} {good' : β → Prop}

theorem of_keeps (h : p.Keeps loud) : Makes R loud (fun _ => True) p := ⟨h, fun _ _ _ _ _ _ _ => trivial⟩

theorem louder (h : Makes R loud good p) : Makes R true good p := ⟨h.keeps.louder fun _ => rfl, h.makes⟩

theorem imp {good' : α → Prop} (h : Makes R loud good p) (himp : ∀ a, good a → good' a) :
    Makes R loud good' p :=
  ⟨h.keeps, fun setting s a after hs hreply hquiet => himp a (h.makes setting s a after hs hreply hquiet)⟩

theorem value {a : α} (h : good a) : Makes R loud good (pure a) := by
  refine ⟨.pure a, fun setting s b after hs hreply hquiet => ?_⟩
  cases hreply
  exact h

/-- What the parser makes may depend on something that has nothing to do with the reading. -/
theorem assuming {P : Prop} (hkeeps : p.Keeps loud) (h : P → Makes R loud good p) :
    Makes R loud (fun a => P → good a) p :=
  ⟨hkeeps, fun setting s a after hs hreply hquiet hP => (h hP).makes setting s a after hs hreply hquiet⟩

theorem fails {e : Setting → State → ParseError} :
    Makes R loud good (fun setting s => .fail (e setting s) s : Parser α) :=
  ⟨fun _ s => .refl s, fun _ _ _ _ _ hreply => nomatch hreply⟩

theorem expected (wanted : Expected) : Makes R loud good (Parser.expected wanted : Parser α) := fails

/-- What the first part makes is known where the second one is done. -/
theorem bind {q : α → Parser β} (hp : Makes R loud good p)
    (hq : ∀ a, Makes R loud (fun b => good a → good' b) (q a)) : Makes R loud good' (p >>= q) where
  keeps := .bind hp.keeps fun a _ => (hq a).keeps
  makes := by
    intro setting s b after hs hreply hquiet
    have hkeeps := hp.keeps setting s
    have hmakes := hp.makes setting s
    change Parser.bind p q setting s = _ at hreply
    unfold Parser.bind at hreply
    cases hfirst : p setting s with
    | fail e s₁ =>
      rw [hfirst] at hreply
      cases hreply
    | ok a s₁ =>
      rw [hfirst] at hreply hkeeps
      have hreply : q a setting s₁ = .ok b after := hreply
      have hrest : s₁.Kept loud (q a setting s₁).state := (hq a).keeps setting s₁
      rw [hreply] at hrest
      exact (hq a).makes setting s₁ b after (hs.kept hkeeps) hreply hquiet
        (hmakes a s₁ hs hfirst fun hsilent => (hquiet hsilent).of_kept hrest)

/-- Nothing need be known of what the first part makes. -/
theorem pass {q : α → Parser β} (hp : p.Keeps loud) (hq : ∀ a, Makes R loud good' (q a)) :
    Makes R loud good' (p >>= q) :=
  .bind (of_keeps hp) fun a => (hq a).imp fun _ h _ => h

theorem query {f : State → α} {q : α → Parser β} (hq : ∀ a, Makes R loud good' (q a)) :
    Makes R loud good' (Parser.query f >>= q) := .pass (.query f) hq

theorem start {q : Nat → Parser β} (hq : ∀ a, Makes R loud good' (q a)) :
    Makes R loud good' (Parser.start >>= q) := .pass (fun _ s => .refl s) hq

theorem span {q : Span → Parser β} (hq : ∀ a, Makes R loud good' (q a)) :
    Makes R loud good' (Parser.span >>= q) := .pass (fun _ s => .refl s) hq

theorem kind {q : TokenKind → Parser β} (hq : ∀ a, Makes R loud good' (q a)) :
    Makes R loud good' (Parser.kind >>= q) := .query hq

/-- The kind of a token that is known. -/
theorem knownKind : Makes R loud (fun k => k ≠ .endOfFile → ∃ t, R.known t ∧ t.kind = k) Parser.kind := by
  refine ⟨.query _, fun setting s k after hs hreply _ hk => ?_⟩
  cases hreply
  unfold State.kind at hk ⊢
  cases hrest : s.rest with
  | nil =>
    rw [hrest] at hk
    exact absurd rfl hk
  | cons lexeme rest => exact ⟨lexeme.token, hs.known lexeme (by simp [hrest]), rfl⟩

theorem spanFrom {start : Nat} {q : Span → Parser β} (hq : ∀ a, Makes R loud good' (q a)) :
    Makes R loud good' (Parser.spanFrom start >>= q) := .query hq

theorem node {start : Nat} {make : NodeId → Span → α} (h : ∀ id span, good (make id span)) :
    Makes R loud good (Parser.node start make) :=
  .pass .freshId fun id => .spanFrom fun span => .value (h id span)

/-! ### Single tokens -/

theorem keeps_acceptIf (test : TokenKind → Bool) : (Parser.acceptIf test).Keeps loud := by
  refine .bind (.query _) fun found _ => ?_
  cases found with
  | true => exact .bind .advance fun _ _ => .pure _
  | false => exact .pure _

theorem keeps_require (test : TokenKind → Bool) (wanted : Expected) :
    (Parser.require test wanted).Keeps loud := by
  refine .bind (keeps_acceptIf test) fun found _ => ?_
  cases found with
  | true => exact .pure _
  | false => exact fun _ s => .refl s

theorem keeps_valueOf (value? : TokenKind → Option α) (wanted : Expected) :
    (Parser.valueOf value? wanted).Keeps loud := by
  refine .bind (.query _) fun kind _ => ?_
  cases value? kind with
  | some a => exact .bind .advance fun _ _ => .pure _
  | none => exact fun _ s => .refl s

theorem acceptIf {test : TokenKind → Bool} {q : Bool → Parser β}
    (hq : ∀ found, Makes R loud good' (q found)) : Makes R loud good' (Parser.acceptIf test >>= q) :=
  .pass (keeps_acceptIf test) hq

theorem require {test : TokenKind → Bool} {wanted : Expected} {q : Unit → Parser β}
    (hq : Makes R loud good' (q ())) : Makes R loud good' (Parser.require test wanted >>= q) :=
  .pass (keeps_require test wanted) fun _ => hq

theorem valueOf {value? : TokenKind → Option α} {wanted : Expected} {q : α → Parser β}
    (hq : ∀ a, Makes R loud good' (q a)) : Makes R loud good' (Parser.valueOf value? wanted >>= q) :=
  .pass (keeps_valueOf value? wanted) hq

theorem advance {q : Unit → Parser β} (hq : Makes R loud good' (q ())) :
    Makes R loud good' (Parser.advance >>= q) := .pass .advance fun _ => hq

theorem semicolon {q : Unit → Parser β} (hq : Makes R true good' (q ())) :
    Makes R true good' (Parser.semicolon >>= q) := .pass .semicolon fun _ => hq

/-! ### Contexts and levels -/

theorem inContext {f : Context → Context} (h : Makes R loud good p) :
    Makes R loud good (Parser.inContext f p) := by
  refine ⟨.inContext h.keeps, fun setting s a after hs hreply hquiet => ?_⟩
  unfold Parser.inContext Parser.withContext at hreply
  have hwithin : { s with context := f s.context }.Holds R setting := ⟨hs.limits, hs.known⟩
  cases hinner : p setting { s with context := f s.context } with
  | ok b inner =>
    rw [hinner] at hreply
    cases hreply
    exact h.makes setting _ a inner hwithin hinner hquiet
  | fail e inner =>
    rw [hinner] at hreply
    cases hreply

theorem enclosed (h : Makes R loud good p) : Makes R loud good (Parser.enclosed p) :=
  @inContext _ _ _ p good (fun _ => .anything) h

theorem nested (h : Makes R loud good p) : Makes R loud good (Parser.nested p) := by
  refine ⟨.nested h.keeps, fun setting s a after hs hreply hquiet => ?_⟩
  unfold Parser.nested at hreply
  split at hreply
  · cases hreply
  · have hwithin : { s with depth := s.depth + 1 }.Holds R setting := ⟨hs.limits, hs.known⟩
    cases hinner : p setting { s with depth := s.depth + 1 } with
    | ok b inner =>
      rw [hinner] at hreply
      cases hreply
      exact h.makes setting _ a inner hwithin hinner hquiet
    | fail e inner =>
      rw [hinner] at hreply
      cases hreply

/-! ### Repetition -/

theorem loop {step : σ → Parser (Bool × σ)} {holds : σ → Prop} {a : σ}
    (hstep : ∀ a, Makes R loud (fun r => holds a → holds r.2) (step a)) (ha : holds a) :
    Makes R loud holds (Parser.loop step a) := by
  have hrepeat (fuel : List Lexeme) (a : σ) :
      Makes R loud (fun b => holds a → holds b) (repeatAlong step fuel a) := by
    induction fuel generalizing a with
    | nil => exact .bind (hstep a) fun r => .value id
    | cons lexeme fuel ih =>
      refine .bind (hstep a) fun r => ?_
      obtain ⟨again, b⟩ := r
      cases again with
      | true => exact (ih b).imp fun c hc hb ha => hc (hb ha)
      | false => exact .value id
  refine ⟨fun setting s => (hrepeat s.rest a).keeps setting s, fun setting s b after hs hreply hquiet => ?_⟩
  exact (hrepeat s.rest a).makes setting s b after hs hreply hquiet ha

variable [Shelled α] [Shelled β]

theorem collect {step : Parser (Bool × List α)} (hstep : Makes R loud (fun r => R.Good n r.2) step) :
    Makes R loud (R.Good n) (Parser.collect step) := by
  have hturns : Makes R loud (fun turns => ∀ found ∈ turns, R.Good n found)
      (Parser.loop (collectTurn step) []) := by
    refine .loop (fun turns => .bind hstep fun r => .value fun hfound hturns => ?_) nofun
    exact List.forall_mem_cons.2 ⟨hfound, hturns⟩
  refine .bind hturns fun turns => .value fun hturns => Regime.good_list.2 fun a ha => ?_
  obtain ⟨found, hfound, ha⟩ := List.mem_flatten.1 ha
  exact Regime.good_list.1 (hturns found (List.mem_reverse.1 hfound)) a ha

theorem commaList {close : Symbol} {elem : Parser α} (h : Makes R loud (R.Good n) elem) :
    Makes R loud (R.Good n) (Parser.commaList close elem) := by
  refine .bind (.collect (.query fun closed => ?_)) fun elems => .require (.value id)
  split
  · exact .value Regime.all_nil
  · exact .bind h fun a => .acceptIf fun again => .value Regime.good_single

theorem commaTail {close : Symbol} {elem : Parser α} (h : Makes R loud (R.Good n) elem) :
    Makes R loud (R.Good n) (Parser.commaTail close elem) := by
  refine .bind (.collect (.acceptIf fun found => ?_)) fun elems => .require (.value id)
  split
  · refine .query fun closed => ?_
    split
    · exact .value Regime.all_nil
    · exact .bind h fun a => .value Regime.good_single
  · exact .value Regime.all_nil

theorem optional {announced : Parser Bool} {elem : Parser α} (hannounced : announced.Keeps loud)
    (h : Makes R loud (R.Good n) elem) : Makes R loud (R.Good n) (Parser.optional announced elem) := by
  refine .pass hannounced fun found => ?_
  split
  · exact .bind h fun a => .value fun ha => by simpa using ha
  · exact .value Regime.all_nil

theorem listIf {announced : Parser Bool} {elems : Parser (List α)} (hannounced : announced.Keeps loud)
    (h : Makes R loud (R.Good n) elems) : Makes R loud (R.Good n) (Parser.listIf announced elems) := by
  refine .pass hannounced fun found => ?_
  split
  · exact h
  · exact .value Regime.all_nil

/-! ### Recovery -/

theorem resilient {recovery : Recovery} {part : σ → Parser σ} {holds : σ → Prop} {a : σ}
    (h : Makes R true (fun b => holds a → holds b) (part a)) :
    Makes R true (fun r => holds a → holds r.2) (Parser.resilient recovery part a) := by
  refine ⟨.resilient h.keeps, fun setting s r after hs hreply hquiet ha => ?_⟩
  unfold Parser.resilient at hreply
  split at hreply
  · cases hreply
    exact ha
  · cases hpart : part a setting s with
    | ok b after' =>
      rw [hpart] at hreply
      cases hreply
      exact h.makes setting s b _ hs hpart hquiet ha
    | fail e after' =>
      -- the part is left out
      rw [hpart] at hreply
      simp only at hreply
      split at hreply <;> cases hreply <;> exact ha

theorem bodyParts {recovery : Recovery} {part : σ → Parser σ} {holds : σ → Prop} {a : σ}
    (h : ∀ a, Makes R true (fun b => holds a → holds b) (part a)) (ha : holds a) :
    Makes R true holds (Parser.bodyParts recovery part a) := by
  refine .loop (fun a => .query fun ended => ?_) ha
  split
  · exact .value id
  · exact .resilient (h a)

/-- Parts that are collected one by one, the last one in front. -/
theorem found {part : Parser α} (h : Makes R true (R.Good n) part) (found : List α) :
    Makes R true (fun b => R.Good n found → R.Good n b)
      (do
        let next ← part
        pure (next :: found)) :=
  .bind h fun _ => .value fun hnext hfound => by simpa using ⟨hnext, hfound⟩

end Makes

end Parser

end ActorFrontend
