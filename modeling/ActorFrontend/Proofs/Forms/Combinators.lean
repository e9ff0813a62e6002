import ActorFrontend.Proofs.Forms.Sound
import ActorFrontend.Proofs.Forms.Texts
import ActorFrontend.Proofs.Nesting.Makes

/-!
# What readings form

What a parser answers with has a property that may depend on the context in which it starts.  The
property is carried through the combinators, one lemma for each.
-/

namespace ActorFrontend

variable {α β σ : Type} {loud : Bool}

/-- The texts of all strings that are left to read stand apart. -/
def State.SetsTextsApart (s : State) : Prop := ∀ lexeme ∈ s.rest, lexeme.token.SetsTextsApart

theorem State.SetsTextsApart.kept {s after : State} (h : s.SetsTextsApart) (hkept : s.Kept loud after) :
    after.SetsTextsApart :=
  fun lexeme hlexeme => h lexeme (hkept.rest.subset hlexeme)

namespace Parser

/-! ## What all answers have in common -/

/-- The property holds of whatever the parser answers with. -/
def Always (good : α → Prop) (p : Parser α) : Prop := ∀ a, p.Answers a → good a

namespace Always

variable {p : Parser α} {good : β → Prop}

/-- The last part of a sequence decides. -/
theorem last {q : α → Parser β} (hq : ∀ a, Always good (q a)) : Always good (p >>= q) := by
  intro b hb
  obtain ⟨a, -, hb⟩ := hb.of_bind
  exact hq a b hb

theorem bind {q : α → Parser β} {first : α → Prop} (hp : Always first p)
    (hq : ∀ a, first a → Always good (q a)) : Always good (p >>= q) := by
  intro b hb
  obtain ⟨a, ha, hb⟩ := hb.of_bind
  exact hq a (hp a ha) b hb

theorem value {b : β} (h : good b) : Always good (pure b) := by
  rintro _ ⟨setting, s, after, hreply⟩
  cases hreply
  exact h

theorem expected (wanted : Expected) : Always good (Parser.expected wanted) := by
  rintro _ ⟨setting, s, after, hreply⟩
  cases hreply

/-- What every turn keeps, the repetition keeps. -/
theorem loop {step : σ → Parser (Bool × σ)} {holds : σ → Prop} {a : σ}
    (hstep : ∀ a, holds a → Always (fun r => holds r.2) (step a)) (ha : holds a) :
    Always holds (Parser.loop step a) := by
  have hrepeat (fuel : List Lexeme) (a : σ) (ha : holds a) : Always holds (repeatAlong step fuel a) := by
    induction fuel generalizing a with
    | nil => exact .bind (hstep a ha) fun r hr => .value hr
    | cons lexeme fuel ih =>
      refine .bind (hstep a ha) fun r hr => ?_
      obtain ⟨again, b⟩ := r
      cases again with
      | true => exact ih b hr
      | false => exact .value hr
  rintro b ⟨setting, s, after, hreply⟩
  exact hrepeat s.rest a ha b ⟨setting, s, after, hreply⟩

end Always

/-! ## What readings form -/

/-- The parser keeps what a reading keeps, and in a context it answers with what is `good` there. -/
structure Forms (loud : Bool) (good : Context → α → Prop) (p : Parser α) : Prop where
  keeps : p.Keeps loud
  forms : ∀ setting s a after, s.SetsTextsApart → p setting s = .ok a after → good s.context a

/-- What the parser forms where the token at hand is of that kind. -/
structure FormsAt (k : TokenKind) (loud : Bool) (good : Context → α → Prop) (p : Parser α) : Prop where
  keeps : p.Keeps loud
  forms : ∀ setting s a after, s.SetsTextsApart → s.kind = k → p setting s = .ok a after → good s.context a

theorem FormsAt.of_forms {k : TokenKind} {good : Context → α → Prop} {p : Parser α}
    (h : Forms loud good p) : FormsAt k loud good p :=
  ⟨h.keeps, fun setting s a after hs _ hreply => h.forms setting s a after hs hreply⟩

namespace Forms

open Makes (keeps_acceptIf keeps_require keeps_valueOf)

variable {p : Parser α} {good : Context → α → Prop} {good' : Context → β → Prop}

theorem of_keeps (h : p.Keeps loud) : Forms loud (fun _ _ => True) p := ⟨h, fun _ _ _ _ _ _ => trivial⟩

theorem louder (h : Forms loud good p) : Forms true good p := ⟨h.keeps.louder fun _ => rfl, h.forms⟩

theorem imp {good' : Context → α → Prop} (h : Forms loud good p) (himp : ∀ c a, good c a → good' c a) :
    Forms loud good' p :=
  ⟨h.keeps, fun setting s a after hs hreply => himp s.context a (h.forms setting s a after hs hreply)⟩

theorem value {a : α} (h : ∀ c, good c a) : Forms loud good (pure a) := by
  refine ⟨.pure a, fun setting s b after hs hreply => ?_⟩
  cases hreply
  exact h s.context

/-- What all answers have in common may depend on something that has nothing to do with the
reading. -/
theorem of_always {P : Context → Prop} (hkeeps : p.Keeps loud) (h : ∀ c, P c → Always (good c) p) :
    Forms loud (fun c a => P c → good c a) p :=
  ⟨hkeeps, fun setting s a after _ hreply hP => h s.context hP a ⟨setting, s, after, hreply⟩⟩

theorem and_always {P : α → Prop} (h : Forms loud good p) (halways : Always P p) :
    Forms loud (fun c a => good c a ∧ P a) p :=
  ⟨h.keeps, fun setting s a after hs hreply =>
    ⟨h.forms setting s a after hs hreply, halways a ⟨setting, s, after, hreply⟩⟩⟩

theorem fails {e : Setting → State → ParseError} :
    Forms loud good (fun setting s => .fail (e setting s) s : Parser α) :=
  ⟨fun _ s => .refl s, fun _ _ _ _ _ hreply => nomatch hreply⟩

theorem expected (wanted : Expected) : Forms loud good (Parser.expected wanted : Parser α) := fails

/-- What the first part forms is known where the second one is done. -/
theorem bind {q : α → Parser β} (hp : Forms loud good p)
    (hq : ∀ a, Forms loud (fun c b => good c a → good' c b) (q a)) : Forms loud good' (p >>= q) where
  keeps := .bind hp.keeps fun a _ => (hq a).keeps
  forms := by
    intro setting s b after hs hreply
    have hkept := hp.keeps setting s
    change Parser.bind p q setting s = _ at hreply
    unfold Parser.bind at hreply
    cases hfirst : p setting s with
    | fail e s₁ =>
      rw [hfirst] at hreply
      cases hreply
    | ok a s₁ =>
      rw [hfirst] at hreply hkept
      have hreply : q a setting s₁ = .ok b after := hreply
      have hcontext : s₁.context = s.context := hkept.context
      have hgood := (hq a).forms setting s₁ b after (hs.kept hkept) hreply
      rw [hcontext] at hgood
      exact hgood (hp.forms setting s a s₁ hs hfirst)

/-- Nothing need be known of what the first part forms. -/
theorem pass {q : α → Parser β} (hp : p.Keeps loud) (hq : ∀ a, Forms loud good' (q a)) :
    Forms loud good' (p >>= q) :=
  .bind (of_keeps hp) fun a => (hq a).imp fun _ _ h _ => h

theorem query {f : State → α} {q : α → Parser β} (hq : ∀ a, Forms loud good' (q a)) :
    Forms loud good' (Parser.query f >>= q) := .pass (.query f) hq

/-- What is looked up may tell something about the context or the strings ahead. -/
theorem ask {f : State → α} (h : ∀ s, s.SetsTextsApart → good s.context (f s)) :
    Forms loud good (Parser.query f) := by
  refine ⟨.query f, fun setting s a after hs hreply => ?_⟩
  cases hreply
  exact h s hs

theorem start {q : Nat → Parser β} (hq : ∀ a, Forms loud good' (q a)) :
    Forms loud good' (Parser.start >>= q) := .pass (fun _ s => .refl s) hq

theorem span {q : Span → Parser β} (hq : ∀ a, Forms loud good' (q a)) :
    Forms loud good' (Parser.span >>= q) := .pass (fun _ s => .refl s) hq

theorem kind {q : TokenKind → Parser β} (hq : ∀ a, Forms loud good' (q a)) :
    Forms loud good' (Parser.kind >>= q) := .query hq

theorem spanFrom {start : Nat} {q : Span → Parser β} (hq : ∀ a, Forms loud good' (q a)) :
    Forms loud good' (Parser.spanFrom start >>= q) := .query hq

theorem node {start : Nat} {make : NodeId → Span → α} (h : ∀ c id span, good c (make id span)) :
    Forms loud good (Parser.node start make) :=
  .pass .freshId fun id => .spanFrom fun span => .value fun c => h c id span

/-! ### Single tokens -/

theorem acceptIf {test : TokenKind → Bool} {q : Bool → Parser β}
    (hq : ∀ found, Forms loud good' (q found)) : Forms loud good' (Parser.acceptIf test >>= q) :=
  .pass (keeps_acceptIf test) hq

theorem require {test : TokenKind → Bool} {wanted : Expected} {q : Unit → Parser β}
    (hq : Forms loud good' (q ())) : Forms loud good' (Parser.require test wanted >>= q) :=
  .pass (keeps_require test wanted) fun _ => hq

theorem valueOf {value? : TokenKind → Option α} {wanted : Expected} {q : α → Parser β}
    (hq : ∀ a, Forms loud good' (q a)) : Forms loud good' (Parser.valueOf value? wanted >>= q) :=
  .pass (keeps_valueOf value? wanted) hq

theorem advance {q : Unit → Parser β} (hq : Forms loud good' (q ())) :
    Forms loud good' (Parser.advance >>= q) := .pass .advance fun _ => hq

/-- The token at hand is known where its kind decides. -/
theorem kindAt {q : TokenKind → Parser β} (hq : ∀ k, FormsAt k loud good' (q k)) :
    Forms loud good' (Parser.kind >>= q) :=
  ⟨.bind (.query _) fun k _ => (hq k).keeps, fun setting s b after hs hreply =>
    (hq s.kind).forms setting s b after hs rfl hreply⟩

theorem semicolon {q : Unit → Parser β} (hq : Forms true good' (q ())) :
    Forms true good' (Parser.semicolon >>= q) := .pass .semicolon fun _ => hq

/-! ### Contexts and levels -/

theorem inContext {f : Context → Context} (h : Forms loud good p) :
    Forms loud (fun c a => good (f c) a) (Parser.inContext f p) := by
  refine ⟨.inContext h.keeps, fun setting s a after hs hreply => ?_⟩
  unfold Parser.inContext Parser.withContext at hreply
  cases hinner : p setting { s with context := f s.context } with
  | ok b inner =>
    rw [hinner] at hreply
    cases hreply
    exact h.forms setting { s with context := f s.context } a inner hs hinner
  | fail e inner =>
    rw [hinner] at hreply
    cases hreply

/-- In brackets everything is allowed again. -/
theorem enclosed (h : Forms loud good p) :
    Forms loud (fun _ a => good .anything a) (Parser.enclosed p) :=
  @inContext _ _ p good (fun _ => .anything) h

theorem nested (h : Forms loud good p) : Forms loud good (Parser.nested p) := by
  refine ⟨.nested h.keeps, fun setting s a after hs hreply => ?_⟩
  unfold Parser.nested at hreply
  split at hreply
  · cases hreply
  · cases hinner : p setting { s with depth := s.depth + 1 } with
    | ok b inner =>
      rw [hinner] at hreply
      cases hreply
      exact h.forms setting { s with depth := s.depth + 1 } a inner hs hinner
    | fail e inner =>
      rw [hinner] at hreply
      cases hreply

/-! ### Repetition -/

/-- What every turn keeps, the repetition keeps. -/
theorem turns {step : σ → Parser (Bool × σ)} {holds : Context → σ → Prop} {a : σ}
    (hstep : ∀ a, Forms loud (fun c r => holds c a → holds c r.2) (step a)) :
    Forms loud (fun c b => holds c a → holds c b) (Parser.loop step a) := by
  have hrepeat (fuel : List Lexeme) (a : σ) :
      Forms loud (fun c b => holds c a → holds c b) (repeatAlong step fuel a) := by
    induction fuel generalizing a with
    | nil => exact .bind (hstep a) fun r => .value fun _ => id
    | cons lexeme fuel ih =>
      refine .bind (hstep a) fun r => ?_
      obtain ⟨again, b⟩ := r
      cases again with
      | true => exact (ih b).imp fun c d hd hb ha => hd (hb ha)
      | false => exact .value fun _ => id
  exact ⟨fun setting s => (hrepeat s.rest a).keeps setting s,
    fun setting s => (hrepeat s.rest a).forms setting s⟩

theorem loop {step : σ → Parser (Bool × σ)} {holds : Context → σ → Prop} {a : σ}
    (hstep : ∀ a, Forms loud (fun c r => holds c a → holds c r.2) (step a)) (ha : ∀ c, holds c a) :
    Forms loud holds (Parser.loop step a) :=
  (turns hstep).imp fun c _ h => h (ha c)

theorem collect {step : Parser (Bool × List α)}
    (hstep : Forms loud (fun c r => ∀ a ∈ r.2, good c a) step) :
    Forms loud (fun c as => ∀ a ∈ as, good c a) (Parser.collect step) := by
  have hturns : Forms loud (fun c turns => ∀ found ∈ turns, ∀ a ∈ found, good c a)
      (Parser.loop (collectTurn step) []) := by
    refine .loop (fun turns => .bind hstep fun r => .value fun c hfound hturns => ?_) fun c => nofun
    exact List.forall_mem_cons.2 ⟨hfound, hturns⟩
  refine .bind hturns fun turns => .value fun c hturns a ha => ?_
  obtain ⟨found, hfound, ha⟩ := List.mem_flatten.1 ha
  exact hturns found (List.mem_reverse.1 hfound) a ha

theorem commaList {close : Symbol} {elem : Parser α} (h : Forms loud good elem) :
    Forms loud (fun c as => ∀ a ∈ as, good c a) (Parser.commaList close elem) := by
  refine .bind (.collect (.query fun closed => ?_)) fun elems => .require (.value fun c => id)
  split
  · exact .value fun c => nofun
  · exact .bind h fun a => .acceptIf fun again => .value fun c => List.forall_mem_singleton.2

theorem commaTail {close : Symbol} {elem : Parser α} (h : Forms loud good elem) :
    Forms loud (fun c as => ∀ a ∈ as, good c a) (Parser.commaTail close elem) := by
  refine .bind (.collect (.acceptIf fun found => ?_)) fun elems => .require (.value fun c => id)
  split
  · refine .query fun closed => ?_
    split
    · exact .value fun c => nofun
    · exact .bind h fun a => .value fun c => List.forall_mem_singleton.2
  · exact .value fun c => nofun

theorem optional {announced : Parser Bool} {elem : Parser α} (hannounced : announced.Keeps loud)
    (h : Forms loud good elem) :
    Forms loud (fun c found => ∀ a, found = some a → good c a) (Parser.optional announced elem) := by
  refine .pass hannounced fun found => ?_
  split
  · exact .bind h fun a => .value fun c ha b hb => Option.some.inj hb ▸ ha
  · exact .value fun c => nofun

/-! ### Sound data -/

section

variable [Composed α]

theorem list {elems : Parser (List α)} (h : Forms loud (fun _ as => ∀ a ∈ as, Sound a) elems) :
    Forms loud (fun _ => Sound) elems :=
  h.imp fun _ _ => sound_list.2

theorem listIf {announced : Parser Bool} {elems : Parser (List α)} (hannounced : announced.Keeps loud)
    (h : Forms loud (fun _ => Sound) elems) : Forms loud (fun _ => Sound) (Parser.listIf announced elems) := by
  refine .pass hannounced fun found => ?_
  split
  · exact h
  · exact .value fun c => sound_nil

theorem option {elem : Parser (Option α)} (h : Forms loud (fun _ found => ∀ a, found = some a → Sound a) elem) :
    Forms loud (fun _ => Sound) elem := by
  refine h.imp fun _ found hfound => ?_
  cases found with
  | none => exact sound_none
  | some a => exact sound_some.2 (hfound a rfl)

end

/-- Parts that are collected one by one, the last one in front. -/
theorem found {part : Parser α} (h : Forms loud good part) (found : List α) :
    Forms loud (fun c b => (∀ a ∈ found, good c a) → ∀ a ∈ b, good c a)
      (do
        let next ← part
        pure (next :: found)) :=
  .bind h fun _ => .value fun _ hnext hfound => List.forall_mem_cons.2 ⟨hnext, hfound⟩

/-! ### Recovery -/

theorem resilient {recovery : Recovery} {part : σ → Parser σ} {holds : Context → σ → Prop} {a : σ}
    (h : Forms true (fun c b => holds c a → holds c b) (part a)) :
    Forms true (fun c r => holds c a → holds c r.2) (Parser.resilient recovery part a) := by
  refine ⟨.resilient h.keeps, fun setting s r after hs hreply ha => ?_⟩
  unfold Parser.resilient at hreply
  split at hreply
  · cases hreply
    exact ha
  · cases hpart : part a setting s with
    | ok b after' =>
      rw [hpart] at hreply
      cases hreply
      exact h.forms setting s b _ hs hpart ha
    | fail e after' =>
      -- the part is left out
      rw [hpart] at hreply
      simp only at hreply
      split at hreply <;> cases hreply <;> exact ha

theorem bodyParts {recovery : Recovery} {part : σ → Parser σ} {holds : Context → σ → Prop} {a : σ}
    (h : ∀ a, Forms true (fun c b => holds c a → holds c b) (part a)) (ha : ∀ c, holds c a) :
    Forms true holds (Parser.bodyParts recovery part a) := by
  refine .loop (fun a => .query fun ended => ?_) ha
  split
  · exact .value fun c => id
  · exact .resilient (h a)

end Forms

end Parser

end ActorFrontend
