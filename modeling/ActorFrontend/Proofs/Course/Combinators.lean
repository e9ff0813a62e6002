import ActorFrontend.Proofs.Course.Steps

/-!
# The courses of the combinators

The rules by which the course of a reading follows from those of its parts.
-/

namespace ActorFrontend

variable {loud : Bool} {setting : Setting} {α β σ : Type} {s₀ s s' : State} {n₀ n n' m : Nat}
  {b c : Bool} {eats : β → Bool}

/-- The parser follows a course that may pass over no token at all. -/
abbrev Parser.MayConsume (p : Parser α) (loud : Bool) : Prop := p.Follows loud fun _ => false

/-- A test that neither the end of the input nor a brace satisfies. -/
structure Plain (test : TokenKind → Bool) : Prop where
  endOfFile : test .endOfFile = false
  leftBrace : test (.symbol .leftBrace) = false
  rightBrace : test (.symbol .rightBrace) = false

namespace Plain

variable {test : TokenKind → Bool} {kind : TokenKind}

theorem ne_endOfFile (h : Plain test) (hkind : test kind = true) : kind ≠ .endOfFile := by
  rintro rfl
  exact Bool.false_ne_true (h.endOfFile.symm.trans hkind)

theorem isBrace_eq_false (h : Plain test) (hkind : test kind = true) : kind.isBrace = false := by
  unfold TokenKind.isBrace
  split
  · exact absurd (h.leftBrace.symm.trans hkind) Bool.false_ne_true
  · exact absurd (h.rightBrace.symm.trans hkind) Bool.false_ne_true
  · rfl

end Plain

/-! ## Single tokens -/

namespace Parser

theorem follows_acceptIf {test : TokenKind → Bool} (htest : Plain test) :
    (acceptIf test).Follows loud fun found => found := by
  intro setting s n
  rw [acceptIf_eq]
  split
  case isTrue hkind =>
    exact Stretch.refl.advanceOver (htest.isBrace_eq_false hkind) (htest.ne_endOfFile hkind)
  case isFalse => exact Stretch.refl

theorem consumes_require {test : TokenKind → Bool} (htest : Plain test) (wanted : Expected) :
    (require test wanted).Consumes loud := by
  intro setting s n
  rw [require_eq]
  split
  case isTrue hkind =>
    exact Stretch.refl.advanceOver (htest.isBrace_eq_false hkind) (htest.ne_endOfFile hkind)
  case isFalse => exact Stretch.refl.failed rfl

theorem consumes_expect {symbol : Symbol} (hsymbol : Plain (·.isSymbol symbol)) :
    (expect symbol).Consumes loud :=
  consumes_require hsymbol _

theorem consumes_expectKeyword (keyword : Keyword) : (expectKeyword keyword).Consumes loud :=
  consumes_require ⟨rfl, rfl, rfl⟩ _

theorem consumes_expectWord (word : String) : (expectWord word).Consumes loud :=
  consumes_require ⟨rfl, rfl, rfl⟩ _

/-- The opening brace of a construct. -/
theorem follows_expect_leftBrace (setting : Setting) (s : State) (n : Nat) :
    (expect .leftBrace setting s).Follows loud setting s n (fun _ => true) (n + 1) := by
  rw [expect, require_eq]
  split
  case isTrue hkind =>
    have hkind := TokenKind.eq_of_isSymbol hkind
    exact Stretch.refl.token (.opening hkind) (by simp [hkind])
  case isFalse => exact Stretch.refl.failed rfl

/-- The closing brace of a construct. -/
theorem follows_expect_rightBrace (setting : Setting) (s : State) (n : Nat) :
    (expect .rightBrace setting s).Follows loud setting s (n + 1) (fun _ => true) n := by
  rw [expect, require_eq]
  split
  case isTrue hkind =>
    have hkind := TokenKind.eq_of_isSymbol hkind
    exact Stretch.refl.token (.closing hkind) (by simp [hkind])
  case isFalse => exact Stretch.refl.failed rfl

theorem consumes_valueOf {value? : TokenKind → Option α}
    (hvalue : Plain fun kind => (value? kind).isSome) (wanted : Expected) :
    (valueOf value? wanted).Consumes loud := by
  intro setting s n
  rw [valueOf_eq]
  cases ha : value? s.kind with
  | some a =>
    have hkind : (value? s.kind).isSome = true := by rw [ha]; rfl
    exact Stretch.refl.advanceOver (hvalue.isBrace_eq_false hkind) (hvalue.ne_endOfFile hkind)
  | none => exact Stretch.refl.failed rfl

theorem consumes_name : name.Consumes loud := consumes_valueOf ⟨rfl, rfl, rfl⟩ _

theorem consumes_string : string.Consumes loud := consumes_valueOf ⟨rfl, rfl, rfl⟩ _

theorem consumes_integer : integer.Consumes loud := consumes_valueOf ⟨rfl, rfl, rfl⟩ _

/-- A semicolon that has been left out is recorded. -/
theorem mayConsume_semicolon : semicolon.MayConsume true := by
  intro setting s n
  unfold semicolon
  split
  case isTrue hkind =>
    have hkind := TokenKind.eq_of_isSymbol hkind
    exact Stretch.refl.advance (by rw [hkind]; rfl)
  case isFalse =>
    split
    · exact Stretch.refl.stay (.note _ rfl rfl) (State.rest_record ..)
    · exact Stretch.refl.failed rfl

theorem mayConsume_query (f : State → α) : (query f).MayConsume loud := fun _ _ _ => Stretch.refl

theorem mayConsume_spanFrom (start : Nat) : (spanFrom start).MayConsume loud :=
  mayConsume_query _

theorem mayConsume_freshId : freshId.MayConsume loud :=
  fun _ _ _ => Stretch.refl.stay .number rfl

theorem mayConsume_node (start : Nat) (make : NodeId → Span → α) :
    (node start make).MayConsume loud := by
  intro setting s n
  apply Stretch.refl.bind mayConsume_freshId
  intro id s h
  apply h.bind (mayConsume_spanFrom start)
  intro span s h
  exact h.done nofun

end Parser

namespace Stretch

/-- A token that decides how the reading goes on. -/
theorem ifAccept {test : TokenKind → Bool} {yes no : Parser β}
    (h : Stretch loud setting s₀ n₀ b s n) (htest : Plain test)
    (hyes : Stretch loud setting s₀ n₀ true s.advance n →
      (yes setting s.advance).Follows loud setting s₀ n₀ eats m)
    (hno : (no setting s).Follows loud setting s₀ n₀ eats m) :
    ((do if ← Parser.acceptIf test then yes else no) setting s).Follows loud setting s₀ n₀ eats
      m := by
  have haccept := Parser.acceptIf_eq test setting s
  by_cases hkind : test s.kind = true
  · rw [if_pos hkind] at haccept
    rw [Parser.bind_ok haccept]
    exact hyes (h.advanceOver (htest.isBrace_eq_false hkind) (htest.ne_endOfFile hkind))
  · rw [if_neg hkind] at haccept
    rw [Parser.bind_ok haccept]
    exact hno

/-- A token that is passed over because it has been looked at. -/
theorem past {q : Unit → Parser β} {kind : TokenKind} (h : Stretch loud setting s₀ n₀ b s n)
    (hs : s.kind = kind) (hkind : kind.isBrace = false) (hne : kind ≠ .endOfFile)
    (hq : Stretch loud setting s₀ n₀ true s.advance n →
      (q () setting s.advance).Follows loud setting s₀ n₀ eats m) :
    ((Parser.advance >>= q) setting s).Follows loud setting s₀ n₀ eats m :=
  hq (h.advanceOver (hs ▸ hkind) (hs ▸ hne))

/-- A node that is finished. -/
theorem node {start : Nat} {make : NodeId → Span → β} (h : Stretch loud setting s₀ n₀ b s n)
    (hb : ∀ a, eats a = true → b = true) :
    (Parser.node start make setting s).Follows loud setting s₀ n₀ eats n :=
  h.last (Parser.mayConsume_node start make) fun a ha => by rw [hb a ha]; rfl

/-- A value that holds its span. -/
theorem part {start : Nat} {make : Span → β} (h : Stretch loud setting s₀ n₀ b s n)
    (hb : ∀ a, eats a = true → b = true) :
    ((do pure (make (← Parser.spanFrom start))) setting s).Follows loud setting s₀ n₀ eats n :=
  h.done (hb _)

end Stretch

/-! ## Context, nesting and speculation -/

/-- In another context a reading takes the same course. -/
theorem Stretch.withContext {p : Parser β} (context : Context)
    (hp : (p setting { s with context }).Follows loud setting { s with context } n eats n') :
    (Parser.withContext context p setting s).Follows loud setting s n eats n' := by
  unfold Parser.withContext
  cases hreply : p setting { s with context } with
  | ok a s' =>
    rw [hreply] at hp
    exact ⟨.within context hp.course, hp.shorter⟩
  | fail e s' =>
    rw [hreply] at hp
    exact ⟨hp.1, hp.2.imp fun _ h => .within context h⟩

namespace Parser

theorem follows_withContext {p : Parser β} (hp : p.Follows loud eats) (context : Context) :
    (withContext context p).Follows loud eats :=
  fun setting s n => Stretch.withContext context (hp setting { s with context } n)

theorem follows_enclosed {p : Parser β} (hp : p.Follows loud eats) :
    (enclosed p).Follows loud eats :=
  follows_withContext hp _

theorem follows_tooDeep : (tooDeep : Parser β).Follows loud eats :=
  fun _ _ _ => Stretch.refl.failed rfl

theorem follows_nested {p : Parser β} (hp : p.Follows loud eats) :
    (nested p).Follows loud eats := by
  intro setting s n
  unfold nested
  split
  · exact follows_tooDeep setting s n
  case isFalse hdepth =>
    have hdepth : s.depth < setting.limits.maxDepth := Nat.lt_of_not_le hdepth
    have hrun := hp setting { s with depth := s.depth + 1 } n
    cases hreply : p setting { s with depth := s.depth + 1 } with
    | ok a s' =>
      rw [hreply] at hrun
      exact ⟨.deeper hdepth hrun.course, hrun.shorter⟩
    | fail e s' =>
      rw [hreply] at hrun
      exact ⟨hrun.1, hrun.2.imp fun _ h => .deeper hdepth h⟩

end Parser

/-- A course that records nothing does what any other may do. -/
theorem Course.louder (h : Course false setting s n s' n') : Course loud setting s n s' n' := by
  induction h with
  | refl => exact .refl
  | trans _ _ ih ih' => exact .trans ih ih'
  | pass hkind => exact .pass hkind
  | opening hkind => exact .opening hkind
  | closing hkind => exact .closing hkind
  | number => exact .number
  | within context _ ih => exact .within context ih
  | deeper hdepth _ ih => exact .deeper hdepth ih
  | note _ hloud _ | splice _ _ hloud _ | recover _ _ hloud _ _ _ _ | abandon hloud _ =>
    contradiction

theorem Parser.Follows.louder {p : Parser β} (h : p.Follows false eats) :
    p.Follows loud eats := by
  intro setting s n
  have hrun := h setting s n
  cases hreply : p setting s with
  | ok a s' =>
    rw [hreply] at hrun
    exact ⟨hrun.course.louder, hrun.shorter⟩
  | fail e s' =>
    rw [hreply] at hrun
    exact ⟨hrun.1, hrun.2.imp fun _ hcourse => hcourse.louder⟩

/-- A reading that is not loud leaves the errors as they were. -/
theorem Course.errors_eq (h : Course false setting s n s' n') :
    s'.errors = s.errors ∧ s'.halted = s.halted := by
  induction h with
  | refl | number => exact ⟨rfl, rfl⟩
  | trans _ _ ih ih' => exact ⟨ih'.1.trans ih.1, ih'.2.trans ih.2⟩
  | pass _ | opening _ | closing _ =>
    unfold State.advance
    split <;> exact ⟨rfl, rfl⟩
  | within _ _ ih | deeper _ _ ih => exact ih
  | note _ hloud _ | splice _ _ hloud _ | recover _ _ hloud _ _ _ _ | abandon hloud _ =>
    contradiction

theorem Parser.Follows.errors_eq {p : Parser α} {eats : α → Bool} (hp : p.Follows false eats)
    (setting : Setting) (s : State) :
    (p setting s).state.errors = s.errors ∧ (p setting s).state.halted = s.halted := by
  have hrun := hp setting s 0
  cases hreply : p setting s with
  | ok a s' =>
    rw [hreply] at hrun
    exact hrun.course.errors_eq
  | fail e s' =>
    rw [hreply] at hrun
    obtain ⟨-, m, hcourse⟩ := hrun
    exact hcourse.errors_eq

theorem Parser.Follows.rest_le {p : Parser α} {eats : α → Bool} (hp : p.Follows loud eats)
    (setting : Setting) (s : State) :
    (p setting s).state.rest.length ≤ s.rest.length := by
  have hrun := hp setting s 0
  cases hreply : p setting s with
  | ok a after =>
    rw [hreply] at hrun
    exact hrun.course.rest_suffix.length_le
  | fail e after =>
    rw [hreply] at hrun
    obtain ⟨-, m, hcourse⟩ := hrun
    exact hcourse.rest_suffix.length_le

/-- If the trial of a reading that records nothing fails, nothing at all has changed. -/
theorem Parser.attempt_eq_of_fail {p : Parser α} {eats : α → Bool} (hp : p.Follows false eats)
    {e : ParseError} {after : State} (h : p setting s = .fail e after) :
    attempt p setting s = .ok none s := by
  have hquiet := hp.errors_eq setting s
  rw [h] at hquiet
  obtain ⟨herrors, hhalted⟩ := hquiet
  change after.errors = s.errors at herrors
  change after.halted = s.halted at hhalted
  rw [attempt, h]
  simp only [herrors, hhalted, List.take_length]

namespace Parser

/-! ## Repetition -/

/-- The turns of a repetition follow one another. -/
theorem mayConsume_loop {step : σ → Parser (Bool × σ)} {eats : Bool × σ → Bool}
    (hstep : ∀ a, (step a).Follows loud eats) (a : σ) : (loop step a).MayConsume loud := by
  have hrepeat : ∀ (fuel : List Lexeme) (a : σ), (repeatAlong step fuel a).MayConsume loud := by
    intro fuel
    induction fuel with
    | nil =>
      intro a setting s n
      apply Stretch.refl.bind (hstep a)
      intro r s h
      exact h.done nofun
    | cons _ fuel ih =>
      intro a setting s n
      apply Stretch.refl.bind (hstep a)
      rintro ⟨again, a⟩ s h
      cases again with
      | true => exact h.last (ih a) nofun
      | false => exact h.done nofun
  intro setting s n
  exact hrepeat s.rest a setting s n

/-- Where every turn that asks for another one passes over a token, the tokens that are left bound
the number of turns. -/
theorem progresses {step : σ → Parser (Bool × σ)}
    (hstep : ∀ a, (step a).Follows loud Prod.fst) : Progresses step := by
  intro setting s a a' s' hreply
  have hrun := hstep a setting s 0
  rw [hreply] at hrun
  exact hrun.shorter rfl

theorem follows_collectTurn {step : Parser (Bool × List α)} (hstep : step.Follows loud Prod.fst)
    (turns : List (List α)) : (collectTurn step turns).Follows loud Prod.fst := by
  intro setting s n
  apply Stretch.refl.bind hstep
  rintro ⟨again, found⟩ s h
  exact h.done fun hagain => hagain

theorem mayConsume_collect {step : Parser (Bool × List α)} (hstep : step.Follows loud Prod.fst) :
    (collect step).MayConsume loud := by
  intro setting s n
  apply Stretch.refl.bind (mayConsume_loop (follows_collectTurn hstep) [])
  intro turns s h
  exact h.done nofun

/-! ## Lists -/

/-- A comma and the element after it. -/
def commaTailTurn (close : Symbol) (elem : Parser α) : Parser (Bool × List α) := do
  if ← accept .comma then
    if ← sees close then
      pure (false, [])
    else
      let a ← elem
      pure (true, [a])
  else
    pure (false, [])

theorem follows_commaTurn {elem : Parser α} (helem : elem.MayConsume loud) (close : Symbol) :
    (commaTurn close elem).Follows loud Prod.fst := by
  intro setting s n
  apply Stretch.query
  split
  · exact Stretch.refl.done nofun
  · apply Stretch.refl.bind helem
    intro a s h
    apply h.bind (follows_acceptIf ⟨rfl, rfl, rfl⟩)
    intro found s h
    exact h.done fun hfound => hfound

theorem follows_commaTailTurn {elem : Parser α} (helem : elem.MayConsume loud) (close : Symbol) :
    (commaTailTurn close elem).Follows loud Prod.fst := by
  intro setting s n
  refine Stretch.refl.ifAccept ⟨rfl, rfl, rfl⟩ (fun h => ?_) (Stretch.refl.done nofun)
  apply Stretch.query
  split
  · exact h.done nofun
  · apply h.bind helem
    intro a s h
    exact h.done fun _ => rfl

theorem Follows.mayConsume {p : Parser β} (h : p.Follows loud eats) : p.MayConsume loud :=
  fun _ _ _ => Stretch.refl.last h nofun

/-- The elements of a list and the symbol that closes it, as the reading of that symbol takes
them. -/
theorem follows_commaList {elem : Parser α} (helem : elem.MayConsume loud) {close : Symbol}
    (hclose : ∀ s, (expect close setting s).Follows loud setting s n (fun _ => true) n') :
    (commaList close elem setting s).Follows loud setting s n (fun _ => true) n' := by
  apply Stretch.refl.bind (mayConsume_collect (follows_commaTurn helem close))
  intro elems s h
  apply h.step (hclose s)
  intro _ s h
  exact h.done fun _ => rfl

theorem follows_commaTail {elem : Parser α} (helem : elem.MayConsume loud) {close : Symbol}
    (hclose : ∀ s, (expect close setting s).Follows loud setting s n (fun _ => true) n') :
    (commaTail close elem setting s).Follows loud setting s n (fun _ => true) n' := by
  apply Stretch.refl.bind (mayConsume_collect (follows_commaTailTurn helem close))
  intro elems s h
  apply h.step (hclose s)
  intro _ s h
  exact h.done fun _ => rfl

theorem consumes_commaList {elem : Parser α} (helem : elem.MayConsume loud) {close : Symbol}
    (hclose : Plain (·.isSymbol close)) : (commaList close elem).Consumes loud :=
  fun _ _ _ => follows_commaList helem fun s => consumes_expect hclose _ s _

theorem consumes_commaTail {elem : Parser α} (helem : elem.MayConsume loud) {close : Symbol}
    (hclose : Plain (·.isSymbol close)) : (commaTail close elem).Consumes loud :=
  fun _ _ _ => follows_commaTail helem fun s => consumes_expect hclose _ s _

theorem mayConsume_optional {announced : Parser Bool} {eatsBefore : Bool → Bool} {p : Parser α}
    {eats : α → Bool} (hannounced : announced.Follows loud eatsBefore) (hp : p.Follows loud eats) :
    (optional announced p).MayConsume loud := by
  intro setting s n
  apply Stretch.refl.bind hannounced
  intro found s h
  split
  · apply h.bind hp
    intro a s h
    exact h.done nofun
  · exact h.done nofun

theorem mayConsume_listIf {announced : Parser Bool} {eatsBefore : Bool → Bool}
    {p : Parser (List α)} {eats : List α → Bool} (hannounced : announced.Follows loud eatsBefore)
    (hp : p.Follows loud eats) : (listIf announced p).MayConsume loud := by
  intro setting s n
  apply Stretch.refl.bind hannounced
  intro found s h
  split
  · exact h.last hp nofun
  · exact h.done nofun

/-- The separator before the next part of a path, and that part. -/
def pathTurn : Parser (Bool × List String) := do
  if ← query fun s => s.kind.isSymbol .colonColon && (s.peek 1).isName then
    advance
    let part ← name
    pure (true, [part])
  else
    pure (false, [])

theorem follows_pathTurn : pathTurn.Follows loud Prod.fst := by
  intro setting s n
  apply Stretch.query
  split
  case isTrue hkind =>
    have hkind := TokenKind.eq_of_isSymbol (Bool.and_eq_true_iff.1 hkind).1
    apply Stretch.refl.past hkind rfl nofun
    intro h
    apply h.bind consumes_name
    intro part s h
    exact h.done fun _ => rfl
  case isFalse => exact Stretch.refl.done nofun

theorem consumes_path : path.Consumes loud := by
  intro setting s n
  apply Stretch.refl.bind consumes_name
  intro first s h
  apply h.bind (mayConsume_collect follows_pathTurn)
  intro more s h
  exact h.done fun _ => rfl

end Parser

/-! ## Recovery -/

/-- A part that fails costs a token at least, unless the construct is left. -/
theorem State.rest_recover_lt (recovery : Recovery) {error : ParseError} {after : State}
    (hne : s.rest ≠ []) (hle : after.rest.length ≤ s.rest.length)
    (hrun : (after.record setting error).halted = false) :
    (s.recover recovery setting error after).rest.length < s.rest.length := by
  have hpos : 0 < s.rest.length := List.length_pos_iff.2 hne
  have hskip (k : Nat) : ((after.record setting error).skip k).rest.length ≤ after.rest.length :=
    Nat.le_trans (State.rest_skip_suffix _ _).length_le (Nat.le_of_eq (by rw [State.rest_record]))
  have hresume := hskip (recovery.resume (after.record setting error).rest)
  unfold State.recover
  simp only [hrun, Bool.false_eq_true, if_false]
  split
  case isTrue hsame =>
    rw [State.rest_advance, List.length_drop]
    omega
  case isFalse hsame => omega

namespace Parser

/-- A part of a construct in braces, with the recovery from its errors. -/
theorem follows_resilient {recovery : Recovery} {part : σ → Parser σ} {a : σ}
    (hrecovery : recovery = .statements ∨ recovery = .members) (hpart : (part a).Consumes true)
    (hstart : (s.kind.isSymbol .rightBrace || s.atEnd) = false) :
    (resilient recovery part a setting s).Follows true setting s n Prod.fst n := by
  have habandon : recovery.abandon = Recovery.toClosingBrace 0 := by
    rcases hrecovery with rfl | rfl <;> rfl
  have hne : s.rest ≠ [] := by
    intro hrest
    simp [State.atEnd, hrest] at hstart
  unfold resilient
  split
  case isTrue hhalted =>
    rw [habandon]
    exact ⟨.abandon rfl hhalted, nofun⟩
  case isFalse =>
    -- counted from no open brace, what the part holds open is forgotten if it fails
    have hrun := hpart setting s 0
    cases hreply : part a setting s with
    | ok a' s' =>
      have hrun := hpart setting s n
      rw [hreply] at hrun
      exact hrun
    | fail error after =>
      rw [hreply] at hrun
      obtain ⟨herror, m, hcourse⟩ := hrun
      have hrecover : Course true setting s n (s.recover recovery setting error after) n :=
        .recover recovery error rfl hrecovery hstart hcourse herror
      simp only
      split
      case isTrue hhalted =>
        rw [State.recover, if_pos hhalted] at hrecover
        exact ⟨hrecover, nofun⟩
      case isFalse hhalted =>
        have hlt := State.rest_recover_lt recovery hne hcourse.rest_suffix.length_le
          (Bool.eq_false_iff.2 hhalted)
        rw [State.recover, if_neg hhalted] at hrecover hlt
        exact ⟨hrecover, fun _ => hlt⟩

/-- One turn of the reading of a body in braces. -/
def bodyTurn (recovery : Recovery) (part : σ → Parser σ) (a : σ) : Parser (Bool × σ) := do
  if ← atBodyEnd then pure (false, a) else resilient recovery part a

theorem follows_bodyTurn {recovery : Recovery} {part : σ → Parser σ} (a : σ)
    (hrecovery : recovery = .statements ∨ recovery = .members)
    (hpart : ∀ a, (part a).Consumes true) :
    (bodyTurn recovery part a).Follows true Prod.fst := by
  intro setting s n
  apply Stretch.query
  split
  · exact Stretch.refl.done nofun
  case isFalse hstart =>
    exact follows_resilient hrecovery (hpart a) (Bool.eq_false_iff.2 hstart)

theorem mayConsume_bodyParts {recovery : Recovery} {part : σ → Parser σ} (a : σ)
    (hrecovery : recovery = .statements ∨ recovery = .members)
    (hpart : ∀ a, (part a).Consumes true) : (bodyParts recovery part a).MayConsume true :=
  mayConsume_loop (fun a => follows_bodyTurn a hrecovery hpart) a

/-- A part that is put before those found so far. -/
theorem consumes_found {p : Parser α} (hp : p.Consumes loud) (found : List α) :
    (do let next ← p; pure (next :: found)).Consumes loud := by
  intro setting s n
  apply Stretch.refl.bind hp
  intro next s h
  exact h.done fun _ => rfl

end Parser

end ActorFrontend
