import ActorFrontend.Grammar.Parser

/-!
# What holds of answers

A parser answers with a value or an error, and with a state in both cases.  Of a sequence of parsers
holds what follows step by step, and of a repetition what each of its turns keeps.
-/

namespace ActorFrontend

variable {α β σ : Type} {setting : Setting} {s after : State}

theorem TokenKind.eq_of_isSymbol {k : TokenKind} {symbol : Symbol}
    (h : k.isSymbol symbol = true) : k = .symbol symbol := by
  cases k with
  | symbol other =>
    have heq : other = symbol := by simpa [TokenKind.isSymbol] using h
    rw [heq]
  | _ => cases h

/-- What holds of the answer of a parser, and of the error that it fails with. -/
def Reply.EndsWith (onOk : α → State → Prop) (onFail : ParseError → State → Prop) : Reply α → Prop
  | .ok a s => onOk a s
  | .fail e s => onFail e s

/-- What holds of the answer of a parser, whatever it fails with. -/
def Reply.Ends (onOk : α → State → Prop) (onFail : State → Prop) (r : Reply α) : Prop :=
  r.EndsWith onOk fun _ => onFail

namespace Reply.EndsWith

theorem imp {r : Reply α} {onOk onOk' : α → State → Prop}
    {onFail onFail' : ParseError → State → Prop} (h : r.EndsWith onOk onFail)
    (hok : ∀ a s, onOk a s → onOk' a s) (hfail : ∀ e s, onFail e s → onFail' e s) :
    r.EndsWith onOk' onFail' := by
  cases r with
  | ok a s => exact hok a s h
  | fail e s => exact hfail e s h

theorem bind {p : Parser α} {q : α → Parser β} {onOk : α → State → Prop}
    {onOk' : β → State → Prop} {onFail : ParseError → State → Prop}
    (hp : (p setting s).EndsWith onOk onFail)
    (hq : ∀ a s', onOk a s' → (q a setting s').EndsWith onOk' onFail) :
    ((p >>= q) setting s).EndsWith onOk' onFail := by
  change (Parser.bind p q setting s).EndsWith onOk' onFail
  unfold Parser.bind
  cases hreply : p setting s with
  | ok a s' =>
    rw [hreply] at hp
    exact hq a s' hp
  | fail e s' =>
    rw [hreply] at hp
    exact hp

end Reply.EndsWith

namespace Reply.Ends

theorem imp {r : Reply α} {onOk onOk' : α → State → Prop} {onFail onFail' : State → Prop}
    (h : r.Ends onOk onFail) (hok : ∀ a s, onOk a s → onOk' a s)
    (hfail : ∀ s, onFail s → onFail' s) : r.Ends onOk' onFail' :=
  EndsWith.imp h hok fun _ => hfail

theorem bind {p : Parser α} {q : α → Parser β} {onOk : α → State → Prop}
    {onOk' : β → State → Prop} {onFail : State → Prop} (hp : (p setting s).Ends onOk onFail)
    (hq : ∀ a s', onOk a s' → (q a setting s').Ends onOk' onFail) :
    ((p >>= q) setting s).Ends onOk' onFail :=
  EndsWith.bind hp hq

end Reply.Ends

namespace Parser

theorem bind_ok {p : Parser α} {q : α → Parser β} {a : α} {s' : State}
    (h : p setting s = .ok a s') : (p >>= q) setting s = q a setting s' := by
  change bind p q setting s = _
  rw [bind, h]

theorem bind_fail {p : Parser α} {q : α → Parser β} {e : ParseError} {s' : State}
    (h : p setting s = .fail e s') : (p >>= q) setting s = .fail e s' := by
  change bind p q setting s = _
  rw [bind, h]

theorem bind_eq_ok_iff {p : Parser α} {q : α → Parser β} {b : β} :
    (p >>= q) setting s = .ok b after ↔
      ∃ a s', p setting s = .ok a s' ∧ q a setting s' = .ok b after := by
  change Parser.bind p q setting s = _ ↔ _
  unfold Parser.bind
  cases p setting s <;> simp [and_assoc]

theorem mapState_eq_ok_iff {r : Reply α} {f : State → State} {a : α} :
    r.mapState f = .ok a after ↔ ∃ t, r = .ok a t ∧ f t = after := by
  cases r <;> simp [Reply.mapState, and_assoc]

/-! ## Looking and moving -/

theorem query_bind (f : State → α) (q : α → Parser β) (setting : Setting) (s : State) :
    (query f >>= q) setting s = q (f s) setting s := rfl

theorem kind_bind (q : TokenKind → Parser β) (setting : Setting) (s : State) :
    (kind >>= q) setting s = q s.kind setting s := rfl

theorem start_bind (q : Nat → Parser β) (setting : Setting) (s : State) :
    (start >>= q) setting s = q (s.span setting).start setting s := rfl

theorem advance_bind (q : Unit → Parser β) (setting : Setting) (s : State) :
    (advance >>= q) setting s = q () setting s.advance := rfl

/-! ## Single tokens -/

theorem acceptIf_eq (test : TokenKind → Bool) (setting : Setting) (s : State) :
    acceptIf test setting s = if test s.kind then .ok true s.advance else .ok false s := by
  change (if test s.kind = true then _ else _ : Parser Bool) setting s = _
  split <;> rfl

theorem require_eq (test : TokenKind → Bool) (wanted : Expected) (setting : Setting) (s : State) :
    require test wanted setting s =
      if test s.kind then .ok () s.advance else .fail (s.expectedError setting wanted) s := by
  change bind (acceptIf test) _ setting s = _
  rw [bind, acceptIf_eq]
  by_cases htest : test s.kind = true
  · rw [if_pos htest, if_pos htest]
    rfl
  · rw [if_neg htest, if_neg htest]
    rfl

theorem expect_eq_ok_iff {symbol : Symbol} {u : Unit} :
    expect symbol setting s = .ok u after ↔ s.kind = .symbol symbol ∧ s.advance = after := by
  rw [expect, require_eq]
  split
  case isTrue hkind => simp [TokenKind.eq_of_isSymbol hkind]
  case isFalse hkind =>
    simp only [reduceCtorEq, false_iff, not_and]
    intro h
    rw [h] at hkind
    simp [TokenKind.isSymbol] at hkind

theorem valueOf_eq (value? : TokenKind → Option α) (wanted : Expected) (setting : Setting)
    (s : State) :
    valueOf value? wanted setting s =
      match value? s.kind with
      | some a => .ok a s.advance
      | none => .fail (s.expectedError setting wanted) s := by
  simp only [valueOf, Bind.bind, bind, kind, query]
  cases value? s.kind <;> rfl

/-! ## Repetition -/

/-- A repetition of at most so many turns: where `holds` all turns start, and where `done` the last
one ends. -/
theorem endsWith_repeatAlong {step : σ → Parser (Bool × σ)} (holds : Nat → σ → State → Prop)
    (done : σ → State → Prop) {onFail : ParseError → State → Prop}
    (hstep : ∀ n a s, holds (n + 1) a s → (step a setting s).EndsWith
      (fun r s' => if r.1 = true then holds n r.2 s' else done r.2 s') onFail)
    (hlast : ∀ a s, holds 0 a s → (step a setting s).EndsWith (fun r s' => done r.2 s') onFail)
    {fuel : List Lexeme} {a : σ} (h : holds fuel.length a s) :
    (repeatAlong step fuel a setting s).EndsWith done onFail := by
  induction fuel generalizing a s with
  | nil =>
    rw [repeatAlong]
    apply Reply.EndsWith.bind (hlast a s h)
    intro r s' hr
    exact hr
  | cons lexeme fuel ih =>
    rw [repeatAlong]
    apply Reply.EndsWith.bind (hstep _ a s h)
    rintro ⟨again, a'⟩ s' hr
    cases again with
    | true => exact ih hr
    | false => exact hr

theorem ends_repeatAlong {step : σ → Parser (Bool × σ)} (holds : Nat → σ → State → Prop)
    (done : σ → State → Prop) {onFail : State → Prop}
    (hstep : ∀ n a s, holds (n + 1) a s → (step a setting s).Ends
      (fun r s' => if r.1 = true then holds n r.2 s' else done r.2 s') onFail)
    (hlast : ∀ a s, holds 0 a s → (step a setting s).Ends (fun r s' => done r.2 s') onFail)
    {fuel : List Lexeme} {a : σ} (h : holds fuel.length a s) :
    (repeatAlong step fuel a setting s).Ends done onFail :=
  endsWith_repeatAlong holds done hstep hlast h

/-- What every turn of a repetition keeps, the repetition keeps. -/
theorem endsWith_loop {step : σ → Parser (Bool × σ)} (holds : σ → State → Prop)
    {onFail : ParseError → State → Prop}
    (hstep : ∀ a s, holds a s → (step a setting s).EndsWith (fun r s' => holds r.2 s') onFail)
    {a : σ} (h : holds a s) : (loop step a setting s).EndsWith holds onFail := by
  apply endsWith_repeatAlong (fun _ => holds) holds _ hstep h
  intro n a s h
  apply (hstep a s h).imp _ fun _ _ h => h
  intro r s' hr
  split
  · exact hr
  · exact hr

theorem ends_loop {step : σ → Parser (Bool × σ)} (holds : σ → State → Prop) {onFail : State → Prop}
    (hstep : ∀ a s, holds a s → (step a setting s).Ends (fun r s' => holds r.2 s') onFail) {a : σ}
    (h : holds a s) : (loop step a setting s).Ends holds onFail :=
  endsWith_loop holds hstep h

/-- A repetition that answers has had its first turn. -/
theorem repeatAlong_first {step : σ → Parser (Bool × σ)} {fuel : List Lexeme} {a b : σ}
    (h : repeatAlong step fuel a setting s = .ok b after) :
    ∃ again a' s', step a setting s = .ok (again, a') s' ∧
      (b = a' ∨ ∃ lexeme fuel', fuel = lexeme :: fuel' ∧ repeatAlong step fuel' a' setting s' = .ok b after) := by
  cases fuel with
  | nil =>
    rw [repeatAlong] at h
    obtain ⟨⟨again, a'⟩, s', hstep, hdone⟩ := bind_eq_ok_iff.1 h
    cases hdone
    exact ⟨again, _, _, hstep, .inl rfl⟩
  | cons lexeme fuel =>
    rw [repeatAlong] at h
    obtain ⟨⟨again, a'⟩, s', hstep, hdone⟩ := bind_eq_ok_iff.1 h
    refine ⟨again, a', s', hstep, ?_⟩
    cases again with
    | true => exact .inr ⟨lexeme, fuel, rfl, hdone⟩
    | false =>
      cases hdone
      exact .inl rfl

/-- One turn of a repetition that collects what it finds, turn by turn. -/
def collectTurn (step : Parser (Bool × List α)) (turns : List (List α)) :
    Parser (Bool × List (List α)) := do
  let (again, found) ← step
  pure (again, found :: turns)

theorem collectTurn_eq {step : Parser (Bool × List α)} {again : Bool} {found : List α} {s' : State}
    (h : step setting s = .ok (again, found) s') (turns : List (List α)) :
    collectTurn step turns setting s = .ok (again, found :: turns) s' := by
  rw [collectTurn, bind_ok h]
  rfl

/-- What the turns have found stays among what is found. -/
theorem subset_of_collectTurn {step : Parser (Bool × List α)} {fuel : List Lexeme}
    {turns turns' : List (List α)}
    (h : repeatAlong (collectTurn step) fuel turns setting s = .ok turns' after) : turns ⊆ turns' := by
  induction fuel generalizing turns s with
  | nil =>
    obtain ⟨again, turns₁, s₁, hturn, rfl | ⟨_, _, hnil, -⟩⟩ := repeatAlong_first h
    · obtain ⟨found, s₂, -, hfound⟩ := bind_eq_ok_iff.1 hturn
      cases hfound
      exact List.subset_cons_self _ _
    · cases hnil
  | cons lexeme fuel ih =>
    obtain ⟨again, turns₁, s₁, hturn, hmore⟩ := repeatAlong_first h
    obtain ⟨found, s₂, -, hfound⟩ := bind_eq_ok_iff.1 hturn
    cases hfound
    obtain rfl | ⟨_, _, hcons, hmore⟩ := hmore
    · exact List.subset_cons_self _ _
    · cases hcons
      exact List.Subset.trans (List.subset_cons_self _ _) (ih hmore)

/-- What the first turn finds is among all that is found. -/
theorem collect_first {step : Parser (Bool × List α)} {as : List α}
    (h : collect step setting s = .ok as after) :
    ∃ again found s', step setting s = .ok (again, found) s' ∧ found ⊆ as := by
  obtain ⟨turns, s₁, hturns, hdone⟩ := bind_eq_ok_iff.1 h
  cases hdone
  obtain ⟨again, turns₁, s₂, hturn, hmore⟩ := repeatAlong_first hturns
  obtain ⟨⟨again, found⟩, s₃, hstep, hfound⟩ := bind_eq_ok_iff.1 hturn
  cases hfound
  refine ⟨again, found, _, hstep, fun a ha => List.mem_flatten.2 ⟨found, List.mem_reverse.2 ?_, ha⟩⟩
  obtain rfl | ⟨lexeme, fuel, -, hmore⟩ := hmore
  · exact List.mem_cons_self
  · exact subset_of_collectTurn hmore List.mem_cons_self

/-- One turn in the reading of elements with commas between them. -/
def commaTurn (close : Symbol) (elem : Parser α) : Parser (Bool × List α) := do
  if ← sees close then
    pure (false, [])
  else
    let a ← elem
    pure (← accept .comma, [a])

end Parser

end ActorFrontend
