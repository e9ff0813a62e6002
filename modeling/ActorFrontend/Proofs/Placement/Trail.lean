import ActorFrontend.Grammar.Recovery
import ActorFrontend.Grammar.Rules
import ActorFrontend.Proofs.Placement.Forest
import ActorFrontend.Proofs.Replies

/-!
# What a reading lays

From one state of a reading to a later one, outlines are laid in the text between the two and take
their numbers from those given out in between.  A parser is described by the outlines that make up
its value.  A parser that fails leaves a later state as well, and nothing that counts is laid then;
its error is placed, as are all errors that it has recorded.
-/

namespace ActorFrontend

open Source

/-- The two states are at the same place and have given out the same numbers. -/
structure State.SamePlace (s s' : State) : Prop where
  rest : s'.rest = s.rest
  previousEnd : s'.previousEnd = s.previousEnd
  nextId : s'.nextId = s.nextId

/-- Between `s₀` and `s` the outlines `os` were laid; if `eaten`, a token was passed over. -/
structure Trail (source : List Char) (setting : Setting) (s₀ : State) (eaten : Bool) (s : State)
    (os : List Outline) : Prop where
  base : s₀.Located source setting
  located : s.Located source setting
  start_le : (s₀.span setting).start ≤ (s.span setting).start
  previousEnd_le : s₀.previousEnd ≤ s.previousEnd
  nextId_le : s₀.nextId ≤ s.nextId
  passed : eaten = true → (s₀.span setting).start ≤ s.previousEnd
  laid : Laid source (s₀.span setting).start s.previousEnd s₀.nextId s.nextId os

/-- The answer of a parser that started at `s₀`, or at what followed it: the outlines that have been
laid make up the value. -/
def Reply.Lays {α : Type} (source : List Char) (setting : Setting) (s₀ : State) (eaten : Bool)
    (makes : α → List Outline → Prop) (r : Reply α) : Prop :=
  r.EndsWith (fun a s => ∃ os, makes a os ∧ Trail source setting s₀ eaten s os)
    fun e s => e.span.Placed source ∧ Trail source setting s₀ false s []

/-- The parser lays outlines that make up its value, wherever it runs. -/
def Parser.LaysThat {α : Type} (p : Parser α) (source : List Char) (eaten : Bool)
    (makes : α → List Outline → Prop) : Prop :=
  ∀ setting s, s.Located source setting → (p setting s).Lays source setting s eaten makes

/-- The parser lays the outlines of its value, wherever it runs. -/
abbrev Parser.Lays {α : Type} (p : Parser α) (source : List Char) (eaten : Bool)
    (view : α → List Outline) : Prop :=
  p.LaysThat source eaten fun a os => view a = os

/-- The parser lays nothing. -/
abbrev Parser.Passes {α : Type} (p : Parser α) (source : List Char) (eaten : Bool) : Prop :=
  p.Lays source eaten fun _ => []

/-- What nests lays its own outline. -/
structure Rules.Lay (source : List Char) (g : Rules) : Prop where
  type : g.type.Lays source true outlines
  pattern : g.pattern.Lays source true outlines
  expr : ∀ minPower, (g.expr minPower).Lays source true outlines
  block : g.block.Lays source true outlines
  blockLike : g.blockLike.Lays source true outlines

variable {source : List Char} {setting : Setting} {α β σ : Type} {s₀ s : State}
  {os os' : List Outline} {b c d : Bool}

theorem State.Located.congr {s' : State} (h : s.Located source setting) (hrest : s'.rest = s.rest)
    (hprevious : s'.previousEnd = s.previousEnd) (herrors : ∀ e ∈ s'.errors, e.span.Placed source) :
    s'.Located source setting :=
  ⟨hprevious ▸ h.behind, by rw [hprevious, hrest]; exact h.ahead, h.boundary_stop, h.stop_eq,
    herrors⟩

namespace Trail

theorem refl (h : s.Located source setting) : Trail source setting s false s [] :=
  ⟨h, h, Nat.le_refl _, Nat.le_refl _, Nat.le_refl _, nofun, .nil⟩

theorem trans {s' : State} (h : Trail source setting s₀ b s os)
    (h' : Trail source setting s c s' os') : Trail source setting s₀ (b || c) s' (os ++ os') where
  base := h.base
  located := h'.located
  start_le := Nat.le_trans h.start_le h'.start_le
  previousEnd_le := Nat.le_trans h.previousEnd_le h'.previousEnd_le
  nextId_le := Nat.le_trans h.nextId_le h'.nextId_le
  passed hbc := by
    -- whichever reading passed over a token has brought the end behind the start
    rcases Bool.or_eq_true_iff.1 hbc with hb | hc
    · exact Nat.le_trans (h.passed hb) h'.previousEnd_le
    · exact Nat.le_trans h.start_le (h'.passed hc)
  laid := h.laid.append h'.laid h.start_le h.located.previousEnd_le_start h'.previousEnd_le
    h.nextId_le (Nat.le_refl _) h'.nextId_le

/-- Of a state only its place, the numbers given out and the errors recorded matter. -/
theorem congr {s' : State} (h : Trail source setting s₀ b s os) (hs : s.SamePlace s')
    (herrors : ∀ e ∈ s'.errors, e.span.Placed source) : Trail source setting s₀ b s' os := by
  have hspan : s'.span setting = s.span setting := by simp only [State.span, hs.rest]
  constructor
  case base => exact h.base
  case located => exact h.located.congr hs.rest hs.previousEnd herrors
  case start_le => exact hspan ▸ h.start_le
  case previousEnd_le => exact hs.previousEnd ▸ h.previousEnd_le
  case nextId_le => exact hs.nextId ▸ h.nextId_le
  case passed => exact hs.previousEnd ▸ h.passed
  case laid => rw [hs.previousEnd, hs.nextId]; exact h.laid

theorem rebase {s₀' : State} (h : Trail source setting s₀ b s os) (hs : s₀.SamePlace s₀')
    (h₀ : s₀'.Located source setting) : Trail source setting s₀' b s os := by
  have hspan : s₀'.span setting = s₀.span setting := by simp only [State.span, hs.rest]
  constructor
  case base => exact h₀
  case located => exact h.located
  case start_le => exact hspan ▸ h.start_le
  case previousEnd_le => exact hs.previousEnd ▸ h.previousEnd_le
  case nextId_le => exact hs.nextId ▸ h.nextId_le
  case passed => exact hspan ▸ h.passed
  case laid => rw [hspan, hs.nextId]; exact h.laid

/-- What was laid may be taken for something else that is laid in the same place. -/
theorem relaid (h : Trail source setting s₀ b s os)
    (hlaid : ∀ lo hi first next, Laid source lo hi first next os →
      Laid source lo hi first next os') : Trail source setting s₀ b s os' :=
  ⟨h.base, h.located, h.start_le, h.previousEnd_le, h.nextId_le, h.passed, hlaid _ _ _ _ h.laid⟩

theorem sublist (h : Trail source setting s₀ b s os) (hs : os'.Sublist os) :
    Trail source setting s₀ b s os' :=
  h.relaid fun _ _ _ _ hlaid => hlaid.sublist hs

theorem weaken (h : Trail source setting s₀ b s os) : Trail source setting s₀ false s os :=
  ⟨h.base, h.located, h.start_le, h.previousEnd_le, h.nextId_le, nofun, h.laid⟩

/-- A state after another one, whatever has been laid. -/
theorem follow {s' : State} (h : Trail source setting s₀ b s os)
    (h' : Trail source setting s c s' []) : Trail source setting s₀ (b || c) s' os := by
  simpa using h.trans h'

/-! ## Passing over tokens -/

theorem ofAdvance (h : s.Located source setting) (hkind : c = true → s.kind ≠ .endOfFile) :
    Trail source setting s c s.advance [] where
  base := h
  located := h.advance
  start_le := h.le_advance.2
  previousEnd_le := h.le_advance.1
  nextId_le := by
    unfold State.advance
    split <;> exact Nat.le_refl _
  passed hc := by
    rw [State.span_stop_advance (hkind hc)]
    exact h.start_le_stop
  laid := .nil

theorem advance (h : Trail source setting s₀ b s os) :
    Trail source setting s₀ b s.advance os := by
  have hstep : Trail source setting s false s.advance [] := ofAdvance h.located nofun
  simpa using h.trans hstep

theorem advanceOver (h : Trail source setting s₀ b s os) (hkind : s.kind ≠ .endOfFile) :
    Trail source setting s₀ true s.advance os := by
  have hstep : Trail source setting s true s.advance [] := ofAdvance h.located fun _ => hkind
  simpa using h.trans hstep

theorem skip (h : Trail source setting s₀ b s os) (n : Nat) :
    Trail source setting s₀ b (s.skip n) os := by
  induction n generalizing s with
  | zero => exact h
  | succ n ih => exact ih h.advance

theorem record (h : Trail source setting s₀ b s os) {error : ParseError}
    (herror : error.span.Placed source) : Trail source setting s₀ b (s.record setting error) os := by
  have hplace : s.SamePlace (s.record setting error) := by
    unfold State.record
    split <;> exact ⟨rfl, rfl, rfl⟩
  exact h.congr hplace (State.Located.errors_record h.located.errors herror)

/-! ## Finishing a node -/

/-- A node around all that was laid. -/
theorem wrap {s' : State} {id : Option Nat} {span : Span} {parts aside : List Outline}
    (h : Trail source setting s₀ b s os) (hmerged : Merged parts aside os)
    (hstart : Boundary source span.start) (hstop : Boundary source span.stop)
    (hle : span.start ≤ span.stop) (hlo : (s₀.span setting).start ≤ span.start)
    (hhi : span.stop ≤ s.previousEnd)
    (hwithin : ∀ o ∈ os, span.start ≤ o.span.start ∧ o.span.stop ≤ span.stop)
    (hs : s.SamePlace { s' with nextId := s.nextId }) (herrors : s'.errors = s.errors)
    (hnext : s.nextId ≤ s'.nextId) (hid : ∀ n ∈ id, s.nextId ≤ n ∧ n < s'.nextId) :
    Trail source setting s₀ b s' [.node id span parts aside] := by
  have hplace := h.congr hs (herrors ▸ h.located.errors)
  constructor
  case base => exact h.base
  case located => exact ⟨hplace.located.behind, hplace.located.ahead, h.located.boundary_stop,
    h.located.stop_eq, hplace.located.errors⟩
  case start_le => exact hplace.start_le
  case previousEnd_le => exact hplace.previousEnd_le
  case nextId_le => exact Nat.le_trans h.nextId_le hnext
  case passed => exact hplace.passed
  case laid =>
    have hprevious : s'.previousEnd = s.previousEnd := hs.previousEnd
    rw [hprevious]
    exact h.laid.wrap hmerged hstart hstop hle hlo hhi hwithin h.nextId_le hnext hid

/-- The first of the outlines starts before all others. -/
theorem start_le_of_mem {left : Outline} (h : Trail source setting s₀ b s (left :: os)) :
    ∀ o ∈ left :: os, left.span.start ≤ o.span.start := by
  intro o ho
  rcases List.mem_cons.1 ho with rfl | ho
  · exact Nat.le_refl _
  · have hbefore := List.rel_of_pairwise_cons h.laid.ordered ho
    have hle := (h.laid.nested left (List.mem_cons_self ..)).start_le_stop
    exact Nat.le_trans hle hbefore

end Trail

namespace Reply.Lays

variable {r : Reply α} {makes makes' : α → List Outline → Prop}

theorem weaken (h : r.Lays source setting s₀ b makes) : r.Lays source setting s₀ false makes :=
  h.imp (fun _ _ ⟨os, hmakes, htrail⟩ => ⟨os, hmakes, htrail.weaken⟩) fun _ _ hfail => hfail

theorem makesAlso (h : r.Lays source setting s₀ b makes) (himp : ∀ a os, makes a os → makes' a os) :
    r.Lays source setting s₀ b makes' :=
  h.imp (fun a _ ⟨os, hmakes, htrail⟩ => ⟨os, himp a os hmakes, htrail⟩) fun _ _ hfail => hfail

theorem rebase {s₀' : State} (h : r.Lays source setting s₀ b makes) (hs : s₀.SamePlace s₀')
    (h₀ : s₀'.Located source setting) : r.Lays source setting s₀' b makes :=
  h.imp (fun _ _ ⟨os, hmakes, htrail⟩ => ⟨os, hmakes, htrail.rebase hs h₀⟩)
    fun _ _ ⟨herror, htrail⟩ => ⟨herror, htrail.rebase hs h₀⟩

theorem mapState {f : State → State} (h : r.Lays source setting s₀ b makes)
    (hf : ∀ s : State, s.SamePlace (f s) ∧ (f s).errors = s.errors) :
    (r.mapState f).Lays source setting s₀ b makes := by
  cases r with
  | ok a s =>
    obtain ⟨os, hmakes, htrail⟩ := h
    exact ⟨os, hmakes, htrail.congr (hf s).1 ((hf s).2 ▸ htrail.located.errors)⟩
  | fail e s =>
    obtain ⟨herror, htrail⟩ := h
    exact ⟨herror, htrail.congr (hf s).1 ((hf s).2 ▸ htrail.located.errors)⟩

/-- What a parser lays after what was laid before. -/
theorem after (h : Trail source setting s₀ b s os)
    (hr : r.Lays source setting s c fun a os' => makes a (os ++ os')) :
    r.Lays source setting s₀ (b || c) makes :=
  hr.imp (fun _ _ ⟨os', hmakes, htrail⟩ => ⟨os ++ os', hmakes, h.trans htrail⟩)
    fun _ _ ⟨herror, htrail⟩ => ⟨herror, ((h.sublist (List.nil_sublist os)).trans htrail).weaken⟩

/-- A parser, wherever it runs, and what follows it. -/
theorem bind {p : Parser α} {q : α → Parser β} {made : β → List Outline → Prop}
    (hp : (p setting s).Lays source setting s₀ b makes)
    (hq : ∀ a s' os, makes a os → Trail source setting s₀ b s' os →
      (q a setting s').Lays source setting s₀ c made) :
    ((p >>= q) setting s).Lays source setting s₀ c made :=
  EndsWith.bind hp fun a s' ⟨os, hmakes, htrail⟩ => hq a s' os hmakes htrail

end Reply.Lays

namespace Trail

/-! ## Sequences -/

variable {makes : β → List Outline → Prop}

/-- A value that is made up of what was laid. -/
theorem done {a : β} (h : Trail source setting s₀ b s os) (hmakes : makes a os) :
    ((pure a : Parser β) setting s).Lays source setting s₀ b makes :=
  ⟨os, hmakes, h⟩

/-- A failure forgets what was laid. -/
theorem failedAt {e : ParseError} (h : Trail source setting s₀ b s os)
    (he : e.span.Placed source) : (Reply.fail e s).Lays source setting s₀ c makes :=
  ⟨he, (h.sublist (List.nil_sublist os)).weaken⟩

theorem failed {e : ParseError} (h : Trail source setting s₀ b s os)
    (he : e.span = s.span setting) : (Reply.fail e s).Lays source setting s₀ c makes :=
  h.failedAt (he ▸ h.located.placed_span)

theorem bindThat {p : Parser α} {q : α → Parser β} {made : α → List Outline → Prop}
    (h : Trail source setting s₀ b s os) (hp : p.LaysThat source c made)
    (hq : ∀ a s' os', made a os' → Trail source setting s₀ (b || c) s' (os ++ os') →
      (q a setting s').Lays source setting s₀ d makes) :
    ((p >>= q) setting s).Lays source setting s₀ d makes := by
  have hrun : (p setting s).Lays source setting s₀ (b || c)
      fun a os'' => ∃ os', os ++ os' = os'' ∧ made a os' :=
    .after h ((hp setting s h.located).makesAlso fun a os' hmade => ⟨os', rfl, hmade⟩)
  apply hrun.bind
  intro a s' _ hos h'
  obtain ⟨os', rfl, hmade⟩ := hos
  exact hq a s' os' hmade h'

/-- A parser and what follows it. -/
theorem bind {p : Parser α} {q : α → Parser β} {view : α → List Outline}
    (h : Trail source setting s₀ b s os) (hp : p.Lays source c view)
    (hq : ∀ a s', Trail source setting s₀ (b || c) s' (os ++ view a) →
      (q a setting s').Lays source setting s₀ d makes) :
    ((p >>= q) setting s).Lays source setting s₀ d makes := by
  apply h.bindThat hp
  intro a s' os' hos h'
  subst hos
  exact hq a s' h'

/-- A parser that lays nothing and what follows it. -/
theorem pass {p : Parser α} {q : α → Parser β} (h : Trail source setting s₀ b s os)
    (hp : p.Passes source c)
    (hq : ∀ a s', Trail source setting s₀ (b || c) s' os →
      (q a setting s').Lays source setting s₀ d makes) :
    ((p >>= q) setting s).Lays source setting s₀ d makes := by
  apply h.bind hp
  intro a s' h'
  rw [List.append_nil] at h'
  exact hq a s' h'

/-- A parser at the end of a sequence. -/
theorem last {p : Parser β} {view : β → List Outline} (h : Trail source setting s₀ b s os)
    (hp : p.Lays source c view) (hmakes : ∀ a, makes a (os ++ view a)) :
    (p setting s).Lays source setting s₀ (b || c) makes := by
  refine Reply.Lays.after h ((hp setting s h.located).makesAlso ?_)
  rintro a _ rfl
  exact hmakes a

/-- Something read off the state. -/
theorem query {f : State → α} {q : α → Parser β}
    (hq : (q (f s) setting s).Lays source setting s₀ d makes) :
    ((Parser.query f >>= q) setting s).Lays source setting s₀ d makes :=
  hq

/-- The kind of the token at hand. -/
theorem kind {q : TokenKind → Parser β}
    (hq : ∀ kind, s.kind = kind → (q kind setting s).Lays source setting s₀ d makes) :
    ((Parser.kind >>= q) setting s).Lays source setting s₀ d makes :=
  hq s.kind rfl

/-- The place of the token at hand. -/
theorem span {q : Span → Parser β}
    (hq : (q (s.span setting) setting s).Lays source setting s₀ d makes) :
    ((Parser.span >>= q) setting s).Lays source setting s₀ d makes :=
  hq

/-- Where the token at hand starts. -/
theorem start {q : Nat → Parser β}
    (hq : (q (s.span setting).start setting s).Lays source setting s₀ d makes) :
    ((Parser.start >>= q) setting s).Lays source setting s₀ d makes :=
  hq

end Trail

end ActorFrontend
