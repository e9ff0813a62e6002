import ActorFrontend.Grammar.Statements
import ActorFrontend.Proofs.Replies

/-!
# The course of a reading

A reading takes its state from step to step: it passes over tokens, gives out numbers, records
errors, enters contexts and levels and leaves them again, reads splices and recovers from errors.
`Course` lists these steps.  What every step keeps, every reading keeps.
-/

namespace ActorFrontend

/-- Whether the error breaks off the construct that is being read.  Others are recorded where they
are found, and the reading goes on. -/
def ParseCause.stops : ParseCause → Bool
  | .expected _ _ | .tooDeep _ => true
  | .missingSemicolon _ | .duplicate _ => false

def TokenKind.isBrace : TokenKind → Bool
  | .symbol .leftBrace | .symbol .rightBrace => true
  | _ => false

/-- Where a splice is read. -/
def Setting.inSplice (setting : Setting) (span : Span) : Setting :=
  { setting with endOfInput := .empty span.stop }

/-- The state in which the reading of a splice starts, in the midst of a string. -/
def State.inSplice (setting : Setting) (tokens : List Token) (s : State) : State :=
  { State.initial setting (Lexeme.significant false tokens) with
    nextId := s.nextId
    depth := s.depth }

/-- The state from which the parts of a construct go on when the one that started at `s` failed at
`after`. -/
def State.recover (recovery : Recovery) (setting : Setting) (s : State) (error : ParseError)
    (after : State) : State :=
  let noted := after.record setting error
  if noted.halted then noted.skip (recovery.abandon noted.rest)
  else
    let resumed := noted.skip (recovery.resume noted.rest)
    if resumed.rest.length = s.rest.length then resumed.advance else resumed

/-- What a reading does from one state to a later one.  The numbers are those of the braces that the
constructs being read hold open; only a reading that is `loud` records errors. -/
inductive Course (loud : Bool) : Setting → State → Nat → State → Nat → Prop where
  | refl {setting : Setting} {s : State} {n : Nat} : Course loud setting s n s n
  | trans {setting : Setting} {s s' s'' : State} {n n' n'' : Nat} :
      Course loud setting s n s' n' → Course loud setting s' n' s'' n'' →
      Course loud setting s n s'' n''
  /-- A token is passed over that is no brace. -/
  | pass {setting : Setting} {s : State} {n : Nat} (hkind : s.kind.isBrace = false) :
      Course loud setting s n s.advance n
  | opening {setting : Setting} {s : State} {n : Nat} (hkind : s.kind = .symbol .leftBrace) :
      Course loud setting s n s.advance (n + 1)
  | closing {setting : Setting} {s : State} {n : Nat} (hkind : s.kind = .symbol .rightBrace) :
      Course loud setting s (n + 1) s.advance n
  | number {setting : Setting} {s : State} {n : Nat} :
      Course loud setting s n { s with nextId := s.nextId + 1 } n
  /-- An error is recorded that does not break off the reading. -/
  | note {setting : Setting} {s : State} {n : Nat} (error : ParseError) (hloud : loud = true)
      (herror : error.cause.stops = false) : Course loud setting s n (s.record setting error) n
  | within {setting : Setting} {s s' : State} {n n' : Nat} (context : Context)
      (h : Course loud setting { s with context } n s' n') :
      Course loud setting s n { s' with context := s.context } n'
  | deeper {setting : Setting} {s s' : State} {n n' : Nat}
      (hdepth : s.depth < setting.limits.maxDepth)
      (h : Course loud setting { s with depth := s.depth + 1 } n s' n') :
      Course loud setting s n { s' with depth := s'.depth - 1 } n'
  | splice {setting : Setting} {s inner : State} {n m : Nat} (tokens : List Token) (span : Span)
      (hloud : loud = true)
      (h : Course loud (setting.inSplice span) (s.inSplice (setting.inSplice span) tokens) 0 inner
        m) :
      Course loud setting s n (Parser.leaveSplice setting s inner) n
  /-- A part fails.  The braces that its constructs held open count no longer. -/
  | recover {setting : Setting} {s after : State} {n m : Nat} (recovery : Recovery)
      (error : ParseError) (hloud : loud = true)
      (hrecovery : recovery = .statements ∨ recovery = .members)
      (hstart : (s.kind.isSymbol .rightBrace || s.atEnd) = false)
      (h : Course loud setting s 0 after m) (herror : error.cause.stops = true) :
      Course loud setting s n (s.recover recovery setting error after) n
  /-- What is left of a construct is passed over, as nothing more is recorded. -/
  | abandon {setting : Setting} {s : State} {n : Nat} (hloud : loud = true)
      (hhalted : s.halted = true) :
      Course loud setting s n (s.skip (Recovery.toClosingBrace 0 s.rest)) n

variable {loud : Bool} {setting : Setting} {α β σ : Type} {s₀ s s' : State} {n₀ n n' : Nat}
  {b c : Bool}

/-! ## The cursor -/

namespace State

theorem rest_advance_suffix (s : State) : s.advance.rest <:+ s.rest := by
  rw [rest_advance]
  exact List.drop_suffix 1 s.rest

theorem rest_skip_suffix (k : Nat) (s : State) : (s.skip k).rest <:+ s.rest := by
  rw [rest_skip]
  exact List.drop_suffix k s.rest

theorem rest_advance_lt (h : s.kind ≠ .endOfFile) : s.advance.rest.length < s.rest.length := by
  cases hrest : s.rest with
  | nil => exact absurd (by rw [State.kind, hrest]) h
  | cons lexeme rest => simp [rest_advance, hrest]

@[simp] theorem rest_record (setting : Setting) (error : ParseError) (s : State) :
    (s.record setting error).rest = s.rest := by
  unfold record
  split <;> rfl

@[simp] theorem rest_leaveSplice (setting : Setting) (s inner : State) :
    (Parser.leaveSplice setting s inner).rest = s.rest := by
  have hfold : ∀ (errors : List ParseError) (s : State),
      (errors.foldl (fun s error => s.record setting error) s).rest = s.rest := by
    intro errors
    induction errors with
    | nil => exact fun _ => rfl
    | cons error errors ih => exact fun s => (ih _).trans (rest_record setting error s)
  exact hfold inner.errors { s with nextId := inner.nextId }

theorem rest_recover_suffix (recovery : Recovery) (setting : Setting) (s : State)
    (error : ParseError) (after : State) :
    (s.recover recovery setting error after).rest <:+ after.rest := by
  have hnoted : (after.record setting error).rest <:+ after.rest := by simp
  unfold recover
  simp only
  split
  · exact (rest_skip_suffix _ _).trans hnoted
  · split
    · exact (rest_advance_suffix _).trans ((rest_skip_suffix _ _).trans hnoted)
    · exact (rest_skip_suffix _ _).trans hnoted

end State

/-- The cursor only goes forward, and not beyond the last token. -/
theorem Course.rest_suffix (h : Course loud setting s n s' n') : s'.rest <:+ s.rest := by
  induction h with
  | refl => exact List.suffix_rfl
  | trans _ _ ih ih' => exact ih'.trans ih
  | pass _ | opening _ | closing _ => exact State.rest_advance_suffix _
  | number => exact List.suffix_rfl
  | note _ _ _ => simp
  | within _ _ ih | deeper _ _ ih => exact ih
  | splice => simp
  | recover recovery error _ _ _ _ _ ih =>
    exact (State.rest_recover_suffix recovery _ _ error _).trans ih
  | abandon _ _ => exact State.rest_skip_suffix _ _

/-! ## Stretches -/

/-- A course that passed over a token, if `eaten`. -/
structure Stretch (loud : Bool) (setting : Setting) (s₀ : State) (n₀ : Nat) (eaten : Bool)
    (s : State) (n : Nat) : Prop where
  course : Course loud setting s₀ n₀ s n
  shorter : eaten = true → s.rest.length < s₀.rest.length

/-- The answer of a parser that started at `s₀`, or at what followed it: a value tells whether a
token has been passed over, and an error is one that breaks off the reading. -/
def Reply.Follows (loud : Bool) (setting : Setting) (s₀ : State) (n₀ : Nat) (eats : α → Bool)
    (n : Nat) : Reply α → Prop
  | .ok a s => Stretch loud setting s₀ n₀ (eats a) s n
  | .fail e s => e.cause.stops = true ∧ ∃ m, Course loud setting s₀ n₀ s m

/-- The parser follows a course, wherever it runs, and holds no more braces open in the end. -/
def Parser.Follows (p : Parser α) (loud : Bool) (eats : α → Bool) : Prop :=
  ∀ setting s n, (p setting s).Follows loud setting s n eats n

/-- The parser passes over a token at least, unless it fails. -/
abbrev Parser.Consumes (p : Parser α) (loud : Bool) : Prop := p.Follows loud fun _ => true

namespace Stretch

theorem refl : Stretch loud setting s n false s n := ⟨.refl, nofun⟩

theorem trans (h : Stretch loud setting s₀ n₀ b s n) (h' : Stretch loud setting s n c s' n') :
    Stretch loud setting s₀ n₀ (b || c) s' n' where
  course := .trans h.course h'.course
  shorter hbc := by
    have hle := h.course.rest_suffix.length_le
    have hle' := h'.course.rest_suffix.length_le
    rcases Bool.or_eq_true_iff.1 hbc with hb | hc
    · exact Nat.lt_of_le_of_lt hle' (h.shorter hb)
    · exact Nat.lt_of_lt_of_le (h'.shorter hc) hle

theorem weaken (h : Stretch loud setting s₀ n₀ b s n) : Stretch loud setting s₀ n₀ false s n :=
  ⟨h.course, nofun⟩

/-- A step that leaves the cursor where it is. -/
theorem stay (h : Stretch loud setting s₀ n₀ b s n) (hstep : Course loud setting s n s' n)
    (hrest : s'.rest = s.rest) : Stretch loud setting s₀ n₀ b s' n :=
  ⟨.trans h.course hstep, fun hb => hrest ▸ h.shorter hb⟩

theorem advance (h : Stretch loud setting s₀ n₀ b s n) (hkind : s.kind.isBrace = false) :
    Stretch loud setting s₀ n₀ b s.advance n :=
  ⟨.trans h.course (.pass hkind), fun hb =>
    Nat.lt_of_le_of_lt s.rest_advance_suffix.length_le (h.shorter hb)⟩

/-- A token that is passed over, whatever it does to the braces. -/
theorem token (h : Stretch loud setting s₀ n₀ b s n) (hstep : Course loud setting s n s.advance n')
    (hne : s.kind ≠ .endOfFile) : Stretch loud setting s₀ n₀ true s.advance n' :=
  ⟨.trans h.course hstep, fun _ =>
    Nat.lt_of_lt_of_le (s.rest_advance_lt hne) h.course.rest_suffix.length_le⟩

theorem advanceOver (h : Stretch loud setting s₀ n₀ b s n) (hkind : s.kind.isBrace = false)
    (hne : s.kind ≠ .endOfFile) : Stretch loud setting s₀ n₀ true s.advance n :=
  h.token (.pass hkind) hne

/-! ## Sequences -/

variable {eats : β → Bool}

theorem done {a : β} (h : Stretch loud setting s₀ n₀ b s n) (ha : eats a = true → b = true) :
    ((pure a : Parser β) setting s).Follows loud setting s₀ n₀ eats n :=
  ⟨h.course, fun heats => h.shorter (ha heats)⟩

theorem failed {e : ParseError} (h : Stretch loud setting s₀ n₀ b s n)
    (herror : e.cause.stops = true) : (Reply.fail e s).Follows loud setting s₀ n₀ eats n' :=
  ⟨herror, n, h.course⟩

/-- What a parser follows after what was read before. -/
theorem follow {r : Reply α} {eats : α → Bool} (h : Stretch loud setting s₀ n₀ b s n)
    (hr : r.Follows loud setting s n eats n') :
    r.Follows loud setting s₀ n₀ (fun a => b || eats a) n' := by
  cases r with
  | ok a s' => exact h.trans hr
  | fail e s' => exact ⟨hr.1, hr.2.imp fun _ hcourse => .trans h.course hcourse⟩

/-- A parser where the reading stands, and what follows it. -/
theorem step {p : Parser α} {q : α → Parser β} {passes : α → Bool} {m : Nat}
    (h : Stretch loud setting s₀ n₀ b s n)
    (hp : (p setting s).Follows loud setting s n passes n')
    (hq : ∀ a s', Stretch loud setting s₀ n₀ (b || passes a) s' n' →
      (q a setting s').Follows loud setting s₀ n₀ eats m) :
    ((p >>= q) setting s).Follows loud setting s₀ n₀ eats m := by
  change (Parser.bind p q setting s).Follows loud setting s₀ n₀ eats m
  unfold Parser.bind
  cases hreply : p setting s with
  | ok a s' =>
    rw [hreply] at hp
    exact hq a s' (h.trans hp)
  | fail e s' =>
    rw [hreply] at hp
    exact ⟨hp.1, hp.2.imp fun _ hcourse => .trans h.course hcourse⟩

/-- A parser and what follows it. -/
theorem bind {p : Parser α} {q : α → Parser β} {passes : α → Bool} {m : Nat}
    (h : Stretch loud setting s₀ n₀ b s n) (hp : p.Follows loud passes)
    (hq : ∀ a s', Stretch loud setting s₀ n₀ (b || passes a) s' n →
      (q a setting s').Follows loud setting s₀ n₀ eats m) :
    ((p >>= q) setting s).Follows loud setting s₀ n₀ eats m :=
  h.step (hp setting s n) hq

/-- A parser at the end of a sequence. -/
theorem last {p : Parser β} {passes : β → Bool} (h : Stretch loud setting s₀ n₀ b s n)
    (hp : p.Follows loud passes) (heats : ∀ a, eats a = true → (b || passes a) = true) :
    (p setting s).Follows loud setting s₀ n₀ eats n := by
  have hrun := h.follow (hp setting s n)
  cases hreply : p setting s with
  | ok a s' =>
    rw [hreply] at hrun
    exact ⟨hrun.course, fun ha => hrun.shorter (heats a ha)⟩
  | fail e s' =>
    rw [hreply] at hrun
    exact hrun

/-- Something read off the state. -/
theorem query {γ : Type} {f : State → γ} {q : γ → Parser β}
    (hq : (q (f s) setting s).Follows loud setting s₀ n₀ eats n) :
    ((Parser.query f >>= q) setting s).Follows loud setting s₀ n₀ eats n :=
  hq

/-- The kind of the token at hand. -/
theorem kind {q : TokenKind → Parser β}
    (hq : ∀ kind, s.kind = kind → (q kind setting s).Follows loud setting s₀ n₀ eats n) :
    ((Parser.kind >>= q) setting s).Follows loud setting s₀ n₀ eats n :=
  hq s.kind rfl

/-- The place of the token at hand. -/
theorem span {q : Span → Parser β}
    (hq : (q (s.span setting) setting s).Follows loud setting s₀ n₀ eats n) :
    ((Parser.span >>= q) setting s).Follows loud setting s₀ n₀ eats n :=
  hq

/-- Where the token at hand starts. -/
theorem start {q : Nat → Parser β}
    (hq : (q (s.span setting).start setting s).Follows loud setting s₀ n₀ eats n) :
    ((Parser.start >>= q) setting s).Follows loud setting s₀ n₀ eats n :=
  hq

end Stretch

end ActorFrontend
