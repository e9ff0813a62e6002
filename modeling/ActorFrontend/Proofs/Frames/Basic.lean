import ActorFrontend.Grammar.Statements
import ActorFrontend.Proofs.Alike.Kept

/-!
# The frame of a reading

What a construct may look like depends on where it stands: on the forms of expression that are
possible there, and on how deep it is nested.  Together they are the frame of the reading.  A parser
changes it for the constructs inside the one that it reads, and puts it back whatever it answers.

How deep a parser goes meanwhile is told by a watch on what nests: beyond a depth other rules take
over.  Where these are never asked, whatever they are, nothing is read at such a depth.
-/

namespace ActorFrontend

/-- The context and the nesting depth are those of the first state. -/
structure State.SameFrame (s s' : State) : Prop where
  context : s'.context = s.context
  depth : s'.depth = s.depth

namespace State.SameFrame

variable {s s' s'' : State}

theorem refl (s : State) : s.SameFrame s := ⟨rfl, rfl⟩

theorem trans (h : s.SameFrame s') (h' : s'.SameFrame s'') : s.SameFrame s'' :=
  ⟨h'.context.trans h.context, h'.depth.trans h.depth⟩

end State.SameFrame

theorem State.Kept.sameFrame {loud : Bool} {s s' : State} (h : s.Kept loud s') : s.SameFrame s' :=
  ⟨h.context, h.depth⟩

/-- Reads with `p` down to a depth, and with `other` where it is deeper. -/
def Parser.downTo {α : Type} (deepest : Nat) (p other : Parser α) : Parser α := fun setting s =>
  if s.depth ≤ deepest then p setting s else other setting s

/-- The rules where so many levels are left, but for what nests deeper than `deepest`: that is read
with `other`. -/
def Rules.downTo (deepest : Nat) (other : Rules) : Nat → Rules
  | 0 => .refusing
  | levels + 1 =>
      { type := .nested (.downTo deepest (Parser.typeRule (downTo deepest other levels)) other.type)
        pattern :=
          .nested (.downTo deepest (Parser.patternRule (downTo deepest other levels)) other.pattern)
        expr := fun minPower =>
          .nested (.downTo deepest (Parser.exprRule (downTo deepest other levels) minPower)
            (other.expr minPower))
        block :=
          .nested (.downTo deepest (Parser.blockRule (downTo deepest other levels)) other.block)
        blockLike :=
          .nested (.downTo deepest (Parser.operand (downTo deepest other levels))
            other.blockLike) }

/-- Where neither the limit nor the state is deeper than `deepest`, both parsers answer the same, and
in the frame in which they started. -/
def Parser.Framed {α : Type} (deepest : Nat) (p p' : Parser α) : Prop :=
  ∀ setting s, setting.limits.maxDepth ≤ deepest → s.depth ≤ deepest →
    p setting s = p' setting s ∧ s.SameFrame (p setting s).state

/-- The readings of what nests answer the same down to a depth. -/
structure Rules.Framed (deepest : Nat) (g g' : Rules) : Prop where
  type : Parser.Framed deepest g.type g'.type
  pattern : Parser.Framed deepest g.pattern g'.pattern
  expr : ∀ minPower, Parser.Framed deepest (g.expr minPower) (g'.expr minPower)
  block : Parser.Framed deepest g.block g'.block
  blockLike : Parser.Framed deepest g.blockLike g'.blockLike

namespace Parser

variable {α β σ : Type} {deepest : Nat}

theorem Keeps.framed {p : Parser α} (h : p.Keeps true) : Framed deepest p p :=
  fun setting s _ _ => ⟨rfl, (h setting s).sameFrame⟩

namespace Framed

variable {p p' : Parser α}

theorem right (hp : Framed deepest p p') : Framed deepest p' p' := by
  intro setting s hlimit hs
  obtain ⟨heq, hframe⟩ := hp setting s hlimit hs
  exact ⟨rfl, heq ▸ hframe⟩

/-! ## Sequences -/

theorem value (a : α) : Framed deepest (pure a : Parser α) (pure a) := fun _ s _ _ => ⟨rfl, .refl s⟩

theorem bind {q q' : α → Parser β} (hp : Framed deepest p p')
    (hq : ∀ a, Framed deepest (q a) (q' a)) : Framed deepest (p >>= q) (p' >>= q') := by
  intro setting s hlimit hs
  obtain ⟨heq, hframe⟩ := hp setting s hlimit hs
  change Parser.bind p q setting s = Parser.bind p' q' setting s ∧
    s.SameFrame (Parser.bind p q setting s).state
  unfold Parser.bind
  rw [← heq]
  cases hreply : p setting s with
  | ok a after =>
    rw [hreply] at hframe
    -- what follows starts at the depth of the whole
    have hafter : after.depth ≤ deepest := hframe.depth ▸ hs
    obtain ⟨heq', hframe'⟩ := hq a setting after hlimit hafter
    exact ⟨heq', hframe.trans hframe'⟩
  | fail e after =>
    rw [hreply] at hframe
    exact ⟨rfl, hframe⟩

/-- A value made of what is read. -/
theorem map {f : α → β} (hp : Framed deepest p p') :
    Framed deepest (p >>= fun a => pure (f a)) (p' >>= fun a => pure (f a)) :=
  .bind hp fun _ => .value _

theorem ite {c : Prop} [Decidable c] {q q' : Parser α} (hp : Framed deepest p p')
    (hq : Framed deepest q q') :
    Framed deepest (if c then p else q) (if c then p' else q') := by
  split
  · exact hp
  · exact hq

/-! ## Looking and moving -/

theorem looked (f : Setting → State → α) :
    Framed deepest (fun setting s => .ok (f setting s) s) (fun setting s => .ok (f setting s) s) :=
  fun _ s _ _ => ⟨rfl, .refl s⟩

theorem fails (e : Setting → State → ParseError) :
    Framed deepest (fun setting s => .fail (e setting s) s : Parser α)
      (fun setting s => .fail (e setting s) s) :=
  fun _ s _ _ => ⟨rfl, .refl s⟩

theorem query (f : State → α) : Framed deepest (query f) (query f) := .looked fun _ => f

theorem kind : Framed deepest kind kind := .query _

theorem span : Framed deepest span span := .looked _

theorem start : Framed deepest start start := .looked _

theorem spanFrom (start : Nat) : Framed deepest (spanFrom start) (spanFrom start) := .query _

theorem expected (wanted : Expected) :
    Framed deepest (expected wanted : Parser α) (expected wanted) := .fails _

theorem tooDeep : Framed deepest (tooDeep : Parser α) tooDeep := .fails _

theorem advance : Framed deepest advance advance := Keeps.advance.framed

theorem freshId : Framed deepest freshId freshId := Keeps.freshId.framed

theorem record (error : ParseError) : Framed deepest (record error) (record error) :=
  fun setting s _ _ => ⟨rfl, (State.Kept.record setting error s).sameFrame⟩

theorem semicolon : Framed deepest semicolon semicolon := Keeps.semicolon.framed

theorem durationUnit? : Framed deepest durationUnit? durationUnit? := Keeps.durationUnit?.framed

/-! ## Single tokens -/

theorem acceptIf (test : TokenKind → Bool) : Framed deepest (acceptIf test) (acceptIf test) :=
  .bind (.query _) fun _ => .ite (.bind .advance fun _ => .value _) (.value _)

theorem accept (symbol : Symbol) : Framed deepest (accept symbol) (accept symbol) := .acceptIf _

theorem acceptKeyword (keyword : Keyword) :
    Framed deepest (acceptKeyword keyword) (acceptKeyword keyword) := .acceptIf _

theorem acceptWord (word : String) : Framed deepest (acceptWord word) (acceptWord word) :=
  .acceptIf _

theorem require (test : TokenKind → Bool) (wanted : Expected) :
    Framed deepest (require test wanted) (require test wanted) :=
  .bind (.acceptIf test) fun _ => .ite (.value _) (.expected wanted)

theorem expect (symbol : Symbol) : Framed deepest (expect symbol) (expect symbol) := .require _ _

theorem expectKeyword (keyword : Keyword) :
    Framed deepest (expectKeyword keyword) (expectKeyword keyword) := .require _ _

theorem expectWord (word : String) : Framed deepest (expectWord word) (expectWord word) :=
  .require _ _

theorem valueOf (value? : TokenKind → Option α) (wanted : Expected) :
    Framed deepest (valueOf value? wanted) (valueOf value? wanted) := by
  refine .bind .kind fun kind => ?_
  split
  · exact .bind .advance fun _ => .value _
  · exact .expected wanted

theorem name : Framed deepest name name := .valueOf _ _

theorem string : Framed deepest string string := .valueOf _ _

theorem integer : Framed deepest integer integer := .valueOf _ _

theorem node (start : Nat) (make : NodeId → Span → α) :
    Framed deepest (node start make) (node start make) :=
  .bind .freshId fun _ => .bind (.spanFrom start) fun _ => .value _

/-! ## Frames within -/

/-- The context that a parser is given is left with it. -/
theorem withContext (context : Context) (hp : Framed deepest p p') :
    Framed deepest (withContext context p) (withContext context p') := by
  intro setting s hlimit hs
  obtain ⟨heq, hframe⟩ := hp setting { s with context } hlimit hs
  unfold Parser.withContext
  rw [← heq, Reply.state_mapState]
  exact ⟨rfl, rfl, hframe.depth⟩

theorem enclosed (hp : Framed deepest p p') : Framed deepest (enclosed p) (enclosed p') :=
  .withContext _ hp

/-- A level that is entered is within the limit, so nothing is deeper than `deepest` there. -/
theorem nested (hp : Framed deepest p p') (other : Parser α) :
    Framed deepest (nested (p.downTo deepest other)) (nested p') := by
  intro setting s hlimit hs
  unfold Parser.nested
  split
  case isTrue => exact tooDeep setting s hlimit hs
  case isFalse hdepth =>
    have hinner : s.depth + 1 ≤ deepest := by omega
    obtain ⟨heq, hframe⟩ := hp setting { s with depth := s.depth + 1 } hlimit hinner
    have hwatch : p.downTo deepest other setting { s with depth := s.depth + 1 } =
        p setting { s with depth := s.depth + 1 } := if_pos hinner
    rw [hwatch, ← heq, Reply.state_mapState]
    refine ⟨rfl, hframe.context, ?_⟩
    rw [hframe.depth, Nat.add_sub_cancel]

theorem attempt (hp : Framed deepest p p') : Framed deepest (attempt p) (attempt p') := by
  intro setting s hlimit hs
  obtain ⟨heq, hframe⟩ := hp setting s hlimit hs
  unfold Parser.attempt
  rw [← heq]
  cases hreply : p setting s with
  | ok a after =>
    rw [hreply] at hframe
    exact ⟨rfl, hframe⟩
  | fail e after => exact ⟨rfl, rfl, rfl⟩

/-! ## Repetition -/

theorem repeatAlong {step step' : σ → Parser (Bool × σ)}
    (hstep : ∀ a, Framed deepest (step a) (step' a)) (fuel : List Lexeme) (a : σ) :
    Framed deepest (repeatAlong step fuel a) (repeatAlong step' fuel a) := by
  induction fuel generalizing a with
  | nil => exact .bind (hstep a) fun _ => .value _
  | cons _ fuel ih =>
    refine .bind (hstep a) fun turn => ?_
    exact .ite (ih turn.2) (.value turn.2)

theorem loop {step step' : σ → Parser (Bool × σ)}
    (hstep : ∀ a, Framed deepest (step a) (step' a)) (a : σ) :
    Framed deepest (loop step a) (loop step' a) :=
  fun setting s => repeatAlong hstep s.rest a setting s

theorem collect {step step' : Parser (Bool × List α)} (hstep : Framed deepest step step') :
    Framed deepest (collect step) (collect step') :=
  .bind (.loop (fun _ => .bind hstep fun _ => .value _) []) fun _ => .value _

theorem commaList (close : Symbol) (hp : Framed deepest p p') :
    Framed deepest (commaList close p) (commaList close p') := by
  refine .bind (.collect (.bind (.query _) fun closed => ?_)) fun elems =>
    .bind (.expect close) fun _ => .value elems
  exact .ite (.value _) (.bind hp fun a => .bind (.accept .comma) fun _ => .value _)

theorem commaTail (close : Symbol) (hp : Framed deepest p p') :
    Framed deepest (commaTail close p) (commaTail close p') := by
  refine .bind (.collect (.bind (.accept .comma) fun more => ?_)) fun elems =>
    .bind (.expect close) fun _ => .value elems
  refine .ite (.bind (.query _) fun closed => ?_) (.value _)
  exact .ite (.value _) (.bind hp fun a => .value _)

theorem optional {announced : Parser Bool} (hannounced : Framed deepest announced announced)
    (hp : Framed deepest p p') :
    Framed deepest (optional announced p) (optional announced p') :=
  .bind hannounced fun _ => .ite (.bind hp fun _ => .value _) (.value _)

theorem listIf {announced : Parser Bool} {list list' : Parser (List α)}
    (hannounced : Framed deepest announced announced) (hlist : Framed deepest list list') :
    Framed deepest (listIf announced list) (listIf announced list') :=
  .bind hannounced fun _ => .ite hlist (.value _)

theorem path : Framed deepest path path := by
  refine .bind .name fun first => .bind (.collect (.bind (.query _) fun more => ?_)) fun _ => .value _
  exact .ite (.bind .advance fun _ => .bind .name fun part => .value _) (.value _)

/-! ## Recovery -/

/-- Recovery from an error puts nothing back, and has nothing to put back. -/
theorem resilient (recovery : Recovery) {part part' : σ → Parser σ} {a : σ}
    (hpart : Framed deepest (part a) (part' a)) :
    Framed deepest (resilient recovery part a) (resilient recovery part' a) := by
  intro setting s hlimit hs
  obtain ⟨heq, hframe⟩ := hpart setting s hlimit hs
  refine ⟨by rw [Parser.resilient, Parser.resilient, heq], ?_⟩
  cases hhalted : s.halted with
  | true =>
    rw [Parser.resilient, if_pos hhalted]
    have hskip : s.Kept true (s.skip (recovery.abandon s.rest)) := .skip _ s
    exact hskip.sameFrame
  | false => exact hframe.trans (Keeps.kept_resilient hhalted).sameFrame

theorem bodyParts (recovery : Recovery) {part part' : σ → Parser σ}
    (hpart : ∀ a, Framed deepest (part a) (part' a)) (a : σ) :
    Framed deepest (bodyParts recovery part a) (bodyParts recovery part' a) :=
  .loop (fun a => .bind (.query _) fun _ => .ite (.value _) (.resilient recovery (hpart a))) a

end Framed

end Parser

end ActorFrontend
