import ActorFrontend.Grammar.Session
import ActorFrontend.Proofs.Alike.Gaps
import ActorFrontend.Proofs.Alike.Relabel

/-!
# Readings that go alike

Two runs of the grammar are compared that differ in what surrounds the tokens: in the layout between
them, in the limits, in the nesting level, or in what follows.  `Parser.Alike` says of two parsers
that they take the same steps wherever what they look at is the same.  It is derived once for every
rule of the grammar; what two runs have in common is then found by induction on it.

The relation keeps count of what a run may have looked at.  A reading that looks at nothing behind
the semicolon it ends with does not depend on what follows there; a `Footing` records such facts
about the place where a run stands.

The second run may have a semicolon that the first one lacks.  Up to there both look at the same
tokens; at that place the first one must either go on without its token, as the second one does
without the semicolon, or take it, and then it never again stands where the semicolon is missing.
-/

namespace ActorFrontend

/-! ## What is compared -/

/-- In which respect two runs are compared. -/
structure Likeness where
  /-- Whether the places of tokens and nodes are the same. -/
  spans : Bool
  /-- Whether the numbers of nodes are the same. -/
  ids : Bool
  /-- Whether the first run may have fewer nesting levels left than the second one. -/
  lax : Bool

/-- What is not compared is forgotten. -/
def Likeness.relabeling (L : Likeness) : Renaming where
  span span := bif L.spans then span else .empty 0
  id id := bif L.ids then id else 0

/-- Trees and their parts are the same in what is compared. -/
@[simp] def Like {α : Type} [Relabeled α] (L : Likeness) (a a' : α) : Prop :=
  relabel L.relabeling a = relabel L.relabeling a'

/-- Spans are the same if places are compared. -/
@[simp] def Likeness.SameSpan (L : Likeness) (span span' : Span) : Prop :=
  L.relabeling.span span = L.relabeling.span span'

/-- Numbers of nodes are the same if they are compared. -/
@[simp] def Likeness.SameId (L : Likeness) (id id' : NodeId) : Prop :=
  L.relabeling.id id = L.relabeling.id id'

/-- Offsets are the same if places are compared. -/
def Likeness.SameOffset (L : Likeness) (offset offset' : Nat) : Prop :=
  L.spans = true → offset = offset'

/-- In which respect two runs are compared, and where the second one has a semicolon more. -/
structure Comparison extends Likeness where
  /-- Where the semicolon stands that the first run lacks, if there is one. -/
  mended : Option Nat
  /-- Places are not the same behind the semicolon. -/
  unplaced : mended ≠ none → spans = false
  /-- Both runs have the same nesting levels left. -/
  level : mended ≠ none → lax = false

instance : Coe Likeness Comparison := ⟨fun L => ⟨L, none, fun h => absurd rfl h, fun h => absurd rfl h⟩⟩

instance : Coe Comparison Likeness := ⟨Comparison.toLikeness⟩

namespace Comparison

/-- Places of the same token. -/
def Placed (L : Comparison) (span span' : Span) : Prop :=
  L.SameSpan span span' ∧ ∀ p, L.mended = some p → span' = span.insertAt p

/-- Offsets at which the same token starts. -/
def Started (L : Comparison) (start start' : Nat) : Prop :=
  L.SameOffset start start' ∧
    ∀ p, L.mended = some p → start' = if p ≤ start then start + 1 else start

end Comparison

/-- The same error, once another byte stands at `p`. -/
structure ParseError.Moved (p : Nat) (e e' : ParseError) : Prop where
  span : e'.span = e.span.insertAt p
  kind : e'.cause.kind = e.cause.kind
  message : e'.cause.message = e.cause.message
  hint? : e'.cause.hint? = e.cause.hint?
  note? : e'.cause.note? = e.cause.note?

/-! ## Tokens -/

namespace TokenKind

def isArrow : TokenKind → Bool
  | .symbol .arrow | .symbol .fatArrow => true
  | _ => false

/-- Whether something of its own starts with the token: a group in brackets or the parts of a
string. -/
def opens : TokenKind → Bool
  | .symbol s => s.opens
  | .interpolated _ => true
  | _ => false

end TokenKind

/-- Whether a name starts exactly where the token ends, as the unit of a duration must. -/
def Lexeme.isMet (lexeme : Lexeme) : List Lexeme → Bool
  | next :: _ => next.token.kind.isName && next.token.span.start == lexeme.token.span.stop
  | [] => false

/-- Up to where two token sequences are the same, and how they go on from there. -/
inductive Cut where
  /-- They are the same up to the end. -/
  | none
  /-- Up to and including a semicolon. -/
  | semicolon (left right : List Lexeme)
  /-- Up to and including a closing brace, which is the last token of the first sequence. -/
  | brace (right : List Lexeme)

namespace Cut

/-- How the first sequence goes on. -/
def left : Cut → List Lexeme
  | .semicolon left _ => left
  | _ => []

/-- How the second sequence goes on. -/
def right : Cut → List Lexeme
  | .semicolon _ right | .brace right => right
  | .none => []

/-- The last token that both sequences have. -/
def symbol? : Cut → Option Symbol
  | .none => Option.none
  | .semicolon _ _ => some .semicolon
  | .brace _ => some .rightBrace

end Cut

mutual

/-- Kinds of tokens that are the same but for what surrounds the tokens of splices. -/
inductive TokenKind.Alike (L : Likeness) : TokenKind → TokenKind → Prop where
  | same (kind : TokenKind) : TokenKind.Alike L kind kind
  | interpolated {fragments fragments' : List Fragment} (hspans : L.spans = false)
      (h : Fragment.AlikeAll L fragments fragments') :
      TokenKind.Alike L (.interpolated fragments) (.interpolated fragments')

inductive Fragment.AlikeAll (L : Likeness) : List Fragment → List Fragment → Prop where
  | nil : Fragment.AlikeAll L [] []
  | text {fragments fragments' : List Fragment} (value : String) (span span' : Span)
      (h : Fragment.AlikeAll L fragments fragments') :
      Fragment.AlikeAll L (.text value span :: fragments) (.text value span' :: fragments')
  | splice {fragments fragments' : List Fragment} {tokens tokens' : List Token} (span span' : Span)
      (htokens : Lexeme.AlikeUpTo L .none (Lexeme.significant false tokens)
        (Lexeme.significant false tokens'))
      (h : Fragment.AlikeAll L fragments fragments') :
      Fragment.AlikeAll L (.splice tokens span :: fragments) (.splice tokens' span' :: fragments')

/-- Token sequences that are the same up to a cut, but for what surrounds the tokens.  Of places
only this counts, apart from what is compared: whether a name starts exactly where an integer
before it ends. -/
inductive Lexeme.AlikeUpTo (L : Likeness) : Cut → List Lexeme → List Lexeme → Prop where
  | nil : Lexeme.AlikeUpTo L .none [] []
  | last {cut : Cut} {symbol : Symbol} {a a' : Lexeme} (hcut : cut.symbol? = some symbol)
      (hkind : a.token.kind = .symbol symbol) (hkind' : a'.token.kind = .symbol symbol)
      (hspan : L.spans = true → a.token.span = a'.token.span) :
      Lexeme.AlikeUpTo L cut (a :: cut.left) (a' :: cut.right)
  | cons {cut : Cut} {a a' : Lexeme} {rest rest' : List Lexeme}
      (hkind : TokenKind.Alike L a.token.kind a'.token.kind)
      (htext : (∀ fragments, a.token.kind ≠ .interpolated fragments) → a.token.text = a'.token.text)
      (hspan : L.spans = true → a.token.span = a'.token.span)
      (hmet : ∀ value, a.token.kind = .int value → a.isMet rest = a'.isMet rest')
      (h : Lexeme.AlikeUpTo L cut rest rest') : Lexeme.AlikeUpTo L cut (a :: rest) (a' :: rest')

end

/-- Kinds of tokens that stand at the same place of both sequences. -/
def Comparison.Matches (L : Comparison) (k k' : TokenKind) : Prop :=
  TokenKind.Alike L k k' ∨ (L.mended ≠ none ∧ k.Resembles k')

/-- The kinds of the tokens at hand in both runs, if they are known. -/
abbrev Hand := Option (TokenKind × TokenKind)

/-- What is known of the tokens at hand is true. -/
def Hand.Holds (hand : Hand) (kind kind' : TokenKind) : Prop :=
  ∀ k k', hand = some (k, k') → kind = k ∧ kind' = k'

theorem Hand.holds_none (kind kind' : TokenKind) : Hand.Holds none kind kind' := nofun

theorem Hand.holds_some (k k' : TokenKind) : Hand.Holds (some (k, k')) k k' := by
  rintro _ _ ⟨⟩
  exact ⟨rfl, rfl⟩

/-! ## Footings -/

/-- What is known of the place where a run stands, as to what it has read last and what it may have
looked at since. -/
structure Footing where
  /-- The token read last may be a semicolon, and nothing has been looked at since. -/
  ended : Bool
  /-- Something may have been looked at since the last token was read. -/
  looked : Bool
  /-- Something may have been looked at since, and the last token may be a semicolon. -/
  stale : Bool
  /-- An expression may have ended here, so that no arrow can follow that belongs to it. -/
  blocked : Bool
  deriving DecidableEq

namespace Footing

/-- Where nothing is known. -/
def unknown : Footing := ⟨true, true, true, true⟩

/-- Where nothing is known, but that the last token is not counted as an end. -/
def unread : Footing := ⟨false, true, true, true⟩

/-- Behind a token other than a semicolon. -/
def behind : Footing := ⟨false, false, false, false⟩

/-- Behind a token other than a semicolon, where a missing one is not assumed any more. -/
def loose : Footing := ⟨false, true, true, false⟩

/-- Behind a semicolon. -/
def closed : Footing := ⟨true, false, false, false⟩

/-- Behind a token other than a semicolon, and the next one has been looked at. -/
def firm : Footing := ⟨false, true, false, false⟩

/-- Behind an expression. -/
def read : Footing := ⟨false, true, false, true⟩

/-- Behind a statement: a semicolon, or an expression. -/
def finished : Footing := ⟨true, true, false, true⟩

/-- After a token of this kind has been read. -/
def after (kind : TokenKind) : Footing := if kind.isSymbol .semicolon then closed else behind

/-- After the next token has been looked at. -/
def look (φ : Footing) : Footing := { φ with looked := true }

/-- After the next token has been looked at, wherever that is. -/
def settle (φ : Footing) : Footing := ⟨false, true, φ.ended || φ.stale, φ.blocked⟩

def unblock (φ : Footing) : Footing := { φ with blocked := false }

/-- Where a missing semicolon is not assumed before another token has been read. -/
def still (φ : Footing) : Footing := { φ with stale := true }

/-- Everything that is known in the second case is known in the first one. -/
instance : LE Footing where
  le φ ψ := (φ.ended = true → ψ.ended = true) ∧ (φ.looked = true → ψ.looked = true) ∧
    (φ.stale = true → ψ.stale = true) ∧ (φ.blocked = true → ψ.blocked = true)

instance (φ ψ : Footing) : Decidable (φ ≤ ψ) := inferInstanceAs (Decidable (_ ∧ _))

theorem le_refl (φ : Footing) : φ ≤ φ := ⟨id, id, id, id⟩

theorem le_look (φ : Footing) : φ ≤ φ.look := ⟨id, fun _ => rfl, id, id⟩

theorem le_still (φ : Footing) : φ ≤ φ.still := ⟨id, id, fun _ => rfl, id⟩

theorem ended_look {φ : Footing} (h : φ.ended = false) : φ.look.ended = false := h

theorem ended_still {φ : Footing} (h : φ.ended = false) : φ.still.ended = false := h

end Footing

/-- The first run may stand where it lacks a semicolon. -/
def Comparison.Gap (L : Comparison) (φ : Footing) : Prop := L.mended ≠ none ∧ φ.stale = false

/-- What the first reading makes of the token at hand where the second one has a semicolon. -/
inductive Verdict where
  /-- It does not take it, no more than the second one takes the semicolon. -/
  | passes
  /-- It takes it, or fails. -/
  | takes
  /-- It ends before it. -/
  | ends

/-! ## Parsers -/

namespace Parser

variable {α β σ : Type}

/-- Reads in a context that depends on the present one; that is back afterwards. -/
def inContext (f : Context → Context) (p : Parser α) : Parser α := fun setting s =>
  withContext (f s.context) p setting s

/-- Where lambdas are possible, tries one reading; if it fails there, and everywhere else, another
one. -/
def guess (trial : Parser α) (whole : α → Parser β) (otherwise : Parser β) : Parser β := do
  if ← query fun s => s.context.lambdas then
    match ← attempt trial with
    | some a => whole a
    | none => otherwise
  else
    otherwise

/-- How a change of the context bears on what follows an expression.  Behind an expression that was
read where no lambda is possible, an arrow may follow.  What is enclosed does not end with a
semicolon. -/
inductive ContextRule (f : Context → Context) (φ χ : Footing) : Footing → Prop where
  | keep (h : ∀ c, (f c).lambdas = c.lambdas) : ContextRule f φ χ χ
  | enclose (h : ∀ c, (f c).lambdas = true) (hχ : χ.blocked = false) (hended : χ.ended = false) :
      ContextRule f φ χ χ
  | bar (h : ∀ c, (f c).lambdas = false) (hφ : φ.blocked = false) (hended : φ.ended = false) :
      ContextRule f φ χ χ.unblock

/-- The reading stops at an arrow, without an error and where lambdas are possible. -/
def StopsAtArrow (p : Parser α) (setting : Setting) (s : State) : Prop :=
  ∀ a after, p setting s = .ok a after →
    after.kind.isArrow = true ∧ after.context.lambdas = true

/-- The parsers take the same steps where they look at the same tokens.  `loud` readings may record
errors; those that are `inside` have passed over an opening bracket.  The relation holds of the
values that they answer with. -/
inductive Alike (L : Comparison) : {α : Type} → (loud inside : Bool) → Hand → Footing → Footing →
    (α → α → Prop) → Parser α → Parser α → Prop where
  | value {α : Type} {loud inside : Bool} {hand : Hand} {φ : Footing} {R : α → α → Prop} {a a' : α}
      (h : R a a') : Alike L loud inside hand φ φ R (pure a) (pure a')
  | bind {α β : Type} {loud inside : Bool} {hand : Hand} {φ ψ χ : Footing} {R : α → α → Prop}
      {S : β → β → Prop} {p p' : Parser α} {q q' : α → Parser β}
      (hp : Alike L loud inside hand φ ψ R p p')
      (hq : ∀ a a', R a a' → Alike L loud inside none ψ χ S (q a) (q' a')) :
      Alike L loud inside hand φ χ S (p >>= q) (p' >>= q')
  | weaken {α : Type} {loud loud' inside inside' : Bool} {hand hand' : Hand}
      {φ φ' χ χ' : Footing} {R S : α → α → Prop} {p p' : Parser α}
      (h : Alike L loud inside hand φ χ R p p') (hloud : loud = true → loud' = true)
      (hinside : inside = true → inside' = true) (hhand : hand = none ∨ hand = hand')
      (hφ : φ' ≤ φ) (hχ : χ ≤ χ') (hR : ∀ a a', R a a' → S a a') :
      Alike L loud' inside' hand' φ' χ' S p p'
  /-- What follows does not look at the tokens as if a statement had ended. -/
  | settle {α : Type} {loud : Bool} {hand : Hand} {φ χ : Footing} {R : α → α → Prop}
      {p p' : Parser α} (hmended : L.mended = none) (h : Alike L loud true hand φ.settle χ R p p') :
      Alike L loud true hand φ χ R p p'
  /-- A semicolon that ends nothing. -/
  | separator {loud : Bool} {k' : TokenKind} {φ : Footing} (hmended : L.mended ≠ none)
      (hended : φ.ended = false) :
      Alike L loud true (some (.symbol .semicolon, k')) φ .loose (fun _ _ => True) advance advance
  /-- The token at hand is no arrow. -/
  | unblock {α : Type} {loud inside : Bool} {k k' : TokenKind} {φ χ : Footing} {R : α → α → Prop}
      {p p' : Parser α} (hk : k.isArrow = false)
      (h : Alike L loud inside (some (k, k')) φ.unblock χ R p p') :
      Alike L loud inside (some (k, k')) φ χ R p p'
  | place {α β : Type} {loud inside : Bool} {hand : Hand} {φ χ : Footing} {R : β → β → Prop}
      {q q' : α → Parser β} (f : Span → α) (hstale : L.mended ≠ none → φ.stale = true)
      (hq : ∀ span span', L.Placed span span' →
        Alike L loud inside hand φ χ R (q (f span)) (q' (f span'))) :
      Alike L loud inside hand φ χ R
        ((fun setting s => .ok (f (s.span setting)) s : Parser α) >>= q)
        ((fun setting s => .ok (f (s.span setting)) s : Parser α) >>= q')
  | spanSince {loud inside : Bool} {hand : Hand} {φ : Footing} {start start' : Nat}
      (h : L.SameOffset start start') :
      Alike L loud inside hand φ φ
        (fun span span' => L.SameSpan span span' ∧
          (φ.ended = false → φ.stale = false → L.Started start start' → L.Placed span span'))
        (spanFrom start) (spanFrom start')
  | freshId {loud inside : Bool} {hand : Hand} {φ : Footing} :
      Alike L loud inside hand φ φ L.SameId freshId freshId
  | text {β : Type} {loud inside : Bool} {k k' : TokenKind} {φ χ : Footing} {R : β → β → Prop}
      {q q' : String → Parser β} (hk : k ≠ .endOfFile) (hsymbol : ∀ symbol, k ≠ .symbol symbol)
      (hstring : ∀ fragments, k ≠ .interpolated fragments) (hended : φ.ended = false)
      (hstale : L.mended ≠ none → φ.stale = true)
      (hq : ∀ text, Alike L loud inside (some (k, k')) φ χ R (q text) (q' text)) :
      Alike L loud inside (some (k, k')) φ χ R (query State.text >>= q) (query State.text >>= q')
  | kind {β : Type} {loud inside : Bool} {hand : Hand} {φ χ : Footing} {R : β → β → Prop}
      {q q' : TokenKind → Parser β} (hended : φ.ended = false)
      (hq : ∀ k k', L.Matches k k' →
        Alike L loud inside (some (k, k')) φ.look χ R (q k) (q' k'))
      (verdict : TokenKind → Verdict)
      (hpasses : L.Gap φ → ∀ k, verdict k = .passes →
        Alike L loud inside (some (k, .symbol .semicolon)) φ.look χ R (q k)
          (q' (.symbol .semicolon)))
      (htakes : L.Gap φ → ∀ k, verdict k = .takes →
        Alike L loud inside (some (k, k)) φ.look.still χ R (q k) (q' k))
      (hends : L.Gap φ → ∀ k, verdict k = .ends → χ.ended = true ∧ ∃ a, q k = pure a) :
      Alike L loud inside hand φ χ R (kind >>= q) (kind >>= q')
  /-- Something that depends on the context or on tokens further on.  Where it may tell different
  things the first reading fails, or the second one, were it to go on as the first one does, would
  fail at the missing semicolon. -/
  | look {α β : Type} {loud inside : Bool} {φ χ : Footing} {R : β → β → Prop} {f : State → α}
      {q q' : α → Parser β} (known : Option TokenKind) (hended : φ.ended = false)
      (hstable : ∀ cut s s', Lexeme.AlikeUpTo L cut s.rest s'.rest → s.context = s'.context →
        (∀ k ∈ known, s.kind = k) → f s = f s' ∨
          (cut.symbol? ≠ none ∧ (cut.symbol? = some .semicolon → inside = true) ∧
            ∀ setting, ∃ e after, q (f s) setting s = .fail e after))
      (hq : ∀ s s' : State, L.Matches s.kind s'.kind → f s = f s' →
        Alike L loud inside (some (known.elim (s.kind, s'.kind) fun k => (k, k))) φ.look χ R
          (q (f s)) (q' (f s)))
      (hknown : ∀ k ∈ known, k ≠ .symbol .semicolon)
      (hsteady : L.mended ≠ none → ∀ s s', Lexeme.Resembling s.rest s'.rest →
        s.context = s'.context → f s = f s')
      (hahead : L.mended ≠ none → ∀ behind setting setting' s s',
        Lexeme.Gapped behind s.rest s'.rest → behind.length < s.rest.length →
        s.context = s'.context → (∀ k ∈ known, s.kind = k) →
        f s = f s' ∨ Deflected behind (q (f s)) (q' (f s)) (q' (f s')) setting setting' s s')
      (verdict : State → Verdict)
      (hpasses : L.Gap φ → known = none → ∀ s s', s'.kind = .symbol .semicolon →
        s.context = s'.context → verdict s = .passes →
        Alike L loud inside (some (s.kind, .symbol .semicolon)) φ.look χ R (q (f s)) (q' (f s')))
      (htakes : L.Gap φ → known = none → ∀ s, verdict s = .takes →
        Alike L loud inside (some (s.kind, s.kind)) φ.look.still χ R (q (f s)) (q' (f s)))
      (hends : L.Gap φ → known = none → ∀ s, verdict s = .ends →
        χ.ended = true ∧ ∃ a, q (f s) = pure a) :
      Alike L loud inside (known.map fun k => (k, k)) φ χ R (query f >>= q) (query f >>= q')
  | advance {loud inside : Bool} {k k' : TokenKind} {φ : Footing} (hk : k ≠ .endOfFile)
      (hended : φ.ended = false) (harrow : k.isArrow = true → φ.blocked = false) :
      Alike L loud inside (some (k, k')) φ (.after k) (fun _ _ => True) advance advance
  | enter {β : Type} {loud inside : Bool} {k k' : TokenKind} {φ χ : Footing} {R : β → β → Prop}
      {q q' : Unit → Parser β} (hk : k.opens = true) (hended : φ.ended = false)
      (hq : Alike L loud true none .behind χ R (q ()) (q' ())) :
      Alike L loud inside (some (k, k')) φ χ R (advance >>= q) (advance >>= q')
  | fails {α : Type} {loud inside : Bool} {hand : Hand} {φ χ : Footing} {R : α → α → Prop}
      {e e' : Setting → State → ParseError} (hended : φ.ended = false)
      (hsame : L.spans = true → ∀ setting setting' s,
        setting.limits.maxDepth = setting'.limits.maxDepth →
        setting.endOfInput = setting'.endOfInput → e setting s = e' setting' s)
      (hstops : ∀ setting s, (e setting s).cause.stops = true)
      (hmoved : ∀ p, L.mended = some p → ∀ setting setting' s s',
        setting.limits = setting'.limits → s.kind.Resembles s'.kind →
        s'.span setting' = (s.span setting).insertAt p → (e setting s).Moved p (e' setting' s')) :
      Alike L loud inside hand φ χ R (fun setting s => .fail (e setting s) s)
        (fun setting s => .fail (e' setting s) s)
  /-- No level is left in the first run. -/
  | refused {α : Type} {loud inside : Bool} {hand : Hand} {φ χ : Footing} {R : α → α → Prop}
      {p : Parser α} (hlax : L.lax = true) (hended : φ.ended = false)
      (h : Alike L loud inside hand φ χ R p p) :
      Alike L loud inside hand φ χ R tooDeep p
  | semicolon {inside : Bool} {hand : Hand} {φ : Footing} (hended : φ.ended = false)
      (hstale : φ.stale = false) :
      Alike L true inside hand φ .closed (fun _ _ => True) semicolon semicolon
  | duplicate {hand : Hand} {φ : Footing} (clause : Clause) {span span' : Span}
      (h : L.Placed span span') :
      Alike L true true hand φ φ (fun _ _ => True) (record ⟨.duplicate clause, span⟩)
        (record ⟨.duplicate clause, span'⟩)
  | inContext {α : Type} {loud inside : Bool} {hand : Hand} {φ χ₀ χ : Footing} {R : α → α → Prop}
      {p p' : Parser α} (f : Context → Context) (hf : ContextRule f φ χ₀ χ)
      (h : Alike L loud inside hand φ χ₀ R p p') :
      Alike L loud inside hand φ χ R (inContext f p) (inContext f p')
  | nested {α : Type} {loud inside : Bool} {hand : Hand} {φ χ : Footing} {R : α → α → Prop}
      {p p' : Parser α} (hended : φ.ended = false)
      (h : Alike L loud inside hand φ χ R p p') :
      Alike L loud inside hand φ χ R (nested p) (nested p')
  | loop {σ : Type} {loud inside : Bool} {hand : Hand} {φ : Footing} {R : σ → σ → Prop}
      {step step' : σ → Parser (Bool × σ)} {a a' : σ} (hended : φ.ended = false)
      (hprogresses : Progresses step) (hprogresses' : Progresses step')
      (hstep : ∀ a a', R a a' →
        Alike L loud inside none φ φ (fun r r' => r.1 = r'.1 ∧ R r.2 r'.2) (step a) (step' a'))
      (ha : R a a') : Alike L loud inside hand φ φ R (loop step a) (loop step' a')
  | resilient {σ : Type} {hand : Hand} {φ χ : Footing} {R : σ → σ → Prop}
      {part part' : σ → Parser σ} {a a' : σ} (recovery : Recovery) (hmended : L.mended = none)
      (ha : R a a') (h : Alike L true true hand φ χ R (part a) (part' a')) :
      Alike L true true hand φ χ (fun r r' => r.1 = r'.1 ∧ R r.2 r'.2)
        (resilient recovery part a) (resilient recovery part' a')
  /-- Parts that are read one after another.  One that starts in what is the head of a lambda for the
  second reading breaks off. -/
  | parts {σ : Type} {hand : Hand} {φ χ : Footing} {R : σ → σ → Prop} {part part' : σ → Parser σ}
      {a a' : σ} (parts : Parts) (stop : State → Bool) (hmended : L.mended ≠ none)
      (hstop : stop = (fun s => s.kind.isSymbol .rightBrace || s.atEnd) ∨ stop = State.atEnd)
      (hprogresses : Progresses (turnUntil stop parts.recovery part))
      (hprogresses' : Progresses (turnUntil stop parts.recovery part'))
      (hbreaks : ∀ a, parts.BreaksOff (part a))
      (h : ∀ a a', R a a' → Alike L true true none .unread χ R (part a) (part' a')) (ha : R a a') :
      Alike L true true hand φ .unread R (Parser.loop (turnUntil stop parts.recovery part) a)
        (Parser.loop (turnUntil stop parts.recovery part') a')
  | guess {α β : Type} {inside : Bool} {k k' : TokenKind} {φ ψ χ : Footing}
      {R : α → α → Prop} {S : β → β → Prop} {p p' : Parser α} {q q' : α → Parser β}
      {r r' : Parser β} (hk : k.opens = true) (hended : φ.ended = false)
      (hχ : χ.blocked = true)
      (hp : Alike L false true (some (k, k')) φ ψ R p p')
      (hq : ∀ a a', R a a' → Alike L true true none ψ χ S (q a) (q' a'))
      (hr : Alike L true true (some (k, k')) φ χ S r r')
      -- where only the second trial succeeds, the first reading ends before an arrow
      (hslip : ∀ cut setting setting' s s' e after a after', s.kind = k → s'.kind = k' →
        Lexeme.AlikeUpTo L cut s.rest s'.rest → s.context.lambdas = true →
        p setting s = .fail e after → p' setting' s' = .ok a after' → StopsAtArrow r setting s)
      (hstale : L.mended ≠ none → φ.stale = true)
      (hquiet : L.mended ≠ none → ∀ setting s,
        (p' setting s).state.errors = s.errors ∧ (p' setting s).state.halted = s.halted)
      -- where the second trial succeeds beyond the missing semicolon, the first reading does not get
      -- that far
      (hlapse : L.mended ≠ none → ∀ behind setting setting' s s' e after a after', s.kind = k →
        s'.kind = k' → Lexeme.Gapped behind s.rest s'.rest → behind.length < s.rest.length →
        s.context = s'.context → s.context.lambdas = true → p setting s = .fail e after →
        after.rest.length ≤ behind.length → p' setting' s' = .ok a after' →
        (r setting s).Slips behind s) :
      Alike L true inside (some (k, k')) φ χ S (guess p q r) (guess p' q' r')
  | splice {hand : Hand} {φ χ : Footing} {g g' : Rules} {tokens tokens' : List Token}
      {span span' : Span} (hmended : L.mended = none)
      (htokens : Lexeme.AlikeUpTo L .none (Lexeme.significant false tokens)
        (Lexeme.significant false tokens'))
      (hsame : L.spans = true → tokens = tokens' ∧ span = span') (hχ : χ.blocked = false)
      (h : Alike L true true none .unread χ (Like L) (wholeExpr g (.symbol .rightBrace))
        (wholeExpr g' (.symbol .rightBrace))) :
      Alike L true true hand φ φ (Like L) (splice g tokens span) (splice g' tokens' span')
  | interpolated {inside : Bool} {fragments fragments' : List Fragment} {φ χ : Footing}
      {g g' : Rules} (hmended : L.mended ≠ none) (hended : φ.ended = false)
      (h : Alike L true true none .unread χ (Like L) (wholeExpr g (.symbol .rightBrace))
        (wholeExpr g' (.symbol .rightBrace))) :
      Alike L true inside (some (.interpolated fragments, .interpolated fragments')) φ .behind
        (Like L) (interpolatedString g fragments) (interpolatedString g' fragments')
  /-- An integer, and the unit that may be written directly after it. -/
  | unit {β : Type} {loud inside : Bool} {value : UInt64} {k' : TokenKind} {φ χ : Footing}
      {R : β → β → Prop} {q q' : Option DurationUnit → Parser β} (hended : φ.ended = false)
      (hsome : ∀ unit suffix, Alike L loud inside (some (.ident suffix, .ident suffix)) .loose χ R
        (q (some unit)) (q' (some unit)))
      (hnone : Alike L loud inside none .firm χ R (q none) (q' none)) :
      Alike L loud inside (some (.int value, k')) φ χ R
        (advance >>= fun _ => durationUnit? >>= q) (advance >>= fun _ => durationUnit? >>= q')

end Parser

end ActorFrontend
