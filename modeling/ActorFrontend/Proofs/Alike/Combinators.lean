import ActorFrontend.Proofs.Alike.Basic
import ActorFrontend.Proofs.Course.Items

/-!
# Combinators that go alike

The rules by which two readings go alike if their parts do.
-/

namespace ActorFrontend

instance : Relabeled String := ⟨fun _ a => a⟩

instance : Relabeled UInt64 := ⟨fun _ a => a⟩

@[simp] theorem relabel_string (r : Renaming) (a : String) : relabel r a = a := rfl

@[simp] theorem relabel_uint64 (r : Renaming) (a : UInt64) : relabel r a = a := rfl

@[simp] theorem relabel_strings (r : Renaming) (as : List String) : relabel r as = as :=
  List.map_id as

@[simp] theorem relabel_uint64s (r : Renaming) (as : List UInt64) : relabel r as = as :=
  List.map_id as

/-! ## Places -/

section

variable {L : Likeness}

namespace Likeness

theorem sameSpan_iff {span span' : Span} :
    L.SameSpan span span' ↔ (L.spans = true → span = span') := by
  cases h : L.spans <;> simp [relabeling, h]

theorem sameId_iff {id id' : NodeId} : L.SameId id id' ↔ (L.ids = true → id = id') := by
  cases h : L.ids <;> simp [relabeling, h]

theorem sameSpan_of_not (h : L.spans = false) (span span' : Span) : L.SameSpan span span' :=
  sameSpan_iff.2 fun hspans => absurd (h.symm.trans hspans) Bool.false_ne_true

theorem sameOffset_of_not (h : L.spans = false) (offset offset' : Nat) : L.SameOffset offset offset' :=
  fun hspans => absurd (h.symm.trans hspans) Bool.false_ne_true

theorem sameId_of_not (h : L.ids = false) (id id' : NodeId) : L.SameId id id' :=
  sameId_iff.2 fun hids => absurd (h.symm.trans hids) Bool.false_ne_true

theorem SameSpan.start {span span' : Span} (h : L.SameSpan span span') :
    L.SameOffset span.start span'.start :=
  fun hspans => by rw [sameSpan_iff.1 h hspans]

theorem SameSpan.cover {a a' b b' : Span} (h : L.SameSpan a a') (h' : L.SameSpan b b') :
    L.SameSpan (a.cover b) (a'.cover b') :=
  sameSpan_iff.2 fun hspans => by rw [sameSpan_iff.1 h hspans, sameSpan_iff.1 h' hspans]

theorem SameOffset.span {start start' stop stop' : Nat} (h : L.SameOffset start start')
    (h' : L.SameOffset stop stop') : L.SameSpan ⟨start, stop⟩ ⟨start', stop'⟩ :=
  sameSpan_iff.2 fun hspans => by rw [h hspans, h' hspans]

end Likeness

end

namespace Comparison

variable {L : Comparison}

theorem Placed.started {span span' : Span} (h : L.Placed span span') :
    L.Started span.start span'.start := by
  refine ⟨h.1.start, fun p hp => ?_⟩
  rw [h.2 p hp, Span.insertAt]
  split <;> rfl

/-- Every place in the first input has one in the second input. -/
theorem exists_placed (L : Comparison) (span : Span) : ∃ span', L.Placed span span' := by
  cases hmended : L.mended with
  | none => exact ⟨span, rfl, fun p hp => nomatch hmended.symm.trans hp⟩
  | some p =>
    refine ⟨span.insertAt p, Likeness.sameSpan_of_not (L.unplaced (by simp [hmended])) _ _, ?_⟩
    intro q hq
    rw [Option.some.inj (hmended.symm.trans hq)]

/-- Where no semicolon is missing, only what is compared matters of places. -/
theorem placed_of_not {span span' : Span} (hmended : L.mended = none) (h : L.SameSpan span span') :
    L.Placed span span' :=
  ⟨h, fun _ hp => nomatch hmended.symm.trans hp⟩

end Comparison

/-! ## Tokens -/

/-- A test that does not tell strings apart tells no kinds apart that are the same but for strings. -/
theorem TokenKind.Resembles.test_eq {α : Type} {k k' : TokenKind} (h : k.Resembles k')
    (test : TokenKind → α)
    (hstrings : ∀ fs fs', test (.interpolated fs) = test (.interpolated fs')) : test k = test k' := by
  cases h with
  | same => rfl
  | interpolated => exact hstrings _ _

/-- Kinds other than that of a string with splices are the same. -/
theorem TokenKind.Resembles.eq_of_right {k k' : TokenKind} (h : k.Resembles k') {kind : TokenKind}
    (hk : k' = kind) (hstring : ∀ fragments, kind ≠ .interpolated fragments) : k = kind := by
  cases h with
  | same => exact hk
  | interpolated => exact absurd hk.symm (hstring _)

theorem TokenKind.Resembles.eq_of_left {k k' : TokenKind} (h : k.Resembles k') {kind : TokenKind}
    (hk : k = kind) (hstring : ∀ fragments, kind ≠ .interpolated fragments) : k' = kind := by
  cases h with
  | same => exact hk
  | interpolated => exact absurd hk.symm (hstring _)

theorem TokenKind.Resembles.isSymbol_eq {k k' : TokenKind} (h : k.Resembles k') (s : Symbol) :
    k.isSymbol s = k'.isSymbol s :=
  h.test_eq _ fun _ _ => rfl

theorem TokenKind.Resembles.isKeyword_eq {k k' : TokenKind} (h : k.Resembles k')
    (keyword : Keyword) : k.isKeyword keyword = k'.isKeyword keyword :=
  h.test_eq _ fun _ _ => rfl

theorem TokenKind.Resembles.isWord_eq {k k' : TokenKind} (h : k.Resembles k') (word : String) :
    k.isWord word = k'.isWord word :=
  h.test_eq _ fun _ _ => rfl

theorem TokenKind.Resembles.isName_eq {k k' : TokenKind} (h : k.Resembles k') :
    k.isName = k'.isName :=
  h.test_eq _ fun _ _ => rfl

section

variable {L : Likeness}

namespace TokenKind

/-- A test that does not tell strings apart tells nothing apart that is alike. -/
theorem Alike.test_eq {α : Type} {k k' : TokenKind} (h : Alike L k k') (test : TokenKind → α)
    (hstrings : ∀ fs fs', test (.interpolated fs) = test (.interpolated fs')) :
    test k = test k' := by
  cases h with
  | same => rfl
  | interpolated => exact hstrings _ _

theorem Alike.resembles {k k' : TokenKind} (h : Alike L k k') : k.Resembles k' := by
  cases h with
  | same => exact .same _
  | interpolated => exact .interpolated _ _

@[simp] theorem Alike.isSymbol_eq {k k' : TokenKind} (h : Alike L k k') (s : Symbol) :
    k.isSymbol s = k'.isSymbol s :=
  h.test_eq _ fun _ _ => rfl

@[simp] theorem Alike.isKeyword_eq {k k' : TokenKind} (h : Alike L k k') (keyword : Keyword) :
    k.isKeyword keyword = k'.isKeyword keyword :=
  h.test_eq _ fun _ _ => rfl

@[simp] theorem Alike.isWord_eq {k k' : TokenKind} (h : Alike L k k') (word : String) :
    k.isWord word = k'.isWord word :=
  h.test_eq _ fun _ _ => rfl

@[simp] theorem Alike.isName_eq {k k' : TokenKind} (h : Alike L k k') : k.isName = k'.isName :=
  h.test_eq _ fun _ _ => rfl

end TokenKind

end

namespace Comparison

variable {L : Comparison}

theorem Matches.same (k : TokenKind) : L.Matches k k := .inl (.same k)

theorem Matches.test_eq {α : Type} {k k' : TokenKind} (h : L.Matches k k') (test : TokenKind → α)
    (hstrings : ∀ fs fs', test (.interpolated fs) = test (.interpolated fs')) : test k = test k' :=
  h.elim (·.test_eq _ hstrings) (·.2.test_eq _ hstrings)

/-- Kinds at the same place are the same, or both are strings with splices. -/
theorem Matches.cases {k k' : TokenKind} (h : L.Matches k k') :
    k = k' ∨ ∃ fs fs', k = .interpolated fs ∧ k' = .interpolated fs' := by
  obtain h | ⟨-, h⟩ := h
  · cases h with
    | same => exact .inl rfl
    | interpolated => exact .inr ⟨_, _, rfl, rfl⟩
  · cases h with
    | same => exact .inl rfl
    | interpolated => exact .inr ⟨_, _, rfl, rfl⟩

end Comparison

/-- A test that the end of the input, semicolons, arrows and strings with splices fail. -/
structure Ordinary (test : TokenKind → Bool) : Prop where
  endOfFile : test .endOfFile = false
  semicolon : test (.symbol .semicolon) = false
  arrow : test (.symbol .arrow) = false
  fatArrow : test (.symbol .fatArrow) = false
  interpolated : ∀ fragments, test (.interpolated fragments) = false

/-- A token that may be passed over at one footing, which leads to another one. -/
structure Passable (φ ψ : Footing) (kind : TokenKind) : Prop where
  ne_endOfFile : kind ≠ .endOfFile
  arrow : kind.isArrow = true → φ.blocked = false
  after : .after kind ≤ ψ

theorem Footing.after_of_ne_semicolon {kind : TokenKind} (h : kind ≠ .symbol .semicolon) :
    after kind = behind := by
  rw [after, if_neg]
  intro hkind
  exact h (TokenKind.eq_of_isSymbol hkind)

theorem Ordinary.passable {test : TokenKind → Bool} (h : Ordinary test) {kind : TokenKind}
    (hkind : test kind = true) (φ : Footing) : Passable φ .behind kind where
  ne_endOfFile := by
    rintro rfl
    exact Bool.false_ne_true (h.endOfFile.symm.trans hkind)
  arrow := by
    unfold TokenKind.isArrow
    split
    · exact absurd (h.arrow.symm.trans hkind) Bool.false_ne_true
    · exact absurd (h.fatArrow.symm.trans hkind) Bool.false_ne_true
    · nofun
  after := by
    rw [Footing.after_of_ne_semicolon]
    · exact Footing.le_refl _
    · rintro rfl
      exact Bool.false_ne_true (h.semicolon.symm.trans hkind)

theorem Ordinary.ne_semicolon {symbol : Symbol} (h : Ordinary (·.isSymbol symbol)) :
    symbol ≠ .semicolon := by
  rintro rfl
  cases h.semicolon

namespace Footing

theorem le_trans {φ ψ χ : Footing} (h : φ ≤ ψ) (h' : ψ ≤ χ) : φ ≤ χ :=
  ⟨h'.1 ∘ h.1, h'.2.1 ∘ h.2.1, h'.2.2.1 ∘ h.2.2.1, h'.2.2.2 ∘ h.2.2.2⟩

theorem behind_le (φ : Footing) : behind ≤ φ := ⟨nofun, nofun, nofun, nofun⟩

theorem settle_le (φ : Footing) : φ.settle ≤ unread := ⟨nofun, fun _ => rfl, fun _ => rfl, fun _ => rfl⟩

theorem le_unread {φ : Footing} (h : φ.ended = false) : φ ≤ unread :=
  ⟨fun h' => absurd (h.symm.trans h') Bool.false_ne_true, fun _ => rfl, fun _ => rfl, fun _ => rfl⟩

end Footing

namespace Parser

variable {L : Comparison} {α β σ : Type} {loud inside : Bool} {hand : Hand} {φ ψ χ : Footing}
  {R : α → α → Prop} {S : β → β → Prop}

theorem acceptIf_bind (test : TokenKind → Bool) (q : Bool → Parser β) :
    (acceptIf test >>= q) =
      (kind >>= fun k => if test k then advance >>= fun _ => q true else q false) := by
  funext setting s
  rw [kind_bind]
  by_cases hkind : test s.kind = true
  · rw [if_pos hkind, bind_ok (by rw [acceptIf_eq, if_pos hkind])]
    rfl
  · rw [if_neg hkind, bind_ok (by rw [acceptIf_eq, if_neg hkind])]

theorem require_bind (test : TokenKind → Bool) (wanted : Expected) (q : Unit → Parser β) :
    (require test wanted >>= q) =
      (kind >>= fun k => if test k then advance >>= q else expected wanted) := by
  funext setting s
  rw [kind_bind]
  by_cases hkind : test s.kind = true
  · rw [if_pos hkind, bind_ok (by rw [require_eq, if_pos hkind])]
    rfl
  · rw [if_neg hkind]
    change bind _ _ setting s = _
    rw [bind, require_eq, if_neg hkind]
    rfl

theorem valueOf_bind (value? : TokenKind → Option α) (wanted : Expected) (q : α → Parser β) :
    (valueOf value? wanted >>= q) =
      (kind >>= fun k => match value? k with
        | some a => advance >>= fun _ => q a
        | none => expected wanted) := by
  funext setting s
  rw [kind_bind]
  cases hvalue : value? s.kind with
  | some a =>
    rw [bind_ok (by rw [valueOf_eq, hvalue])]
    rfl
  | none =>
    change bind _ _ setting s = _
    rw [bind, valueOf_eq, hvalue]
    rfl

theorem bind_pure (p : Parser α) : (p >>= fun a => pure a) = p := by
  funext setting s
  change bind _ _ setting s = _
  unfold bind
  cases p setting s <;> rfl

namespace Alike

/-! ## Sequences -/

theorem done {a a' : α} (h : R a a') (hφ : φ ≤ χ) :
    Alike L loud inside hand φ χ R (pure a) (pure a') :=
  .weaken (.value h) id id (.inl rfl) (Footing.le_refl φ) hφ fun _ _ h => h

/-- What goes alike at a weaker footing, and leads to a stronger one. -/
theorem at_le {p p' : Parser α} {φ' χ' : Footing} (h : Alike L loud inside none φ' χ' R p p')
    (hφ : φ ≤ φ') (hχ : χ' ≤ χ) : Alike L loud inside hand φ χ R p p' :=
  .weaken h id id (.inl rfl) hφ hχ fun _ _ h => h

theorem ends_le {p p' : Parser α} {χ' : Footing} (h : Alike L loud inside hand φ χ' R p p')
    (hχ : χ' ≤ χ) : Alike L loud inside hand φ χ R p p' :=
  .weaken h id id (.inr rfl) (Footing.le_refl φ) hχ fun _ _ h => h

theorem forget {p p' : Parser α} (h : Alike L loud inside none φ χ R p p') :
    Alike L loud inside hand φ χ R p p' :=
  h.at_le (Footing.le_refl φ) (Footing.le_refl χ)

/-- A last step that makes something of what has been read. -/
theorem map {p p' : Parser α} {f f' : α → β} (h : Alike L loud inside hand φ χ R p p')
    (hf : ∀ a a', R a a' → S (f a) (f' a')) :
    Alike L loud inside hand φ χ S (do pure (f (← p))) (do pure (f' (← p'))) :=
  .bind h fun a a' ha => .value (hf a a' ha)

/-- What is equal is alike in all that is compared. -/
theorem like [Relabeled α] {p p' : Parser α} (h : Alike L loud inside hand φ χ (· = ·) p p') :
    Alike L loud inside hand φ χ (Like L) p p' :=
  .weaken h id id (.inr rfl) (Footing.le_refl φ) (Footing.le_refl χ) fun a a' ha => by rw [ha]; rfl

/-! ## Places and nodes -/

/-- Where something starts a missing semicolon is not assumed. -/
theorem started {q q' : Nat → Parser β}
    (hq : ∀ start start', L.Started start start' →
      Alike L loud inside hand φ.still χ S (q start) (q' start')) :
    Alike L loud inside hand φ χ S (Parser.start >>= q) (Parser.start >>= q') :=
  .weaken (.place Span.start (fun _ => rfl) fun _ _ h => hq _ _ h.started) id id (.inr rfl)
    (Footing.le_still φ) (Footing.le_refl χ) fun _ _ h => h

theorem start {q q' : Nat → Parser β}
    (hq : ∀ start start', L.SameOffset start start' →
      Alike L loud inside hand φ.still χ S (q start) (q' start')) :
    Alike L loud inside hand φ χ S (Parser.start >>= q) (Parser.start >>= q') :=
  started fun _ _ h => hq _ _ h.1

theorem span {q q' : Span → Parser β}
    (hq : ∀ span span', L.Placed span span' →
      Alike L loud inside hand φ.still χ S (q span) (q' span')) :
    Alike L loud inside hand φ χ S (Parser.span >>= q) (Parser.span >>= q') :=
  .weaken (.place (fun span => span) (fun _ => rfl) hq) id id (.inr rfl) (Footing.le_still φ)
    (Footing.le_refl χ) fun _ _ h => h

theorem spanFrom {start start' : Nat} (hstart : L.SameOffset start start') :
    Alike L loud inside hand φ φ L.SameSpan (Parser.spanFrom start) (Parser.spanFrom start') :=
  .weaken (.spanSince hstart) id id (.inr rfl) (Footing.le_refl φ) (Footing.le_refl φ)
    fun _ _ h => h.1

/-- A value that holds its span. -/
theorem part {start start' : Nat} {make make' : Span → α} (hstart : L.SameOffset start start')
    (hmake : ∀ span span', L.SameSpan span span' → R (make span) (make' span')) :
    Alike L loud inside hand φ φ R (do pure (make (← Parser.spanFrom start)))
      (do pure (make' (← Parser.spanFrom start'))) :=
  map (.spanFrom hstart) hmake

theorem node {start start' : Nat} {make make' : NodeId → Span → α}
    (hstart : L.SameOffset start start')
    (hmake : ∀ id id' span span', L.SameId id id' → L.SameSpan span span' →
      R (make id span) (make' id' span')) :
    Alike L loud inside hand φ φ R (Parser.node start make) (Parser.node start' make') :=
  .bind .freshId fun _ _ hid => part hstart fun _ _ hspan => hmake _ _ _ _ hid hspan

/-- A node whose place is known: it ends where the last token does. -/
theorem placedNode {start start' : Nat} {make make' : NodeId → Span → α}
    (hstart : L.Started start start') (hended : φ.ended = false) (hstale : φ.stale = false)
    (hmake : ∀ id id' span span', L.SameId id id' → L.Placed span span' →
      R (make id span) (make' id' span')) :
    Alike L loud inside hand φ φ R (Parser.node start make) (Parser.node start' make') :=
  .bind .freshId fun _ _ hid => map (.spanSince hstart.1) fun _ _ hspan =>
    hmake _ _ _ _ hid (hspan.2 hended hstale hstart)

/-! ## The token at hand -/

/-- What is wanted in place of a token is the same in both runs. -/
theorem moved_expected {p : Nat} {setting setting' : Setting} {s s' : State}
    (hkind : s.kind.Resembles s'.kind) (hspan : s'.span setting' = (s.span setting).insertAt p)
    (wanted : Expected) :
    ParseError.Moved p (s.expectedError setting wanted) (s'.expectedError setting' wanted) := by
  refine ⟨hspan, ?_, ?_, ?_, rfl⟩
  all_goals
    simp only [State.expectedError]
    generalize s.kind = k at hkind
    generalize s'.kind = k' at hkind
    cases hkind with
    | same => rfl
    | interpolated =>
      cases wanted with
      | symbol symbol => cases symbol <;> rfl
      | _ => rfl

theorem expected (hended : φ.ended = false) (wanted : Expected) :
    Alike L loud inside hand φ χ R (Parser.expected wanted) (Parser.expected wanted) := by
  refine .fails hended ?_ (fun _ _ => rfl) ?_
  · intro _ setting setting' s _ hend
    simp [State.expectedError, State.span, hend]
  · intro p _ setting setting' s s' _ hkind hspan
    exact moved_expected hkind hspan wanted

/-- What follows depends on the kind of the token at hand, but not on what a string holds.  Where a
semicolon is missing it takes that token, or fails. -/
theorem onKind (q q' : TokenKind → Parser β) (hended : φ.ended = false)
    (hstring : ∀ fragments fragments',
      L.Matches (.interpolated fragments) (.interpolated fragments') →
      Alike L loud inside (some (.interpolated fragments, .interpolated fragments')) φ.look.still χ S
        (q (.interpolated fragments)) (q' (.interpolated fragments')))
    (hq : ∀ k, Alike L loud inside (some (k, k)) φ.look.still χ S (q k) (q' k)) :
    Alike L loud inside hand φ χ S (Parser.kind >>= q) (Parser.kind >>= q') := by
  refine .kind hended (fun k k' hk => ?_) (fun _ => .takes) (fun _ _ => nofun)
    (fun _ k _ => hq k) (fun _ _ => nofun)
  obtain rfl | ⟨fs, fs', rfl, rfl⟩ := hk.cases
  · exact .weaken (hq k) id id (.inr rfl) (Footing.le_still _) (Footing.le_refl χ) fun _ _ h => h
  · exact .weaken (hstring fs fs' hk) id id (.inr rfl) (Footing.le_still _) (Footing.le_refl χ)
      fun _ _ h => h

/-- A test of the token at hand.  Where a semicolon is missing and the test does not tell the same of
the token there and of a semicolon, that token is taken. -/
theorem onTest (test : TokenKind → Bool) {q q' : Bool → Parser β} (hended : φ.ended = false)
    (hstrings : ∀ fs fs', test (.interpolated fs) = test (.interpolated fs'))
    (hq : ∀ k k', test k = test k' →
      Alike L loud inside (some (k, k')) φ.look χ S (q (test k)) (q' (test k)))
    (htakes : ∀ k, test k ≠ test (.symbol .semicolon) →
      Alike L loud inside (some (k, k)) φ.look.still χ S (q (test k)) (q' (test k))) :
    Alike L loud inside hand φ χ S (query (fun s => test s.kind) >>= q)
      (query (fun s => test s.kind) >>= q') := by
  change Alike L loud inside hand φ χ S (Parser.kind >>= fun k => q (test k))
    (Parser.kind >>= fun k => q' (test k))
  refine .kind hended (fun k k' hk => ?_)
    (fun k => if test k = test (.symbol .semicolon) then .passes else .takes) ?_ ?_ ?_
  · have htest := hk.test_eq _ hstrings
    rw [← htest]
    exact hq k k' htest
  · intro _ k hk
    have htest : test k = test (.symbol .semicolon) := by
      by_contra htest
      simp [htest] at hk
    rw [← htest]
    exact hq k _ htest
  · intro _ k hk
    refine htakes k fun htest => ?_
    simp [htest] at hk
  · intro _ k hk
    split at hk <;> cases hk

/-- A token that is passed over because it has been looked at. -/
theorem pass {k k' : TokenKind} {q q' : Unit → Parser β} (hended : φ.ended = false)
    (hk : Passable φ ψ k) (hq : Alike L loud inside none ψ χ S (q ()) (q' ())) :
    Alike L loud inside (some (k, k')) φ χ S (Parser.advance >>= q) (Parser.advance >>= q') :=
  .bind (.advance hk.ne_endOfFile hended hk.arrow) fun _ _ _ =>
    hq.at_le hk.after (Footing.le_refl χ)

/-- Two ways on, of which the token at hand tells the one. -/
theorem ifKind (test : TokenKind → Bool) {yes yes' no no' : Parser β} (hended : φ.ended = false)
    (hstrings : ∀ fs, test (.interpolated fs) = false)
    (hsemicolon : test (.symbol .semicolon) = false)
    (hyes : ∀ k k', test k = true → Alike L loud inside (some (k, k')) φ.look.still χ S yes yes')
    (hno : Alike L loud inside none φ.look χ S no no') :
    Alike L loud inside hand φ χ S (Parser.kind >>= fun k => if test k then yes else no)
      (Parser.kind >>= fun k => if test k then yes' else no') := by
  change Alike L loud inside hand φ χ S
    (query (fun s => test s.kind) >>= fun found => if found then yes else no)
    (query (fun s => test s.kind) >>= fun found => if found then yes' else no')
  refine onTest test
    hended (fun fs fs' => (hstrings fs).trans (hstrings fs').symm) (fun k k' _ => ?_) fun k hk => ?_
  · split
    case isTrue hk =>
      exact .weaken (hyes k k' hk) id id (.inr rfl) (Footing.le_still _) (Footing.le_refl χ)
        fun _ _ h => h
    case isFalse => exact hno.forget
  · rw [hsemicolon, ne_eq, Bool.not_eq_false] at hk
    rw [if_pos hk, if_pos hk]
    exact hyes k k hk

/-- A token that may carry a value, which decides how the reading goes on. -/
theorem ifValue {γ : Type} {value? : TokenKind → Option γ} {yes yes' : γ → Parser β}
    {no no' : Parser β} (hended : φ.ended = false)
    (hstrings : ∀ fs, value? (.interpolated fs) = none)
    (hsemicolon : value? (.symbol .semicolon) = none)
    (hyes : ∀ k k' c, value? k = some c →
      Alike L loud inside (some (k, k')) φ.look.still χ S (yes c) (yes' c))
    (hno : Alike L loud inside none φ.look χ S no no') :
    Alike L loud inside hand φ χ S (Parser.kind >>= fun k => (value? k).elim no yes)
      (Parser.kind >>= fun k => (value? k).elim no' yes') := by
  refine .kind hended (fun k k' hk => ?_)
    (fun k => if (value? k).isSome then .takes else .passes) (fun _ k hk => ?_)
    (fun _ k hk => ?_) fun _ k hk => ?_
  · rw [← hk.test_eq _ fun fs fs' => (hstrings fs).trans (hstrings fs').symm]
    cases hvalue : value? k with
    | some c =>
      exact .weaken (hyes k k' c hvalue) id id (.inr rfl) (Footing.le_still _) (Footing.le_refl _)
        fun _ _ h => h
    | none => exact hno.forget
  · have hnone : value? k = none := by
      by_contra h
      simp [Option.isSome_iff_ne_none.2 h] at hk
    rw [hnone, hsemicolon]
    exact hno.forget
  · cases hvalue : value? k with
    | some c => exact hyes k k c hvalue
    | none => simp [hvalue] at hk
  · split at hk <;> cases hk

/-- A token that decides how the reading goes on. -/
theorem ifAcceptIf {test : TokenKind → Bool} {yes yes' no no' : Parser β}
    (hended : φ.ended = false) (hstrings : ∀ fs, test (.interpolated fs) = false)
    (hsemicolon : test (.symbol .semicolon) = false)
    (htest : ∀ k, test k = true → Passable φ ψ k)
    (hyes : Alike L loud inside none ψ χ S yes yes')
    (hno : Alike L loud inside none φ.look χ S no no') :
    Alike L loud inside hand φ χ S (do if ← acceptIf test then yes else no)
      (do if ← acceptIf test then yes' else no') := by
  rw [acceptIf_bind, acceptIf_bind]
  refine ifKind _ hended hstrings hsemicolon (fun k k' hk => ?_) hno
  have hpass := htest k hk
  exact pass hended ⟨hpass.ne_endOfFile, hpass.arrow, hpass.after⟩ hyes

theorem ifAccept {test : TokenKind → Bool} {yes yes' no no' : Parser β} (htest : Ordinary test)
    (hended : φ.ended = false) (hyes : Alike L loud inside none .behind χ S yes yes')
    (hno : Alike L loud inside none φ.look χ S no no') :
    Alike L loud inside hand φ χ S (do if ← acceptIf test then yes else no)
      (do if ← acceptIf test then yes' else no') :=
  ifAcceptIf hended htest.interpolated htest.semicolon (fun _ hk => htest.passable hk φ) hyes hno

/-- An arrow, where no expression has ended. -/
theorem ifArrow {symbol : Symbol} {yes yes' no no' : Parser β} (hended : φ.ended = false)
    (hsymbol : symbol ≠ .semicolon) (hblocked : φ.blocked = false)
    (hyes : Alike L loud inside none .behind χ S yes yes')
    (hno : Alike L loud inside none φ.look χ S no no') :
    Alike L loud inside hand φ χ S (do if ← accept symbol then yes else no)
      (do if ← accept symbol then yes' else no') := by
  refine ifAcceptIf hended (fun _ => rfl) ?_ (fun k hk => ?_) hyes hno
  · simpa [TokenKind.isSymbol] using hsymbol.symm
  obtain rfl := TokenKind.eq_of_isSymbol hk
  refine ⟨by simp, fun _ => hblocked, ?_⟩
  rw [Footing.after_of_ne_semicolon (by simpa using hsymbol)]
  exact Footing.le_refl _

/-- A semicolon that ends nothing, inside brackets. -/
theorem passSeparator {k' : TokenKind} {q q' : Unit → Parser β} (hended : φ.ended = false)
    (hq : Alike L loud true none .loose χ S (q ()) (q' ())) :
    Alike L loud true (some (.symbol .semicolon, k')) φ χ S (Parser.advance >>= q)
      (Parser.advance >>= q') := by
  by_cases hmended : L.mended = none
  · exact pass (ψ := .closed) hended ⟨nofun, nofun, Footing.le_refl _⟩ (.settle hmended hq)
  · exact .bind (.separator hmended hended) fun _ _ _ => hq

theorem ifSeparator {yes yes' no no' : Parser β} (hended : φ.ended = false)
    (hyes : Alike L loud true none .loose χ S yes yes')
    (hno : Alike L loud true none φ.look.still χ S no no') :
    Alike L loud true hand φ χ S (do if ← accept .semicolon then yes else no)
      (do if ← accept .semicolon then yes' else no') := by
  rw [accept, acceptIf_bind, acceptIf_bind]
  have hboth (k k' : TokenKind) : Alike L loud true (some (k, k')) φ.look.still χ S
      (if k.isSymbol .semicolon then Parser.advance >>= fun _ => yes else no)
      (if k.isSymbol .semicolon then Parser.advance >>= fun _ => yes' else no') := by
    split
    case isTrue hk =>
      obtain rfl := TokenKind.eq_of_isSymbol hk
      exact passSeparator hended hyes
    case isFalse => exact hno.forget
  exact onKind _ _ hended (fun _ _ _ => hboth _ _) fun k => hboth k k

/-- An opening bracket that decides how the reading goes on. -/
theorem ifOpens {symbol : Symbol} {yes yes' no no' : Parser β} (hsymbol : symbol.opens = true)
    (hended : φ.ended = false) (hyes : Alike L loud true none .behind χ S yes yes')
    (hno : Alike L loud inside none φ.look χ S no no') :
    Alike L loud inside hand φ χ S (do if ← accept symbol then yes else no)
      (do if ← accept symbol then yes' else no') := by
  rw [accept, acceptIf_bind, acceptIf_bind]
  refine ifKind _ hended (fun _ => rfl) ?_ (fun k k' hk => ?_) hno
  · cases symbol <;> first | rfl | cases hsymbol
  · obtain rfl := TokenKind.eq_of_isSymbol hk
    exact .enter hsymbol hended hyes

theorem requireIf {test : TokenKind → Bool} (hended : φ.ended = false)
    (hstrings : ∀ fs, test (.interpolated fs) = false)
    (hsemicolon : test (.symbol .semicolon) = false)
    (htest : ∀ k, test k = true → Passable φ ψ k) (wanted : Expected) :
    Alike L loud inside hand φ ψ (fun _ _ => True) (require test wanted) (require test wanted) :=
  ifAcceptIf hended hstrings hsemicolon htest (.value trivial)
    (expected (Footing.ended_look hended) wanted)

theorem require {test : TokenKind → Bool} (htest : Ordinary test) (hended : φ.ended = false)
    (wanted : Expected) :
    Alike L loud inside hand φ .behind (fun _ _ => True) (require test wanted)
      (require test wanted) :=
  requireIf hended htest.interpolated htest.semicolon (fun _ hk => htest.passable hk φ) wanted

theorem expect {symbol : Symbol} (hsymbol : Ordinary (·.isSymbol symbol))
    (hended : φ.ended = false) :
    Alike L loud inside hand φ .behind (fun _ _ => True) (expect symbol) (expect symbol) :=
  require hsymbol hended _

theorem expectKeyword (hended : φ.ended = false) (keyword : Keyword) :
    Alike L loud inside hand φ .behind (fun _ _ => True) (expectKeyword keyword)
      (expectKeyword keyword) :=
  require ⟨rfl, rfl, rfl, rfl, fun _ => rfl⟩ hended _

theorem expectWord (hended : φ.ended = false) (word : String) :
    Alike L loud inside hand φ .behind (fun _ _ => True) (expectWord word) (expectWord word) :=
  require ⟨rfl, rfl, rfl, rfl, fun _ => rfl⟩ hended _

theorem expectFatArrow (hended : φ.ended = false) (hblocked : φ.blocked = false) :
    Alike L loud inside hand φ .behind (fun _ _ => True) (Parser.expect .fatArrow)
      (Parser.expect .fatArrow) := by
  refine requireIf hended (fun _ => rfl) rfl (fun k hk => ?_) _
  obtain rfl := TokenKind.eq_of_isSymbol hk
  exact ⟨nofun, fun _ => hblocked, Footing.le_refl _⟩

/-- An opening bracket; what follows stands inside. -/
theorem expectOpening {symbol : Symbol} {q q' : Unit → Parser β} (hsymbol : symbol.opens = true)
    (hended : φ.ended = false) (hq : Alike L loud true none .behind χ S (q ()) (q' ())) :
    Alike L loud inside hand φ χ S (Parser.expect symbol >>= q) (Parser.expect symbol >>= q') := by
  rw [Parser.expect, require_bind, require_bind]
  refine ifKind _ hended (fun _ => rfl) ?_ (fun k k' hk => ?_) (expected (Footing.ended_look hended) _)
  · cases symbol <;> first | rfl | cases hsymbol
  · obtain rfl := TokenKind.eq_of_isSymbol hk
    exact .enter hsymbol hended hq

theorem valueOf {value? : TokenKind → Option α} (hvalue : Ordinary fun k => (value? k).isSome)
    (hended : φ.ended = false) (wanted : Expected) :
    Alike L loud inside hand φ .behind (· = ·) (valueOf value? wanted) (valueOf value? wanted) := by
  have hnone {k : TokenKind} (hk : (value? k).isSome = false) : value? k = none := by simpa using hk
  refine onKind _ _ hended ?_ ?_
  · intro fs fs' _
    rw [hnone (hvalue.interpolated fs), hnone (hvalue.interpolated fs')]
    exact expected (Footing.ended_still (Footing.ended_look hended)) wanted
  · intro k
    cases hk : value? k with
    | some a =>
      have hpass := hvalue.passable (show (value? k).isSome = true by simp [hk]) φ.look.still
      exact pass hended hpass (.value rfl)
    | none => exact expected (Footing.ended_still (Footing.ended_look hended)) wanted

theorem name (hended : φ.ended = false) :
    Alike L loud inside hand φ .behind (· = ·) name name :=
  valueOf ⟨rfl, rfl, rfl, rfl, fun _ => rfl⟩ hended _

theorem string (hended : φ.ended = false) :
    Alike L loud inside hand φ .behind (· = ·) string string :=
  valueOf ⟨rfl, rfl, rfl, rfl, fun _ => rfl⟩ hended _

theorem integer (hended : φ.ended = false) :
    Alike L loud inside hand φ .behind (· = ·) integer integer :=
  valueOf ⟨rfl, rfl, rfl, rfl, fun _ => rfl⟩ hended _

/-! ## What may be left out -/

variable [Relabeled α]

theorem optional {test : TokenKind → Bool} {p p' : Parser α} (htest : Ordinary test)
    (hended : φ.ended = false) (hχ : φ.look ≤ χ)
    (hp : Alike L loud inside none .behind χ (Like L) p p') :
    Alike L loud inside hand φ χ (Like L) (optional (acceptIf test) p)
      (optional (acceptIf test) p') :=
  ifAccept htest hended (map hp fun a a' ha => by simp_all) (done rfl hχ)

theorem listIf {test : TokenKind → Bool} {p p' : Parser (List α)} (htest : Ordinary test)
    (hended : φ.ended = false) (hχ : φ.look ≤ χ)
    (hp : Alike L loud inside none .behind χ (Like L) p p') :
    Alike L loud inside hand φ χ (Like L) (listIf (acceptIf test) p)
      (listIf (acceptIf test) p') :=
  ifAccept htest hended hp (done rfl hχ)

/-! ## Repetition -/

theorem reverse_flatten_like {turns turns' : List (List α)} (h : Like L turns turns') :
    Like L turns.reverse.flatten turns'.reverse.flatten := by
  have hmap (turns : List (List α)) :
      relabel L.relabeling turns.reverse.flatten = (relabel L.relabeling turns).reverse.flatten := by
    change turns.reverse.flatten.map (relabel L.relabeling) =
      (turns.map fun turn => turn.map (relabel L.relabeling)).reverse.flatten
    rw [List.map_flatten, List.map_reverse]
  change relabel _ _ = relabel _ _ at h
  change relabel _ _ = relabel _ _
  rw [hmap, hmap, h]

theorem collect {step step' : Parser (Bool × List α)} {loudTurn loudTurn' : Bool}
    (hended : φ.ended = false) (hfollows : step.Follows loudTurn Prod.fst)
    (hfollows' : step'.Follows loudTurn' Prod.fst)
    (hstep : Alike L loud inside none φ φ (fun r r' => r.1 = r'.1 ∧ Like L r.2 r'.2) step step') :
    Alike L loud inside hand φ φ (Like L) (collect step) (collect step') := by
  refine map (R := Like L) (.loop hended (progresses (follows_collectTurn hfollows))
    (progresses (follows_collectTurn hfollows')) (fun turns turns' h => ?_) rfl)
    fun _ _ => reverse_flatten_like
  refine .bind hstep ?_
  rintro ⟨again, found⟩ ⟨again', found'⟩ ⟨rfl, hfound⟩
  exact .value ⟨rfl, by simp_all⟩

/-- The token at hand closes a list, or the next element follows. -/
theorem ifSees {symbol : Symbol} {yes yes' no no' : Parser β} (hsymbol : symbol ≠ .semicolon)
    (hended : φ.ended = false) (hyes : Alike L loud inside none φ.look.still χ S yes yes')
    (hno : Alike L loud inside none φ.look χ S no no') :
    Alike L loud inside hand φ χ S (do if ← sees symbol then yes else no)
      (do if ← sees symbol then yes' else no') :=
  ifKind (·.isSymbol symbol) hended (fun _ => rfl)
    (by simpa [TokenKind.isSymbol] using hsymbol.symm) (fun _ _ _ => hyes.forget) hno

theorem acceptIf {test : TokenKind → Bool} (htest : Ordinary test) (hended : φ.ended = false) :
    Alike L loud inside hand φ φ.look (· = ·) (acceptIf test) (acceptIf test) :=
  ifKind _ hended htest.interpolated htest.semicolon
    (fun k k' hk => by
      have hpass := htest.passable hk φ.look.still
      exact pass hended ⟨hpass.ne_endOfFile, hpass.arrow,
        Footing.le_trans hpass.after (Footing.behind_le _)⟩ (.value rfl))
    (.value rfl)

/-! ## Lists -/

variable {elem elem' : Parser α} {loudTurn loudTurn' : Bool} {close : Symbol}

/-- Elements with commas between them. -/
theorem commaList (helem : elem.MayConsume loudTurn) (helem' : elem'.MayConsume loudTurn')
    (hclose : Ordinary (·.isSymbol close)) (hended : φ.ended = false)
    (h : Alike L loud inside none .unread .unread (Like L) elem elem') :
    Alike L loud inside hand φ .behind (Like L) (commaList close elem)
      (commaList close elem') := by
  have hturn : Alike L loud inside none .unread .unread (fun r r' => r.1 = r'.1 ∧ Like L r.2 r'.2)
      (commaTurn close elem) (commaTurn close elem') := by
    refine ifSees hclose.ne_semicolon rfl (.value ⟨rfl, rfl⟩) ?_
    refine .bind h fun a a' ha => ?_
    refine .ends_le (map (acceptIf ⟨rfl, rfl, rfl, rfl, fun _ => rfl⟩ rfl)
      fun again again' hagain => ?_) (by decide)
    exact ⟨hagain, by simp_all⟩
  refine .bind ((collect rfl (follows_commaTurn helem close) (follows_commaTurn helem' close)
    hturn).at_le (Footing.le_unread hended) (Footing.le_refl _)) fun elems elems' helems => ?_
  exact .bind (expect hclose rfl) fun _ _ _ => .value helems

/-- The elements after a first one. -/
theorem commaTail (helem : elem.MayConsume loudTurn) (helem' : elem'.MayConsume loudTurn')
    (hclose : Ordinary (·.isSymbol close)) (hended : φ.ended = false)
    (h : Alike L loud inside none .unread .unread (Like L) elem elem') :
    Alike L loud inside hand φ .behind (Like L) (commaTail close elem)
      (commaTail close elem') := by
  have hturn : Alike L loud inside none .unread .unread (fun r r' => r.1 = r'.1 ∧ Like L r.2 r'.2)
      (commaTailTurn close elem) (commaTailTurn close elem') := by
    refine ifAccept ⟨rfl, rfl, rfl, rfl, fun _ => rfl⟩ rfl ?_ (.value ⟨rfl, rfl⟩)
    refine ifSees hclose.ne_semicolon rfl (done ⟨rfl, rfl⟩ (by decide)) ?_
    exact map (h.at_le (by decide) (by decide)) fun a a' ha => ⟨rfl, by simp_all⟩
  refine .bind ((collect rfl (follows_commaTailTurn helem close)
    (follows_commaTailTurn helem' close) hturn).at_le (Footing.le_unread hended)
    (Footing.le_refl _)) fun elems elems' helems => ?_
  exact .bind (expect hclose rfl) fun _ _ _ => .value helems

end Alike

end Parser

/-! ## Looking further -/

namespace Lexeme.AlikeUpTo

variable {L : Likeness} {cut : Cut} {s s' : State}

theorem kind_alike (h : AlikeUpTo L cut s.rest s'.rest) : TokenKind.Alike L s.kind s'.kind := by
  cases hrest : s.rest with
  | nil =>
    cases hrest' : s'.rest with
    | nil =>
      rw [State.kind, State.kind, hrest, hrest']
      exact .same _
    | cons a' rest' =>
      rw [hrest, hrest'] at h
      cases h
  | cons a rest =>
    cases hrest' : s'.rest with
    | nil =>
      rw [hrest, hrest'] at h
      cases h
    | cons a' rest' =>
      rw [hrest, hrest'] at h
      rw [State.kind, State.kind, hrest, hrest']
      cases h with
      | last hcut hkind hkind' =>
        simp only [hkind, hkind']
        exact .same _
      | cons hkind => exact hkind

/-- Behind a token the sequences are still the same, unless that is the last one before the cut. -/
theorem next (h : AlikeUpTo L cut s.rest s'.rest) :
    AlikeUpTo L cut s.advance.rest s'.advance.rest ∨
      ∃ symbol, cut.symbol? = some symbol ∧ s.kind = .symbol symbol := by
  rw [State.rest_advance, State.rest_advance, State.kind]
  generalize s.rest = rest at *
  generalize s'.rest = rest' at *
  cases h with
  | nil => exact .inl .nil
  | last hcut hkind => exact .inr ⟨_, hcut, hkind⟩
  | cons _ _ _ _ h => exact .inl h

/-- Before the cut the sequences stay the same if a token is passed over in both. -/
theorem advance (h : AlikeUpTo L cut s.rest s'.rest) (hsemicolon : s.kind ≠ .symbol .semicolon)
    (hbrace : s.kind ≠ .symbol .rightBrace) : AlikeUpTo L cut s.advance.rest s'.advance.rest := by
  obtain hnext | ⟨symbol, hcut, hkind⟩ := h.next
  · exact hnext
  · cases cut with
    | none => cases hcut
    | semicolon =>
      cases hcut
      exact absurd hkind hsemicolon
    | brace =>
      cases hcut
      exact absurd hkind hbrace

/-- What stands behind a token before the cut. -/
theorem peek_alike (h : AlikeUpTo L cut s.rest s'.rest) (hsemicolon : s.kind ≠ .symbol .semicolon)
    (hbrace : s.kind ≠ .symbol .rightBrace) : TokenKind.Alike L (s.peek 1) (s'.peek 1) := by
  rw [← Parser.kind_advance, ← Parser.kind_advance]
  exact (h.advance hsemicolon hbrace).kind_alike

theorem atEnd_eq (h : AlikeUpTo L cut s.rest s'.rest) : s.atEnd = s'.atEnd := by
  rw [State.atEnd, State.atEnd]
  generalize s.rest = rest at *
  generalize s'.rest = rest' at *
  cases h <;> rfl

end Lexeme.AlikeUpTo

theorem Lexeme.Resembling.kind_resembles {s s' : State} (h : Lexeme.Resembling s.rest s'.rest) :
    s.kind.Resembles s'.kind := by
  unfold State.kind
  generalize s.rest = rest at h
  generalize s'.rest = rest' at h
  cases h with
  | nil => exact .same _
  | cons hkind => exact hkind

theorem Lexeme.Resembling.advance {s s' : State} (h : Lexeme.Resembling s.rest s'.rest) :
    Lexeme.Resembling s.advance.rest s'.advance.rest := by
  rw [State.rest_advance, State.rest_advance]
  generalize s.rest = rest at *
  generalize s'.rest = rest' at *
  cases h with
  | nil => exact .nil
  | cons _ h => exact h

theorem Lexeme.Resembling.peek_resembles {s s' : State} (h : Lexeme.Resembling s.rest s'.rest) :
    (s.peek 1).Resembles (s'.peek 1) := by
  rw [← Parser.kind_advance, ← Parser.kind_advance]
  exact h.advance.kind_resembles

theorem Lexeme.Resembling.atEnd_eq {s s' : State} (h : Lexeme.Resembling s.rest s'.rest) :
    s.atEnd = s'.atEnd := by
  unfold State.atEnd
  generalize s.rest = rest at *
  generalize s'.rest = rest' at *
  cases h <;> rfl

namespace Lexeme.Gapped

variable {behind rest rest' : List Lexeme} {s s' : State}

theorem length_le (h : Gapped behind rest rest') : behind.length ≤ rest.length := by
  induction h with
  | here => exact Nat.le_refl _
  | cons _ _ ih => exact Nat.le_succ_of_le ih

theorem kind_resembles (h : Gapped behind s.rest s'.rest) (hlt : behind.length < s.rest.length) :
    s.kind.Resembles s'.kind := by
  unfold State.kind
  generalize s.rest = rest at *
  generalize s'.rest = rest' at *
  cases h with
  | here => exact absurd hlt (Nat.lt_irrefl _)
  | cons hkind => exact hkind

theorem advance (h : Gapped behind s.rest s'.rest) (hlt : behind.length < s.rest.length) :
    Gapped behind s.advance.rest s'.advance.rest := by
  rw [State.rest_advance, State.rest_advance]
  generalize s.rest = rest at *
  generalize s'.rest = rest' at *
  cases h with
  | here => exact absurd hlt (Nat.lt_irrefl _)
  | cons _ h => exact h

/-- Where all tokens have been read before the missing semicolon, the second run has it at hand. -/
theorem kind_eq_semicolon (h : Gapped behind s.rest s'.rest)
    (hle : s.rest.length ≤ behind.length) : s'.kind = .symbol .semicolon := by
  unfold State.kind
  generalize s.rest = rest at *
  generalize s'.rest = rest' at *
  cases h with
  | here hkind => exact hkind
  | cons _ h => exact absurd hle (Nat.not_le.2 (Nat.lt_succ_of_le h.length_le))

theorem length_eq (h : Gapped behind rest rest') : rest'.length = rest.length + 1 := by
  induction h with
  | here _ h => rw [List.length_cons, List.Forall₂.length_eq h]
  | cons _ _ ih => rw [List.length_cons, List.length_cons, ih]

/-- What stands behind the token at hand, where that stands before the missing semicolon: a token
that stands there as well, or the semicolon. -/
theorem peek (h : Gapped behind s.rest s'.rest) (hlt : behind.length < s.rest.length) :
    (behind.length < s.advance.rest.length ∧ (s.peek 1).Resembles (s'.peek 1)) ∨
      (s.advance.rest.length = behind.length ∧ s'.peek 1 = .symbol .semicolon) := by
  have hnext := h.advance hlt
  rw [← Parser.kind_advance, ← Parser.kind_advance]
  obtain hlt | heq := Nat.lt_or_eq_of_le hnext.length_le
  · exact .inl ⟨hlt, hnext.kind_resembles hlt⟩
  · exact .inr ⟨heq.symm, hnext.kind_eq_semicolon (Nat.le_of_eq heq.symm)⟩

theorem atEnd_eq (h : Gapped behind s.rest s'.rest) (hlt : behind.length < s.rest.length) :
    s.atEnd = s'.atEnd := by
  unfold State.atEnd
  generalize s.rest = rest at *
  generalize s'.rest = rest' at *
  cases h with
  | here => exact absurd hlt (Nat.lt_irrefl _)
  | cons => rfl

end Lexeme.Gapped

namespace Parser

/-! ## Readings that miss a token -/

/-- The reading fails where so many tokens are left. -/
def Misses {α : Type} (p : Parser α) (left : Nat) (setting : Setting) (s : State) : Prop :=
  ∃ e after, p setting s = .fail e after ∧ after.rest.length = left

section

variable {α β : Type} {left : Nat} {setting : Setting} {s s' : State}

theorem Misses.bind {p : Parser α} (h : p.Misses left setting s) (q : α → Parser β) :
    (p >>= q).Misses left setting s := by
  obtain ⟨e, after, hreply, hleft⟩ := h
  exact ⟨e, after, bind_fail hreply, hleft⟩

theorem Misses.of_ok {p : Parser α} {q : α → Parser β} {a : α} (hreply : p setting s = .ok a s')
    (h : (q a).Misses left setting s') : (p >>= q).Misses left setting s := by
  obtain ⟨e, after, hfail, hleft⟩ := h
  exact ⟨e, after, (bind_ok hreply).trans hfail, hleft⟩

theorem misses_expected (wanted : Expected) :
    (expected wanted : Parser α).Misses s.rest.length setting s :=
  ⟨_, s, rfl, rfl⟩

theorem misses_require {test : TokenKind → Bool} (hkind : test s.kind = false) (wanted : Expected) :
    (require test wanted).Misses s.rest.length setting s :=
  ⟨_, s, by rw [require_eq, hkind]; rfl, rfl⟩

theorem misses_valueOf {value? : TokenKind → Option α} (hkind : value? s.kind = none)
    (wanted : Expected) : (valueOf value? wanted).Misses s.rest.length setting s :=
  ⟨_, s, by rw [valueOf_eq, hkind], rfl⟩

theorem Misses.enclosed {p : Parser α} (h : p.Misses left setting { s with context := .anything }) :
    (Parser.enclosed p).Misses left setting s := by
  obtain ⟨e, after, hreply, hleft⟩ := h
  refine ⟨e, { after with context := s.context }, ?_, hleft⟩
  rw [Parser.enclosed, withContext, hreply]
  rfl

theorem sees_eq (symbol : Symbol) : sees symbol setting s = .ok (s.kind.isSymbol symbol) s := rfl

theorem Misses.collect {step : Parser (Bool × List α)} (h : step.Misses left setting s) :
    (Parser.collect step).Misses left setting s := by
  refine Misses.bind ?_ _
  change (repeatAlong _ s.rest _).Misses left setting s
  cases s.rest with
  | nil => exact (h.bind _).bind _
  | cons => exact (h.bind _).bind _

theorem collect_eq_of_last {step : Parser (Bool × List α)} {as : List α}
    (h : step setting s = .ok (false, as) s') : Parser.collect step setting s = .ok as s' := by
  have hloop : Parser.loop (collectTurn step) [] setting s = .ok [as] s' := by
    have hturn := collectTurn_eq h []
    change repeatAlong (collectTurn step) s.rest _ setting s = _
    cases s.rest with
    | nil =>
      rw [repeatAlong, bind_ok hturn]
      rfl
    | cons =>
      rw [repeatAlong, bind_ok hturn]
      rfl
  change (Parser.loop (collectTurn step) [] >>= fun turns => pure turns.reverse.flatten) setting s = _
  rw [bind_ok hloop]
  change Reply.ok _ s' = _
  simp

/-- A list of which the first element cannot be read. -/
theorem Misses.commaList {elem : Parser α} {close : Symbol} (hclose : s.kind.isSymbol close = false)
    (h : elem.Misses left setting s) : (Parser.commaList close elem).Misses left setting s := by
  refine (Misses.collect ?_).bind _
  refine Misses.of_ok (sees_eq close) ?_
  rw [hclose]
  exact h.bind _

/-- A list that breaks off behind its first element. -/
theorem misses_commaList (s' : State) {elem : Parser α} {close : Symbol} {a : α}
    (hclose : s.kind.isSymbol close = false) (helem : elem setting s = .ok a s')
    (hcomma : s'.kind.isSymbol .comma = false) (hclose' : s'.kind.isSymbol close = false) :
    (Parser.commaList close elem).Misses s'.rest.length setting s := by
  have hturn : commaTurn close elem setting s = .ok (false, [a]) s' := by
    rw [commaTurn, bind_ok (sees_eq close), hclose]
    refine (bind_ok helem).trans (bind_ok (?_ : accept .comma setting s' = .ok false s'))
    rw [accept, acceptIf_eq, hcomma]
    rfl
  exact Misses.of_ok (collect_eq_of_last hturn) ((misses_require hclose' _).bind _)

end

variable {L : Comparison} {α β : Type} {loud inside : Bool} {hand : Hand} {φ ψ χ : Footing}
  {R : α → α → Prop} {S : β → β → Prop}

/-- Something that is the same before every cut, unless the reading fails.  Where a semicolon is
missing that takes the token at hand, or fails. -/
theorem Alike.queryOrFail {f : State → α} (q q' : α → Parser β) (hended : φ.ended = false)
    (hstable : ∀ cut s s', Lexeme.AlikeUpTo L cut s.rest s'.rest → s.context = s'.context →
      f s = f s' ∨ (cut.symbol? ≠ none ∧ (cut.symbol? = some .semicolon → inside = true) ∧
        ∀ setting, ∃ e after, q (f s) setting s = .fail e after))
    (hsteady : ∀ s s', Lexeme.Resembling s.rest s'.rest → s.context = s'.context → f s = f s')
    (hahead : ∀ behind setting setting' s s', Lexeme.Gapped behind s.rest s'.rest →
      behind.length < s.rest.length → s.context = s'.context →
      f s = f s' ∨ Deflected behind (q (f s)) (q' (f s)) (q' (f s')) setting setting' s s')
    (hq : ∀ s s' : State, L.Matches s.kind s'.kind → f s = f s' →
      Alike L loud inside (some (s.kind, s'.kind)) φ.look.still χ S (q (f s)) (q' (f s))) :
    Alike L loud inside hand φ χ S (Parser.query f >>= q) (Parser.query f >>= q') :=
  .forget (.look none hended (fun cut s s' h hcontext _ => hstable cut s s' h hcontext)
    (fun s s' hkind heq => .weaken (hq s s' hkind heq) id id (.inr rfl) (Footing.le_still _)
      (Footing.le_refl χ) fun _ _ h => h)
    nofun (fun _ => hsteady) (fun _ behind setting setting' s s' h hlt hcontext _ =>
      hahead behind setting setting' s s' h hlt hcontext)
    (fun _ => .takes) (fun _ _ _ _ _ _ => nofun) (fun _ _ s _ => hq s s (.same _) rfl)
    (fun _ _ _ => nofun))

theorem Alike.query {f : State → α} {q q' : α → Parser β} (hended : φ.ended = false)
    (hstable : ∀ cut s s', Lexeme.AlikeUpTo L cut s.rest s'.rest → s.context = s'.context →
      f s = f s')
    (hsteady : ∀ s s', Lexeme.Resembling s.rest s'.rest → s.context = s'.context → f s = f s')
    (hahead : ∀ behind setting setting' s s', Lexeme.Gapped behind s.rest s'.rest →
      behind.length < s.rest.length → s.context = s'.context →
      f s = f s' ∨ Deflected behind (q (f s)) (q' (f s)) (q' (f s')) setting setting' s s')
    (hq : ∀ s s' : State, L.Matches s.kind s'.kind → f s = f s' →
      Alike L loud inside (some (s.kind, s'.kind)) φ.look.still χ S (q (f s)) (q' (f s))) :
    Alike L loud inside hand φ χ S (Parser.query f >>= q) (Parser.query f >>= q') :=
  .queryOrFail q q' hended (fun cut s s' h hcontext => .inl (hstable cut s s' h hcontext)) hsteady hahead hq

/-- A test that a semicolon fails. -/
theorem Alike.queryIf {f : State → Bool} (yes yes' : Parser β) {no no' : Parser β} (hended : φ.ended = false)
    (hstable : ∀ cut s s', Lexeme.AlikeUpTo L cut s.rest s'.rest → s.context = s'.context →
      f s = f s')
    (hsteady : ∀ s s', Lexeme.Resembling s.rest s'.rest → s.context = s'.context → f s = f s')
    (hsemicolon : ∀ s, s.kind = .symbol .semicolon → f s = false)
    (hahead : ∀ behind setting setting' s s', Lexeme.Gapped behind s.rest s'.rest →
      behind.length < s.rest.length → s.context = s'.context →
      f s = f s' ∨ Deflected behind (if f s then yes else no) (if f s then yes' else no')
        (if f s' then yes' else no') setting setting' s s')
    (hyes : ∀ s s' : State, f s = true → f s' = true →
      Alike L loud inside (some (s.kind, s'.kind)) φ.look.still χ S yes yes')
    (hno : Alike L loud inside none φ.look χ S no no') :
    Alike L loud inside hand φ χ S (do if ← Parser.query f then yes else no)
      (do if ← Parser.query f then yes' else no') := by
  refine .forget (.look none hended
    (fun cut s s' h hcontext _ => .inl (hstable cut s s' h hcontext)) (fun s s' _ heq => ?_)
    nofun (fun _ => hsteady) (fun _ behind setting setting' s s' h hlt hcontext _ =>
      hahead behind setting setting' s s' h hlt hcontext)
    (fun s => if f s then .takes else .passes) (fun _ _ s s' hkind _ hs => ?_)
    (fun _ _ s hs => ?_) (fun _ _ s hs => ?_))
  · split
    case isTrue hs =>
      exact .weaken (hyes s s' hs (heq ▸ hs)) id id (.inr rfl) (Footing.le_still _)
        (Footing.le_refl χ) fun _ _ h => h
    case isFalse => exact hno.forget
  · have hs : f s = false := by
      by_contra hf
      simp [hf] at hs
    rw [hs, hsemicolon s' hkind]
    exact hno.forget
  · have hs : f s = true := by
      by_contra hf
      simp [hf] at hs
    rw [hs]
    exact hyes s s hs hs
  · split at hs <;> cases hs

theorem alike_atEnd {q q' : Bool → Parser β} (hended : φ.ended = false)
    (hq : ∀ k k' atEnd, (atEnd = true → k = .endOfFile) →
      Alike L loud inside (some (k, k')) φ.look.still χ S (q atEnd) (q' atEnd)) :
    Alike L loud inside hand φ χ S (atEnd >>= q) (atEnd >>= q') := by
  refine .query hended (fun _ _ _ h _ => h.atEnd_eq) (fun _ _ h _ => h.atEnd_eq)
    (fun _ _ _ _ _ h hlt _ => .inl (h.atEnd_eq hlt)) fun s s' _ _ => hq _ _ _ fun h => ?_
  rw [State.kind, List.isEmpty_iff.1 h]

theorem alike_atBodyEnd {q q' : Bool → Parser β} (hended : φ.ended = false)
    (hq : ∀ atEnd, Alike L loud inside none φ.look.still χ S (q atEnd) (q' atEnd)) :
    Alike L loud inside hand φ χ S (atBodyEnd >>= q) (atBodyEnd >>= q') :=
  .query hended (fun _ _ _ h _ => by rw [h.kind_alike.isSymbol_eq, h.atEnd_eq])
    (fun _ _ h _ => by rw [h.kind_resembles.isSymbol_eq, h.atEnd_eq])
    (fun _ _ _ _ _ h hlt _ => .inl (by
      rw [(h.kind_resembles hlt).isSymbol_eq, h.atEnd_eq hlt]))
    fun _ _ _ _ => (hq _).forget

/-! ## Paths -/

theorem alike_pathTurn : Alike L loud inside none .firm .firm
    (fun r r' => r.1 = r'.1 ∧ Like L r.2 r'.2) pathTurn pathTurn := by
  refine .queryIf _ _ rfl (fun cut s s' h _ => ?_) (fun s s' h _ => ?_) (fun s hs => ?_)
    (fun behind setting setting' s s' h hlt _ => ?_) (fun s s' hs _ => ?_) (.value ⟨rfl, rfl⟩)
  · rw [← h.kind_alike.isSymbol_eq]
    cases hsymbol : s.kind.isSymbol .colonColon with
    | false => rfl
    | true =>
      have hs := TokenKind.eq_of_isSymbol hsymbol
      rw [(h.peek_alike (by simp [hs]) (by simp [hs])).isName_eq]
  · rw [h.kind_resembles.isSymbol_eq, h.peek_resembles.isName_eq]
  · rw [hs]
    rfl
  · have hkind := (h.kind_resembles hlt).isSymbol_eq .colonColon
    obtain ⟨-, hpeek⟩ | ⟨hlength, hpeek⟩ := h.peek hlt
    · exact .inl (by rw [hkind, hpeek.isName_eq])
    · cases hs : s.kind.isSymbol .colonColon && (s.peek 1).isName with
      | false =>
        rw [hpeek]
        exact .inl (Bool.and_false _).symm
      | true =>
        -- the second run would miss the name
        refine .inr (.inl ⟨s'.advance.expectedError setting' .name, s'.advance, ?_, ?_⟩)
        · have hkind' : s'.advance.kind = .symbol .semicolon := by rw [kind_advance, hpeek]
          change bind name _ setting' s'.advance = _
          rw [bind, name, valueOf_eq, hkind']
        · rw [(h.advance hlt).length_eq, hlength]
  · have hs := TokenKind.eq_of_isSymbol (Bool.and_eq_true_iff.1 hs).1
    rw [hs]
    have hpass : Passable .loose .behind (.symbol .colonColon) :=
      ⟨fun h => (by cases h), fun h => (by cases h), by decide⟩
    refine .pass rfl hpass (.map ((Alike.name rfl).ends_le (by decide)) ?_)
    exact fun part part' hpart => ⟨rfl, by simp_all⟩

theorem alike_path (hended : φ.ended = false) :
    Alike L loud inside hand φ .firm (· = ·) path path := by
  refine .bind (.name hended) fun first first' hfirst => ?_
  refine .map ((Alike.collect rfl (@follows_pathTurn false) (@follows_pathTurn false)
    alike_pathTurn).at_le (by decide) (Footing.le_refl _)) fun more more' hmore => ?_
  simp_all

/-! ## Contexts -/

theorem Alike.enclosed {p p' : Parser α} (hχ : χ.blocked = false) (hended : χ.ended = false)
    (h : Alike L loud inside hand φ χ R p p') :
    Alike L loud inside hand φ χ R (enclosed p) (enclosed p') :=
  .inContext (fun _ => .anything) (.enclose (fun _ => rfl) hχ hended) h

/-- The bracket that closes what is enclosed may be read before the context is changed back. -/
theorem enclosed_bind_expect (p : Parser α) (close : Symbol) (q : α → Parser β) :
    (enclosed p >>= fun a => expect close >>= fun _ => q a) =
      (enclosed (p >>= fun a => expect close >>= fun _ => pure a) >>= q) := by
  funext setting s
  simp only [Bind.bind, bind, enclosed, withContext, expect, require_eq]
  cases p setting { s with context := .anything } with
  | fail e after => rfl
  | ok a after =>
    simp only [Reply.mapState]
    have hkind : State.kind { after with context := s.context } = after.kind := rfl
    have hadvance : State.advance { after with context := s.context } =
        { after.advance with context := s.context } := by
      cases after with
      | mk rest => cases rest <;> rfl
    rw [hkind, hadvance]
    cases after.kind.isSymbol close <;> rfl

/-- Something enclosed, and the bracket that closes it. -/
theorem Alike.enclosedExpect {p p' : Parser α} {q q' : α → Parser β} {close : Symbol}
    (hclose : Ordinary (·.isSymbol close)) (hended : ψ.ended = false)
    (h : Alike L loud inside hand φ ψ R p p')
    (hq : ∀ a a', R a a' → Alike L loud inside none .behind χ S (q a) (q' a')) :
    Alike L loud inside hand φ χ S
      (Parser.enclosed p >>= fun a => Parser.expect close >>= fun _ => q a)
      (Parser.enclosed p' >>= fun a => Parser.expect close >>= fun _ => q' a) := by
  rw [enclosed_bind_expect, enclosed_bind_expect]
  refine .bind (.enclosed rfl rfl (.bind h fun a a' ha => ?_)) hq
  exact .bind (.expect hclose hended) fun _ _ _ => .value ha

end Parser

end ActorFrontend
