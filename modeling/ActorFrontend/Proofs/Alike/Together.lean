import ActorFrontend.Proofs.Alike.Astray
import ActorFrontend.Proofs.Alike.Combinators

/-!
# Runs that stay together

Two runs over tokens that are the same up to a cut answer alike, unless the first one fails, records
an error or goes beyond the cut.  Where the cut is at the end of the input and the first run reads all
of it without an error, nothing is left but that both answer alike.
-/

namespace ActorFrontend

variable {α β σ : Type} {L : Likeness} {cut : Cut} {φ ψ χ : Footing} {hand : Hand}
  {setting setting' : Setting} {s s' t t' : State}

/-- What stands before two sequences with the same first token may stand before both. -/
theorem Lexeme.AlikeUpTo.prepend {lexeme : Lexeme} {rest rest' : List Lexeme}
    (h : Lexeme.AlikeUpTo L cut (lexeme :: rest) (lexeme :: rest')) (ts : List Lexeme) :
    Lexeme.AlikeUpTo L cut (ts ++ lexeme :: rest) (ts ++ lexeme :: rest') := by
  induction ts with
  | nil => exact h
  | cons first ts ih =>
    refine .cons (.same _) (fun _ => rfl) (fun _ => rfl) (fun _ _ => ?_) ih
    cases ts <;> rfl

/-- Settings under which runs can be compared up to a cut.  Behind a cut places differ. -/
structure Setting.Comparable (L : Likeness) (cut : Cut) (setting setting' : Setting) : Prop where
  endOfInput : L.SameSpan setting.endOfInput setting'.endOfInput
  unplaced : cut.symbol? ≠ none → L.spans = false

theorem Setting.Comparable.of_unplaced (hspans : L.spans = false) :
    setting.Comparable L cut setting' :=
  ⟨Likeness.sameSpan_of_not hspans _ _, fun _ => hspans⟩

namespace State

/-- Two runs stand before the cut, or directly behind it where that has not been looked at. -/
inductive Meet (L : Likeness) (cut : Cut) (φ : Footing) (hand : Hand) (s s' : State) : Prop where
  | before (h : Lexeme.AlikeUpTo L cut s.rest s'.rest) (hhand : hand.Holds s.kind s'.kind)
  | behind (hcut : cut.symbol? ≠ none) (hrest : s.rest = cut.left) (hrest' : s'.rest = cut.right)
      (hended : cut.symbol? = some .semicolon → φ.ended = true) (hhand : hand = none)

namespace Meet

theorem ending (h : Meet L cut φ hand s s') (hle : φ.ended = true → ψ.ended = true) :
    Meet L cut ψ hand s s' := by
  cases h with
  | before h hhand => exact .before h hhand
  | behind hcut hrest hrest' hended hhand =>
    exact .behind hcut hrest hrest' (fun h => hle (hended h)) hhand

theorem congr (h : Meet L cut φ hand s s') (hrest : t.rest = s.rest) (hrest' : t'.rest = s'.rest) :
    Meet L cut φ hand t t' := by
  cases h with
  | before h hhand =>
    refine .before (hrest ▸ hrest' ▸ h) ?_
    unfold State.kind at hhand ⊢
    rwa [hrest, hrest']
  | behind hcut hleft hright hended hhand =>
    exact .behind hcut (hrest.trans hleft) (hrest'.trans hright) hended hhand

theorem forget (h : Meet L cut φ hand s s') : Meet L cut φ none s s' := by
  cases h with
  | before h _ => exact .before h (Hand.holds_none _ _)
  | behind hcut hrest hrest' hended _ => exact .behind hcut hrest hrest' hended rfl

/-- Where the token read last is not counted as an end, looking further leads astray behind the
cut. -/
theorem before_or_astray (h : Meet L cut φ hand s s') (hended : φ.ended = false) :
    (Lexeme.AlikeUpTo L cut s.rest s'.rest ∧ hand.Holds s.kind s'.kind) ∨
      (hand = none ∧ s.rest = [] ∧ s.Astray cut φ.look) := by
  cases h with
  | before h hhand => exact .inl ⟨h, hhand⟩
  | behind hcut hrest hrest' hend hhand =>
    have hbrace : cut.symbol? ≠ some .semicolon := by
      intro h
      exact absurd (hended.symm.trans (hend h)) Bool.false_ne_true
    have hnil : cut.left = [] := by
      cases cut with
      | semicolon => exact absurd rfl hbrace
      | _ => rfl
    exact .inr ⟨hhand, hrest.trans hnil, .behind hcut hrest (fun h => absurd h hbrace) fun _ => rfl⟩

end Meet

/-- Two runs have come to the same place, the first one without an error. -/
structure Together (L : Likeness) (cut : Cut) (setting setting' : Setting)
    (errors : List ParseError) (φ : Footing) (hand : Hand) (s s' : State) : Prop where
  meet : Meet L cut φ hand s s'
  context : s.context = s'.context
  /-- The first run may not nest any deeper than the second one. -/
  levels : setting.limits.maxDepth + s'.depth ≤ setting'.limits.maxDepth + s.depth
  previousEnd : L.SameOffset s.previousEnd s'.previousEnd
  nextId : L.SameId s.nextId s'.nextId
  errors_left : s.errors = []
  running_left : s.halted = false
  errors_right : s'.errors = errors
  running_right : s'.halted = false

variable {errors : List ParseError}

namespace Together

/-- What is known of the place where the runs stand. -/
theorem standing (h : s.Together L cut setting setting' errors φ hand s')
    {hand' : Hand} (hmeet : Meet L cut ψ hand' s s') :
    s.Together L cut setting setting' errors ψ hand' s' :=
  { h with meet := hmeet }

theorem sameSpan (h : s.Together L cut setting setting' errors φ hand s')
    (hsetting : setting.Comparable L cut setting') :
    L.SameSpan (s.span setting) (s'.span setting') := by
  refine Likeness.sameSpan_iff.2 fun hspans => ?_
  have hend := Likeness.sameSpan_iff.1 hsetting.endOfInput hspans
  cases h.meet with
  | behind hcut =>
    exact absurd ((hsetting.unplaced hcut).symm.trans hspans) Bool.false_ne_true
  | before h =>
    unfold State.span
    generalize s.rest = rest at h
    generalize s'.rest = rest' at h
    cases h with
    | nil => exact hend
    | last _ _ _ hspan => exact hspan hspans
    | cons _ _ hspan => exact hspan hspans

/-- A token that both runs read. -/
theorem advance (h : s.Together L cut setting setting' errors φ hand s')
    (halike : Lexeme.AlikeUpTo L cut s.rest s'.rest) (hkind : s.kind ≠ .endOfFile)
    (hend : s.kind = .symbol .semicolon → χ.ended = true) :
    s.advance.Together L cut setting setting' errors χ none s'.advance := by
  have hnext {a a' : Lexeme} {rest rest' : List Lexeme} (hrest : s.rest = a :: rest)
      (hrest' : s'.rest = a' :: rest') (hspan : L.spans = true → a.token.span = a'.token.span)
      (hmeet : Meet L cut χ none s.advance s'.advance) :
      s.advance.Together L cut setting setting' errors χ none s'.advance := by
    have hadvance : s.advance = { s with rest, previousEnd := a.token.span.stop } := by
      unfold State.advance
      rw [hrest]
    have hadvance' : s'.advance =
        { s' with rest := rest', previousEnd := a'.token.span.stop } := by
      unfold State.advance
      rw [hrest']
    rw [hadvance, hadvance'] at hmeet ⊢
    exact { h with meet := hmeet, previousEnd := fun hspans => by rw [hspan hspans] }
  have hadvance := s.rest_advance
  have hadvance' := s'.rest_advance
  unfold State.kind at hkind hend
  cases hrest : s.rest with
  | nil =>
    rw [hrest] at hkind
    exact absurd rfl hkind
  | cons a rest =>
    cases hrest' : s'.rest with
    | nil =>
      rw [hrest, hrest'] at halike
      cases halike
    | cons a' rest' =>
      rw [hrest, hrest'] at halike
      rw [hrest] at hadvance hend
      rw [hrest'] at hadvance'
      cases halike with
      | last hcut hsymbol _ hspan =>
        refine hnext hrest hrest' hspan (.behind (by simp [hcut]) hadvance hadvance' ?_ rfl)
        intro hsemicolon
        obtain rfl : Symbol.semicolon = _ := Option.some.inj (hsemicolon.symm.trans hcut)
        exact hend hsymbol
      | cons _ _ hspan _ halike =>
        refine hnext hrest hrest' hspan (.before ?_ (Hand.holds_none _ _))
        rw [hadvance, hadvance']
        exact halike

end Together

/-- Both runs start before the cut. -/
theorem together_initial {lexemes lexemes' : List Lexeme} {depth depth' : Nat}
    {nextId nextId' : NodeId} (hsetting : setting.Comparable L .none setting')
    (h : Lexeme.AlikeUpTo L .none lexemes lexemes')
    (hlevels : setting.limits.maxDepth + depth' ≤ setting'.limits.maxDepth + depth)
    (hids : L.SameId nextId nextId') :
    { State.initial setting lexemes with nextId, depth }.Together L .none setting setting' [] φ none
      { State.initial setting' lexemes' with nextId := nextId', depth := depth' } where
  meet := .before h (Hand.holds_none _ _)
  context := rfl
  levels := hlevels
  previousEnd := by
    cases h with
    | nil => exact hsetting.endOfInput.start
    | last hcut => cases hcut
    | cons _ _ hspan => exact fun hspans => by simp only [State.initial, hspan hspans]
  nextId := hids
  errors_left := rfl
  running_left := rfl
  errors_right := rfl
  running_right := rfl

theorem text_eq (h : Lexeme.AlikeUpTo L cut s.rest s'.rest) (hend : s.kind ≠ .endOfFile)
    (hsymbol : ∀ symbol, s.kind ≠ .symbol symbol)
    (hstring : ∀ fragments, s.kind ≠ .interpolated fragments) : s.text = s'.text := by
  unfold State.kind at hend hsymbol hstring
  unfold State.text
  generalize s.rest = rest at *
  generalize s'.rest = rest' at *
  cases h with
  | nil => rfl
  | last _ hkind => exact absurd hkind (hsymbol _)
  | cons _ htext => exact htext hstring

/-- The unit that a name stands for. -/
def unitOf? : TokenKind → Option DurationUnit
  | .ident suffix => DurationUnit.ofSuffix? suffix
  | _ => none

/-- A unit is attached to an integer if the name behind it starts exactly where it ends. -/
theorem attachedUnit?_advance {lexeme : Lexeme} {rest : List Lexeme}
    (hrest : s.rest = lexeme :: rest) :
    s.advance.attachedUnit? = if lexeme.isMet rest then unitOf? s.advance.kind else none := by
  have hadvance : s.advance = { s with rest, previousEnd := lexeme.token.span.stop } := by
    unfold State.advance
    rw [hrest]
  rw [hadvance]
  unfold attachedUnit? State.kind
  cases rest with
  | nil => rfl
  | cons next rest =>
    unfold Lexeme.isMet unitOf?
    cases hkind : next.token.kind with
    | ident suffix => simp [hkind, TokenKind.isName]
    | _ => simp [hkind, TokenKind.isName]

theorem attachedUnit?_eq {value : UInt64} (h : Lexeme.AlikeUpTo L cut s.rest s'.rest)
    (hkind : s.kind = .int value) : s.advance.attachedUnit? = s'.advance.attachedUnit? := by
  have hnext := h.advance (by simp [hkind]) (by simp [hkind])
  have hunit : unitOf? s.advance.kind = unitOf? s'.advance.kind :=
    hnext.kind_alike.test_eq _ fun _ _ => rfl
  unfold State.kind at hkind
  cases hrest : s.rest with
  | nil =>
    rw [hrest] at hkind
    cases hkind
  | cons a rest =>
    cases hrest' : s'.rest with
    | nil =>
      rw [hrest, hrest'] at h
      cases h
    | cons a' rest' =>
      rw [hrest, hrest'] at h
      rw [hrest] at hkind
      rw [attachedUnit?_advance hrest, attachedUnit?_advance hrest', hunit]
      cases h with
      | last _ hsymbol => exact absurd (hsymbol.symm.trans hkind) (by simp)
      | cons _ _ _ hmet => rw [hmet value hkind]

end State

/-! ## Answers -/

/-- The first run fails or goes astray, or both answer alike and have come to the same place. -/
inductive Reply.Together (L : Likeness) (cut : Cut) (setting setting' : Setting)
    (errors : List ParseError) (χ : Footing) (R : α → α → Prop) : Reply α → Reply α → Prop where
  | failed {e : ParseError} {s : State} {r' : Reply α} :
      Together L cut setting setting' errors χ R (.fail e s) r'
  | astray {a : α} {s : State} {r' : Reply α} (h : s.Astray cut χ) :
      Together L cut setting setting' errors χ R (.ok a s) r'
  | both {a a' : α} {s s' : State} (h : s.Together L cut setting setting' errors χ none s')
      (ha : R a a') : Together L cut setting setting' errors χ R (.ok a s) (.ok a' s')

variable {errors : List ParseError} {R : α → α → Prop} {S : β → β → Prop}

namespace Reply.Together

theorem of_astray {r r' : Reply α} (h : r.Astray cut χ) :
    r.Together L cut setting setting' errors χ R r' := by
  cases r with
  | ok a s => exact .astray h
  | fail e s => exact .failed

theorem weaken {r r' : Reply α} {T : α → α → Prop}
    (h : r.Together L cut setting setting' errors φ R r') (hle : φ ≤ χ)
    (hR : ∀ a a', R a a' → T a a') : r.Together L cut setting setting' errors χ T r' := by
  cases h with
  | failed => exact .failed
  | astray h => exact .astray (h.le hle)
  | both h ha => exact .both (h.standing (h.meet.ending hle.1)) (hR _ _ ha)

/-- Where the first run reads everything and records nothing, the second one answers alike. -/
theorem of_done {a : α} {r' : Reply α}
    (h : (Reply.ok a s).Together L .none setting setting' errors χ R r') (hend : s.rest = [])
    (hquiet : ¬ s.Noted) :
    ∃ a' s', r' = .ok a' s' ∧ s.Together L .none setting setting' errors χ none s' ∧ R a a' := by
  cases h with
  | astray h => exact absurd h (State.Astray.of_done hend hquiet)
  | both h ha => exact ⟨_, _, rfl, h, ha⟩

/-- A change of both states. -/
theorem mapState {r r' : Reply α} {f f' : State → State}
    (h : r.Together L cut setting setting' errors φ R r')
    (hastray : ∀ s, r.state = s → s.Astray cut φ → (f s).Astray cut χ)
    (hboth : ∀ s s', r.state = s → r'.state = s' →
      s.Together L cut setting setting' errors φ none s' →
      (f s).Together L cut setting setting' errors χ none (f' s')) :
    (r.mapState f).Together L cut setting setting' errors χ R (r'.mapState f') := by
  cases h with
  | failed => exact .failed
  | astray h => exact .astray (hastray _ rfl h)
  | both h ha => exact .both (hboth _ _ rfl rfl h) ha

theorem bind {loud inside : Bool} {p p' : Parser α} {q q' : α → Parser β}
    (h : (p setting s).Together L cut setting setting' errors ψ R (p' setting' s'))
    (hp : Parser.Alike L loud inside hand φ ψ R p p')
    (hq : ∀ a a', R a a' → Parser.Alike L loud inside none ψ χ S (q a) (q' a'))
    (hboth : ∀ a a' s s', R a a' → s.Together L cut setting setting' errors ψ none s' →
      (q a setting s).Together L cut setting setting' errors χ S (q' a' setting' s')) :
    ((p >>= q) setting s).Together L cut setting setting' errors χ S ((p' >>= q') setting' s') := by
  cases hreply : p setting s with
  | fail e after =>
    change (Parser.bind p q setting s).Together _ _ _ _ _ _ _ _
    rw [Parser.bind, hreply]
    exact .failed
  | ok a after =>
    rw [Parser.bind_ok hreply]
    rw [hreply] at h
    generalize hreply' : p' setting' s' = r' at h
    cases h with
    | astray h =>
      obtain ⟨a', ha⟩ := hp.keepAlike.answer a ⟨setting, s, after, hreply⟩
      exact .of_astray ((hq a a' ha).astray (Hand.knows_none _) h)
    | both h ha =>
      rw [Parser.bind_ok hreply']
      exact hboth _ _ _ _ ha h

end Reply.Together

/-! ## Splices -/

/-- Where the splice has recorded an error the string around it has recorded it too. -/
theorem State.noted_leaveSplice {inner : State} (h : inner.errors ≠ []) :
    (Parser.leaveSplice setting s inner).Noted := by
  unfold Parser.leaveSplice
  cases herrors : inner.errors with
  | nil => exact absurd herrors h
  | cons e errors => exact (State.noted_record ..).kept (.recordAll setting errors _)

theorem State.leaveSplice_of_silent {inner : State} (h : inner.errors = []) :
    Parser.leaveSplice setting s inner = { s with nextId := inner.nextId } := by
  unfold Parser.leaveSplice
  rw [h]
  rfl

/-- The errors of a splice lead astray in the string around it; if there are none the string goes on
where it was. -/
theorem Reply.Together.leaveSplice {r r' : Reply α} {inner inner' : Setting}
    (h : r.Together L .none inner inner' [] χ R r')
    (hs : s.Together L cut setting setting' errors φ hand s') (hχ : χ.blocked = false)
    (hspent : r.state.errors = [] → r.state.halted = false) :
    (r.mapState (Parser.leaveSplice setting s)).Together L cut setting setting' errors φ R
      (r'.mapState (Parser.leaveSplice setting' s')) := by
  cases h with
  | failed => exact .failed
  | astray hastray =>
    refine .astray (.noted (State.noted_leaveSplice fun herrors => ?_))
    cases hastray with
    | noted h =>
      obtain h | h := h
      · exact h herrors
      · exact Bool.false_ne_true ((hspent herrors).symm.trans h)
    | stuck hblocked => exact Bool.false_ne_true (hχ.symm.trans hblocked)
    | beyond h => exact Nat.not_lt_zero _ h
    | behind hcut => exact hcut rfl
  | both hafter ha =>
    simp only [Reply.mapState, State.leaveSplice_of_silent hafter.errors_left,
      State.leaveSplice_of_silent hafter.errors_right]
    exact .both { hs with meet := hs.meet.forget.congr rfl rfl, nextId := hafter.nextId } ha

namespace Parser

variable {loud inside : Bool} {p p' : Parser α}

/-- Readings that go alike answer alike, unless the first one fails or goes astray. -/
theorem Alike.together (h : Alike L loud inside hand φ χ R p p')
    (hsetting : setting.Comparable L cut setting')
    (hs : s.Together L cut setting setting' errors φ hand s') :
    (p setting s).Together L cut setting setting' errors χ R (p' setting' s') := by
  induction h generalizing cut setting setting' errors s s' with
  | value ha => exact .both (hs.standing hs.meet.forget) ha
  | bind hp hq ihp ihq =>
    exact (ihp hsetting hs).bind hp hq fun a a' s s' ha hs => ihq a a' ha hsetting hs
  | @weaken _ _ _ _ _ hand₀ hand φ₀ _ _ _ _ _ _ _ _ _ _ hhand hφ hχ hR ih =>
    have hmeet : State.Meet L cut φ₀ hand₀ s s' := by
      obtain rfl | rfl := hhand
      · exact (hs.meet.ending hφ.1).forget
      · exact hs.meet.ending hφ.1
    exact (ih hsetting (hs.standing hmeet)).weaken hχ hR
  | settle _ h ih =>
    cases hs.meet with
    | before halike hhand => exact ih hsetting (hs.standing (.before halike hhand))
    | behind hcut hrest _ hended hhand =>
      obtain rfl := hhand
      have hastray : s.Astray cut (Footing.settle _) :=
        .behind hcut hrest (fun h => Bool.or_eq_true_iff.2 (.inl (hended h))) fun _ => rfl
      exact .of_astray (h.astray (Hand.knows_none _) hastray)
  | separator hmended => exact absurd rfl hmended
  | unblock hk _ ih => exact ih hsetting (hs.standing (hs.meet.ending id))
  | place f _ _ ih =>
    exact ih _ _ (Comparison.placed_of_not rfl (hs.sameSpan hsetting)) hsetting hs
  | @spanSince _ _ _ _ start start' h =>
    have hsame : L.SameSpan ⟨start, max s.previousEnd start⟩ ⟨start', max s'.previousEnd start'⟩ :=
      Likeness.SameOffset.span h fun hspans => by rw [hs.previousEnd hspans, h hspans]
    exact .both (hs.standing hs.meet.forget) ⟨hsame, fun _ _ _ => Comparison.placed_of_not rfl hsame⟩
  | freshId =>
    refine .both { hs with meet := hs.meet.forget.congr rfl rfl, nextId := ?_ } hs.nextId
    exact Likeness.sameId_iff.2 fun hids => by rw [Likeness.sameId_iff.1 hs.nextId hids]
  | text hk hsymbol hstring hended _ _ ih =>
    obtain ⟨halike, hhand⟩ | ⟨hnone, -⟩ := hs.meet.before_or_astray hended
    · obtain ⟨rfl, rfl⟩ := hhand _ _ rfl
      rw [query_bind, query_bind, ← State.text_eq halike hk hsymbol hstring]
      exact ih s.text hsetting hs
    · cases hnone
  | kind hended hq _ _ _ _ ih =>
    rw [kind_bind, kind_bind]
    obtain ⟨halike, -⟩ | ⟨rfl, -, hastray⟩ := hs.meet.before_or_astray hended
    · exact ih _ _ (.inl halike.kind_alike) hsetting (hs.standing (.before halike (Hand.holds_some _ _)))
    · refine .of_astray ((hq s.kind s.kind (.same _)).astray (Hand.knows_some _ _) hastray)
  | look known hended hstable hq _ _ _ _ _ _ _ ih =>
    rw [query_bind, query_bind]
    obtain ⟨halike, hhand⟩ | ⟨hnone, -, hastray⟩ := hs.meet.before_or_astray hended
    · have hknown : ∀ k ∈ known, s.kind = k := by
        rintro k hk
        obtain rfl : known = some k := hk
        exact (hhand _ _ rfl).1
      obtain heq | ⟨-, -, hfails⟩ := hstable cut s s' halike hs.context hknown
      · rw [← heq]
        refine ih s s' (.inl halike.kind_alike) heq hsetting (hs.standing (.before halike ?_))
        cases known with
        | none => exact Hand.holds_some _ _
        | some k => exact hhand
      · obtain ⟨e, after, hreply⟩ := hfails setting
        rw [hreply]
        exact .failed
    · obtain rfl : known = none := by simpa using hnone
      refine .of_astray ((hq s s (.same _) rfl).astray (Hand.knows_some _ _) hastray)
  | advance hk hended _ =>
    obtain ⟨halike, hhand⟩ | ⟨hnone, -⟩ := hs.meet.before_or_astray hended
    · obtain ⟨rfl, rfl⟩ := hhand _ _ rfl
      exact .both (hs.advance halike hk fun hkind => by rw [hkind]; rfl) trivial
    · cases hnone
  | enter hk hended h ih =>
    rw [advance_bind, advance_bind]
    obtain ⟨halike, hhand⟩ | ⟨hnone, -⟩ := hs.meet.before_or_astray hended
    · obtain ⟨rfl, rfl⟩ := hhand _ _ rfl
      refine ih hsetting (hs.advance halike (ne_endOfFile_of_opens hk) fun hkind => ?_)
      rw [hkind] at hk
      cases hk
    · cases hnone
  | fails => exact .failed
  | refused => exact .failed
  | semicolon hended hstale =>
    obtain ⟨halike, -⟩ | ⟨rfl, -, hastray⟩ := hs.meet.before_or_astray hended
    · unfold Parser.semicolon
      rw [← halike.kind_alike.isSymbol_eq .semicolon]
      split
      case isTrue hkind =>
        have hkind := TokenKind.eq_of_isSymbol hkind
        exact .both (hs.advance halike (by simp [hkind]) fun _ => rfl) trivial
      case isFalse =>
        split
        · exact .astray (.noted (State.noted_record ..))
        · exact .failed
    · exact .of_astray ((@Alike.semicolon L true none _ (Footing.ended_look hended) hstale).astray
        (Hand.knows_none _) hastray)
  | duplicate => exact .astray (.noted (State.noted_record ..))
  | @inContext _ _ _ _ _ χ₀ _ R p p' f hf h ih =>
    have hinner : (p setting { s with context := f s.context }).Together L cut setting setting' errors
        χ₀ R (p' setting' { s' with context := f s'.context }) :=
      ih hsetting { hs with meet := hs.meet.congr rfl rfl, context := congrArg f hs.context }
    have hkept := h.keepAlike.left setting { s with context := f s.context }
    refine hinner.mapState (fun after hafter hastray => ?_) fun after after' _ _ h => ?_
    · rw [hafter] at hkept
      exact hf.astray_leave hastray hkept.context
    · exact { h with
        meet := (h.meet.ending (hf.ended_eq ▸ id)).congr rfl rfl
        context := hs.context }
  | @nested _ _ _ _ _ χ R p p' _ h ih =>
    unfold Parser.nested
    split
    case isTrue => exact .failed
    case isFalse hlevel =>
      have hlevels := hs.levels
      rw [if_neg (show ¬ setting'.limits.maxDepth ≤ s'.depth by omega)]
      have hinner : (p setting { s with depth := s.depth + 1 }).Together L cut setting setting' errors
          χ R (p' setting' { s' with depth := s'.depth + 1 }) :=
        ih hsetting { hs with meet := hs.meet.congr rfl rfl, levels := by simp only; omega }
      have hkept := h.keepAlike.left setting { s with depth := s.depth + 1 }
      have hkept' := h.keepAlike.right rfl setting' { s' with depth := s'.depth + 1 }
      refine hinner.mapState (fun after _ hastray => ?_) fun after after' hafter hafter' h => ?_
      · exact hastray.congr id rfl (fun hblocked h => ⟨hblocked, h⟩) id id
      · rw [hafter] at hkept
        rw [hafter'] at hkept'
        have hdepth : after.depth = s.depth + 1 := hkept.depth
        have hdepth' : after'.depth = s'.depth + 1 := hkept'.depth
        exact { h with meet := h.meet.congr rfl rfl, levels := by simp only; omega }
  | @loop _ _ _ _ φ R step step' a a' hended hprogresses hprogresses' hstep ha ih =>
    have hrun (n : Nat) : ∀ {a a' s s'}, s.rest.length < n → R a a' →
        s.Together L cut setting setting' errors φ none s' →
        (Parser.loop step a setting s).Together L cut setting setting' errors φ R
          (Parser.loop step' a' setting' s') := by
      induction n with
      | zero => exact fun hlt => absurd hlt (Nat.not_lt_zero _)
      | succ n ihn =>
        intro a a' s s' hlt ha hs
        have hturn := ih a a' ha hsetting hs
        rw [loop_eq hprogresses, loop_eq hprogresses']
        cases hreply : step a setting s with
        | fail e after => exact .failed
        | ok r after =>
          obtain ⟨again, b⟩ := r
          rw [hreply] at hturn
          generalize step' a' setting' s' = r' at hturn
          cases hturn with
          | astray hastray =>
            cases again with
            | false => exact .astray hastray
            | true =>
              obtain ⟨r', -, hb⟩ :=
                (hstep a a' ha).keepAlike.answer _ ⟨setting, s, after, hreply⟩
              have hloop : Alike L _ _ none φ φ R (Parser.loop step b) (Parser.loop step' r'.2) :=
                .loop hended hprogresses hprogresses' hstep hb
              exact .of_astray (hloop.astray (Hand.knows_none _) hastray)
          | @both _ r' _ after' hafter hr =>
            obtain ⟨again', b'⟩ := r'
            obtain ⟨hagain, hb⟩ := hr
            obtain rfl : again = again' := hagain
            cases again with
            | false => exact .both hafter hb
            | true =>
              have hlt' := hprogresses _ _ _ _ _ hreply
              exact ihn (by omega) hb hafter
    exact hrun _ (Nat.lt_succ_self _) ha (hs.standing hs.meet.forget)
  | @resilient _ _ _ χ R part part' a a' recovery _ ha _ ih =>
    have hpart : (part a setting s).Together L cut setting setting' errors χ R
        (part' a' setting' s') := ih hsetting hs
    rw [Keeps.resilient_eq hs.running_left, Keeps.resilient_eq hs.running_right]
    generalize part a setting s = r at hpart
    generalize part' a' setting' s' = r' at hpart
    cases hpart with
    | failed => exact .astray (.noted ((State.noted_record ..).kept (@Keeps.kept_recover true ..)))
    | astray h => exact .astray h
    | both h hb => exact .both h ⟨rfl, hb⟩
  | parts _ _ hmended => exact absurd rfl hmended
  | @guess _ _ _ _ _ _ ψ _ R _ p p' _ _ r _ hk hended hχ hp hq hr hslip _ _ _ ihp ihq ihr =>
    obtain ⟨halike, hhand⟩ | ⟨hnone, -⟩ := hs.meet.before_or_astray hended
    · unfold Parser.guess
      rw [query_bind, query_bind, ← hs.context]
      split
      case isFalse => exact ihr hsetting hs
      case isTrue hlambdas =>
        have htrial : (p setting s).Together L cut setting setting' errors ψ R (p' setting' s') :=
          ihp hsetting hs
        cases hreply : p setting s with
        | fail e after =>
          rw [bind_ok (Keeps.attempt_of_fail hp.keepAlike.left hreply)]
          cases hreply' : p' setting' s' with
          | fail e' after' =>
            rw [bind_ok (Keeps.attempt_of_fail (hp.keepAlike.right rfl) hreply')]
            exact ihr hsetting hs
          | ok b after' =>
            -- only the second trial succeeds
            obtain ⟨hkind, hkind'⟩ := hhand _ _ rfl
            have hstops := hslip cut setting setting' s s' e after b after' hkind hkind' halike
              hlambdas hreply hreply'
            change (r setting s).Together L cut setting setting' errors _ _ _
            cases hother : r setting s with
            | fail e after => exact .failed
            | ok b after =>
              obtain ⟨harrow, hlambdas⟩ := hstops b after hother
              exact .astray (.stuck hχ harrow hlambdas)
        | ok a after =>
          rw [bind_ok (Keeps.attempt_of_ok hreply)]
          rw [hreply] at htrial
          generalize hreply' : p' setting' s' = r' at htrial
          cases htrial with
          | astray hastray =>
            obtain ⟨a', ha⟩ := hp.keepAlike.answer a ⟨setting, s, after, hreply⟩
            exact .of_astray ((hq a a' ha).astray (Hand.knows_none _) hastray)
          | both hafter ha =>
            rw [bind_ok (Keeps.attempt_of_ok hreply')]
            exact ihq _ _ ha hsetting hafter
    · cases hnone
  | interpolated hmended => exact absurd rfl hmended
  | @splice _ _ χ g g' tokens tokens' span span' _ htokens hsame hχ h ih =>
    have hinside : (setting.inSplice span).Comparable L .none (setting'.inSplice span') :=
      ⟨Likeness.sameSpan_iff.2 fun hspans => by rw [(hsame hspans).2]; rfl, nofun⟩
    have hentry : (s.inSplice (setting.inSplice span) tokens).Together L .none
        (setting.inSplice span) (setting'.inSplice span') [] .unread none
        (s'.inSplice (setting'.inSplice span') tokens') :=
      State.together_initial hinside htokens hs.levels hs.nextId
    have hkept := h.keepAlike.left (setting.inSplice span)
      (s.inSplice (setting.inSplice span) tokens)
    rw [splice_eq_mapState, splice_eq_mapState]
    exact (ih hinside hentry).leaveSplice hs hχ (hkept.unspent ·)
  | unit hended _ _ ihsome ihnone =>
    rw [advance_bind, advance_bind, bind_ok (durationUnit?_eq ..), bind_ok (durationUnit?_eq ..)]
    obtain ⟨halike, hhand⟩ | ⟨hnone, -⟩ := hs.meet.before_or_astray hended
    · have hkind := (hhand _ _ rfl).1
      have hnext := halike.advance (by simp [hkind]) (by simp [hkind])
      have hadvance (ψ : Footing) :
          s.advance.Together L cut setting setting' errors ψ none s'.advance :=
        hs.advance halike (by simp [hkind]) (by simp [hkind])
      rw [← State.attachedUnit?_eq halike hkind]
      cases hunit : s.advance.attachedUnit? with
      | none => exact ihnone hsetting (hadvance _)
      | some unit =>
        obtain ⟨suffix, hkind⟩ := State.kind_of_attachedUnit? hunit
        have hkind' : s'.advance.kind = .ident suffix := by
          have hkinds := hnext.kind_alike
          rw [hkind] at hkinds
          generalize s'.advance.kind = kind at hkinds
          cases hkinds
          rfl
        refine ihsome unit suffix hsetting ((hadvance .loose).standing (.before hnext ?_))
        rw [hkind, hkind']
        exact Hand.holds_some _ _
    · cases hnone

end Parser

end ActorFrontend
