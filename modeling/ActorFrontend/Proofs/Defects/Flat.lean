import ActorFrontend.Proofs.Alike.Together

/-!
# Failures before a semicolon

A run of tokens without brackets, semicolons and strings with splices is read in one piece: no list
of parts, in which an error would be mended, is entered on the way.  A reading that fails there has
recorded nothing and still stands before the semicolon behind the run.  Whether it fails does not
depend on what follows that semicolon, and with fewer nesting levels left it fails all the more.
-/

namespace ActorFrontend

variable {α β σ : Type} {L : Likeness} {φ ψ χ : Footing} {hand : Hand} {setting setting' : Setting}
  {s s' : State} {semi : Lexeme} {left right : List Lexeme}

/-- Whether the token is no bracket, no semicolon and no string with splices. -/
def TokenKind.isFlat : TokenKind → Bool
  | .symbol s => !s.opens && !s.closes && s != .semicolon
  | .interpolated _ => false
  | _ => true

/-- No token is a bracket, a semicolon or a string with splices. -/
def Flat (ts : List Lexeme) : Prop := ∀ lexeme ∈ ts, lexeme.token.kind.isFlat = true

namespace Flat

variable {lexeme : Lexeme} {ts : List Lexeme}

theorem head (h : Flat (lexeme :: ts)) : lexeme.token.kind.isFlat = true := h _ List.mem_cons_self

theorem tail (h : Flat (lexeme :: ts)) : Flat ts := fun _ hmem => h _ (List.mem_cons_of_mem _ hmem)

end Flat

/-- What is the same up to and including the last token before a cut is the same up to the cut. -/
theorem Lexeme.AlikeUpTo.append {cut : Cut} {symbol : Symbol} {last : Lexeme}
    (hcut : cut.symbol? = some symbol) (hlast : last.token.kind = .symbol symbol) (ts : List Lexeme) :
    Lexeme.AlikeUpTo L cut (ts ++ last :: cut.left) (ts ++ last :: cut.right) :=
  .prepend (.last hcut hlast hlast fun _ => rfl) ts

/-! ## Two runs abreast -/

/-- Two runs stand at the same place in a flat run of tokens, or before the semicolon behind it.  The
first one may not nest any deeper than the second one. -/
structure State.Abreast (semi : Lexeme) (left right : List Lexeme) (setting setting' : Setting)
    (errors : List ParseError) (s s' : State) : Prop where
  rest : ∃ ts, Flat ts ∧ s.rest = ts ++ semi :: left ∧ s'.rest = ts ++ semi :: right
  context : s.context = s'.context
  levels : setting.limits.maxDepth + s'.depth ≤ setting'.limits.maxDepth + s.depth
  errors_left : s.errors = errors

variable {errors : List ParseError}

namespace State.Abreast

theorem before (h : s.Abreast semi left right setting setting' errors s') :
    left.length < s.rest.length := by
  obtain ⟨ts, -, hrest, -⟩ := h.rest
  rw [hrest, List.length_append, List.length_cons]
  omega

theorem alikeUpTo (hsemi : semi.token.kind = .symbol .semicolon)
    (h : s.Abreast semi left right setting setting' errors s') :
    Lexeme.AlikeUpTo L (.semicolon left right) s.rest s'.rest := by
  obtain ⟨ts, -, hrest, hrest'⟩ := h.rest
  rw [hrest, hrest']
  exact .append rfl hsemi ts

/-- The token at hand is the same. -/
theorem kind_eq (h : s.Abreast semi left right setting setting' errors s') : s.kind = s'.kind := by
  obtain ⟨ts, -, hrest, hrest'⟩ := h.rest
  rw [State.kind, State.kind, hrest, hrest']
  cases ts <;> rfl

theorem afterLineBreak_eq (h : s.Abreast semi left right setting setting' errors s') :
    s.afterLineBreak = s'.afterLineBreak := by
  obtain ⟨ts, -, hrest, hrest'⟩ := h.rest
  rw [State.afterLineBreak, State.afterLineBreak, hrest, hrest']
  cases ts <;> rfl

/-- The token at hand is the semicolon, or flat like those before it. -/
theorem kind_flat (hsemi : semi.token.kind = .symbol .semicolon)
    (h : s.Abreast semi left right setting setting' errors s') :
    s.kind = .symbol .semicolon ∨ s.kind.isFlat = true := by
  obtain ⟨ts, hflat, hrest, -⟩ := h.rest
  rw [State.kind, hrest]
  cases ts with
  | nil => exact .inl hsemi
  | cons lexeme ts => exact .inr hflat.head

theorem opens_eq_false (hsemi : semi.token.kind = .symbol .semicolon)
    (h : s.Abreast semi left right setting setting' errors s') : s.kind.opens = false := by
  obtain hkind | hkind := h.kind_flat hsemi
  · rw [hkind]
    rfl
  · unfold TokenKind.isFlat at hkind
    unfold TokenKind.opens
    split <;> simp_all

theorem advance (h : s.Abreast semi left right setting setting' errors s')
    (hkind : s.kind ≠ .symbol .semicolon) (hsemi : semi.token.kind = .symbol .semicolon) :
    s.advance.Abreast semi left right setting setting' errors s'.advance := by
  obtain ⟨ts, hflat, hrest, hrest'⟩ := h.rest
  cases ts with
  | nil =>
    rw [State.kind, hrest] at hkind
    exact absurd hsemi hkind
  | cons lexeme ts =>
    refine ⟨⟨ts, hflat.tail, ?_, ?_⟩, ?_, ?_, ?_⟩
    · rw [State.rest_advance, hrest]
      rfl
    · rw [State.rest_advance, hrest']
      rfl
    · rw [(@State.Kept.advance true s).context, (@State.Kept.advance true s').context]
      exact h.context
    · rw [(@State.Kept.advance true s).depth, (@State.Kept.advance true s').depth]
      exact h.levels
    · rw [s.advance_errors.1]
      exact h.errors_left

end State.Abreast

/-- The first run fails before the semicolon and has recorded nothing, or both runs succeed: abreast
of each other, or with the semicolon behind them. -/
inductive Reply.Abreast (semi : Lexeme) (left right : List Lexeme) (setting setting' : Setting)
    (errors : List ParseError) (χ : Footing) (R : α → α → Prop) : Reply α → Reply α → Prop where
  | failed {e : ParseError} {s : State} {r' : Reply α} (herrors : s.errors = errors)
      (hbefore : left.length < s.rest.length) :
      Abreast semi left right setting setting' errors χ R (.fail e s) r'
  | both {a a' : α} {s s' : State} (ha : R a a')
      (h : s.Abreast semi left right setting setting' errors s' ∨ χ.ended = true) :
      Abreast semi left right setting setting' errors χ R (.ok a s) (.ok a' s')

namespace Reply.Abreast

variable {R : α → α → Prop} {S : β → β → Prop}

theorem weaken {r r' : Reply α} {T : α → α → Prop}
    (h : r.Abreast semi left right setting setting' errors φ R r') (hle : φ ≤ χ)
    (hR : ∀ a a', R a a' → T a a') : r.Abreast semi left right setting setting' errors χ T r' := by
  cases h with
  | failed herrors hbefore => exact .failed herrors hbefore
  | both ha h => exact .both (hR _ _ ha) (h.imp_right hle.1)

theorem fail_of_state {e : ParseError} {r' : Reply α}
    (h : s.Abreast semi left right setting setting' errors s') :
    (Reply.fail e s).Abreast semi left right setting setting' errors χ R r' :=
  .failed h.errors_left h.before

theorem bind {p p' : Parser α} {q q' : α → Parser β}
    (h : (p setting s).Abreast semi left right setting setting' errors ψ R (p' setting' s'))
    (hq : ∀ a a' s s', R a a' →
      s.Abreast semi left right setting setting' errors s' ∨ ψ.ended = true →
      (q a setting s).Abreast semi left right setting setting' errors χ S (q' a' setting' s')) :
    ((p >>= q) setting s).Abreast semi left right setting setting' errors χ S
      ((p' >>= q') setting' s') := by
  change (Parser.bind p q setting s).Abreast _ _ _ _ _ _ _ _ (Parser.bind p' q' setting' s')
  unfold Parser.bind
  generalize p setting s = r at h
  generalize p' setting' s' = r' at h
  cases h with
  | failed herrors hbefore => exact .failed herrors hbefore
  | both ha h => exact hq _ _ _ _ ha h

/-- A change of both states that concerns neither the tokens nor the errors. -/
theorem mapState {r r' : Reply α} {f f' : State → State}
    (h : r.Abreast semi left right setting setting' errors φ R r')
    (hfailed : ∀ s, (f s).errors = s.errors ∧ (f s).rest = s.rest)
    (hboth : ∀ s s', r.state = s → r'.state = s' →
      s.Abreast semi left right setting setting' errors s' ∨ φ.ended = true →
      (f s).Abreast semi left right setting setting' errors (f' s') ∨ χ.ended = true) :
    (r.mapState f).Abreast semi left right setting setting' errors χ R (r'.mapState f') := by
  cases h with
  | @failed _ s _ herrors hbefore =>
    exact .failed ((hfailed s).1.trans herrors) ((hfailed s).2 ▸ hbefore)
  | both ha h => exact .both ha (hboth _ _ rfl rfl h)

end Reply.Abreast

namespace Parser

variable {loud inside : Bool} {R : α → α → Prop} {p p' : Parser α}

/-- Behind a semicolon nothing is looked at, so nothing fails there. -/
theorem Alike.passes (h : Alike L loud inside hand φ χ R p p') (hinside : inside = false)
    (hspans : L.spans = false) (hids : L.ids = false) (hended : φ.ended = true) :
    χ.ended = true ∧ ∀ setting setting' s s', ∃ a t a' t',
      p setting s = .ok a t ∧ p' setting' s' = .ok a' t' ∧ R a a' := by
  have hspan := Likeness.sameSpan_of_not hspans
  induction h with
  | value ha => exact ⟨hended, fun _ _ s s' => ⟨_, s, _, s', rfl, rfl, ha⟩⟩
  | @bind _ _ _ _ _ _ ψ χ _ _ p p' q q' hp hq ihp ihq =>
    obtain ⟨hψ, hpasses⟩ := ihp hinside hended
    have hends : χ.ended = true := by
      obtain ⟨a, _, a', _, -, -, ha⟩ := hpasses ⟨.standard, .empty 0⟩ ⟨.standard, .empty 0⟩
        (.initial ⟨.standard, .empty 0⟩ []) (.initial ⟨.standard, .empty 0⟩ [])
      exact (ihq a a' ha hinside hψ).1
    refine ⟨hends, fun setting setting' s s' => ?_⟩
    obtain ⟨a, t, a', t', hreply, hreply', ha⟩ := hpasses setting setting' s s'
    rw [bind_ok hreply, bind_ok hreply']
    exact (ihq a a' ha hinside hψ).2 setting setting' t t'
  | @weaken _ _ _ inside _ _ _ _ _ _ _ _ _ _ _ _ _ hle _ hφ hχ hR ih =>
    have hinner : inside = false := by
      cases inside with
      | false => rfl
      | true => exact absurd (hinside.symm.trans (hle rfl)) Bool.false_ne_true
    obtain ⟨hends, hpasses⟩ := ih hinner (hφ.1 hended)
    refine ⟨hχ.1 hends, fun setting setting' s s' => ?_⟩
    obtain ⟨a, t, a', t', hreply, hreply', ha⟩ := hpasses setting setting' s s'
    exact ⟨a, t, a', t', hreply, hreply', hR _ _ ha⟩
  | unblock _ _ ih => exact ih hinside hended
  | place f _ _ ih =>
    have hplaced (span span' : Span) : (L : Comparison).Placed span span' :=
      Comparison.placed_of_not rfl (hspan span span')
    have hends := (ih (.empty 0) (.empty 0) (hplaced _ _) hinside hended).1
    exact ⟨hends, fun setting setting' s s' => (ih _ _ (hplaced _ _) hinside hended).2 _ _ s s'⟩
  | spanSince =>
    exact ⟨hended, fun _ _ s s' => ⟨_, s, _, s', rfl, rfl, hspan _ _,
      fun _ _ _ => Comparison.placed_of_not rfl (hspan _ _)⟩⟩
  | freshId =>
    refine ⟨hended, fun _ _ s s' => ⟨_, _, _, _, rfl, rfl, ?_⟩⟩
    exact Likeness.sameId_of_not hids _ _
  | inContext f hf _ ih =>
    obtain ⟨hends, hpasses⟩ := ih hinside hended
    refine ⟨hf.ended_eq ▸ hends, fun setting setting' s s' => ?_⟩
    obtain ⟨a, t, a', t', hreply, hreply', ha⟩ :=
      hpasses setting setting' { s with context := f s.context } { s' with context := f s'.context }
    unfold Parser.inContext withContext
    rw [hreply, hreply']
    exact ⟨a, _, a', _, rfl, rfl, ha⟩
  | settle => cases hinside
  | separator => cases hinside
  | duplicate => cases hinside
  | resilient => cases hinside
  | parts => cases hinside
  | splice => cases hinside
  | text _ _ _ hfalse => exact absurd (hfalse.symm.trans hended) Bool.false_ne_true
  | kind hfalse => exact absurd (hfalse.symm.trans hended) Bool.false_ne_true
  | look _ hfalse => exact absurd (hfalse.symm.trans hended) Bool.false_ne_true
  | advance _ hfalse => exact absurd (hfalse.symm.trans hended) Bool.false_ne_true
  | enter _ hfalse => exact absurd (hfalse.symm.trans hended) Bool.false_ne_true
  | fails hfalse => exact absurd (hfalse.symm.trans hended) Bool.false_ne_true
  | refused _ hfalse => exact absurd (hfalse.symm.trans hended) Bool.false_ne_true
  | semicolon hfalse => exact absurd (hfalse.symm.trans hended) Bool.false_ne_true
  | nested hfalse => exact absurd (hfalse.symm.trans hended) Bool.false_ne_true
  | loop hfalse => exact absurd (hfalse.symm.trans hended) Bool.false_ne_true
  | guess _ hfalse => exact absurd (hfalse.symm.trans hended) Bool.false_ne_true
  | interpolated _ hfalse => exact absurd (hfalse.symm.trans hended) Bool.false_ne_true
  | unit hfalse => exact absurd (hfalse.symm.trans hended) Bool.false_ne_true

/-- Readings that go alike go on abreast until the first one fails. -/
theorem Alike.abreast (h : Alike L loud inside hand φ χ R p p') (hinside : inside = false)
    (hspans : L.spans = false) (hids : L.ids = false) (hsemi : semi.token.kind = .symbol .semicolon)
    (hs : s.Abreast semi left right setting setting' errors s') (hhand : hand.Holds s.kind s'.kind) :
    (p setting s).Abreast semi left right setting setting' errors χ R (p' setting' s') := by
  have hspan := Likeness.sameSpan_of_not hspans
  induction h generalizing setting setting' s s' with
  | value ha => exact .both ha (.inl hs)
  | bind _ hq ihp ihq =>
    refine (ihp hinside hs hhand).bind fun a a' s s' ha hs => ?_
    obtain hs | hended := hs
    · exact ihq a a' ha hinside hs (Hand.holds_none _ _)
    · obtain ⟨hends, hpasses⟩ := (hq a a' ha).passes hinside hspans hids hended
      obtain ⟨b, t, b', t', hreply, hreply', hb⟩ := hpasses setting setting' s s'
      rw [hreply, hreply']
      exact .both hb (.inr hends)
  | @weaken _ _ _ inside _ _ _ _ _ _ _ _ _ _ _ _ _ hle hhand' hφ hχ hR ih =>
    have hinner : inside = false := by
      cases inside with
      | false => rfl
      | true => exact absurd (hinside.symm.trans (hle rfl)) Bool.false_ne_true
    refine (ih hinner hs ?_).weaken hχ hR
    obtain rfl | rfl := hhand'
    · exact Hand.holds_none _ _
    · exact hhand
  | settle => cases hinside
  | separator => cases hinside
  | unblock _ _ ih => exact ih hinside hs hhand
  | place f _ _ ih => exact ih _ _ (Comparison.placed_of_not rfl (hspan _ _)) hinside hs hhand
  | spanSince =>
    exact .both ⟨hspan _ _, fun _ _ _ => Comparison.placed_of_not rfl (hspan _ _)⟩ (.inl hs)
  | freshId =>
    refine .both ?_ (.inl ⟨hs.rest, hs.context, hs.levels, hs.errors_left⟩)
    exact Likeness.sameId_of_not hids _ _
  | text hk hsymbol hstring _ _ _ ih =>
    obtain ⟨rfl, rfl⟩ := hhand _ _ rfl
    rw [query_bind, query_bind, ← State.text_eq (hs.alikeUpTo (L := L) hsemi) hk hsymbol hstring]
    exact ih s.text hinside hs hhand
  | kind _ _ _ _ _ _ ih =>
    rw [kind_bind, kind_bind]
    exact ih _ _ (.inl (hs.alikeUpTo hsemi).kind_alike) hinside hs (Hand.holds_some _ _)
  | look known _ hstable _ _ _ _ _ _ _ _ ih =>
    have halike : Lexeme.AlikeUpTo L (.semicolon left right) s.rest s'.rest := hs.alikeUpTo hsemi
    have hknown : ∀ k ∈ known, s.kind = k := by
      rintro k hk
      obtain rfl : known = some k := hk
      exact (hhand _ _ rfl).1
    rw [query_bind, query_bind]
    obtain heq | ⟨-, hclosed, -⟩ := hstable _ s s' halike hs.context hknown
    · rw [← heq]
      refine ih s s' (.inl halike.kind_alike) heq hinside hs ?_
      cases known with
      | none => exact Hand.holds_some _ _
      | some k => exact hhand
    · exact absurd (hinside.symm.trans (hclosed rfl)) Bool.false_ne_true
  | advance =>
    obtain ⟨rfl, -⟩ := hhand _ _ rfl
    by_cases hkind : s.kind = .symbol .semicolon
    · exact .both trivial (.inr (by rw [hkind]; rfl))
    · exact .both trivial (.inl (hs.advance hkind hsemi))
  | enter hk =>
    obtain ⟨rfl, -⟩ := hhand _ _ rfl
    exact absurd ((hs.opens_eq_false hsemi).symm.trans hk) Bool.false_ne_true
  | fails => exact .fail_of_state hs
  | refused => exact .fail_of_state hs
  | semicolon =>
    unfold Parser.semicolon
    rw [← hs.kind_eq, ← hs.afterLineBreak_eq, ← (hs.alikeUpTo (L := L) hsemi).atEnd_eq]
    split
    · exact .both trivial (.inr rfl)
    · split
      · exact .both trivial (.inr rfl)
      · exact .fail_of_state hs
  | duplicate => cases hinside
  | @inContext _ _ _ _ _ χ₀ _ R p p' f hf _ ih =>
    have hinner : (p setting { s with context := f s.context }).Abreast semi left right setting setting'
        errors χ₀ R (p' setting' { s' with context := f s'.context }) :=
      ih hinside ⟨hs.rest, congrArg f hs.context, hs.levels, hs.errors_left⟩ hhand
    refine hinner.mapState (fun _ => ⟨rfl, rfl⟩) fun after after' _ _ h => ?_
    exact h.imp (fun h => ⟨h.rest, hs.context, h.levels, h.errors_left⟩) fun h => hf.ended_eq ▸ h
  | @nested _ _ _ _ _ χ R p p' _ h ih =>
    unfold Parser.nested
    split
    case isTrue => exact .fail_of_state hs
    case isFalse hlevel =>
      have hlevels := hs.levels
      rw [if_neg (show ¬ setting'.limits.maxDepth ≤ s'.depth by omega)]
      have hinner : (p setting { s with depth := s.depth + 1 }).Abreast semi left right setting setting'
          errors χ R (p' setting' { s' with depth := s'.depth + 1 }) :=
        ih hinside ⟨hs.rest, hs.context, by simp only; omega, hs.errors_left⟩ hhand
      have hkept := h.keepAlike.left setting { s with depth := s.depth + 1 }
      have hkept' := h.keepAlike.right rfl setting' { s' with depth := s'.depth + 1 }
      refine hinner.mapState (fun _ => ⟨rfl, rfl⟩) fun after after' hafter hafter' h => ?_
      rw [hafter] at hkept
      rw [hafter'] at hkept'
      have hdepth : after.depth = s.depth + 1 := hkept.depth
      have hdepth' : after'.depth = s'.depth + 1 := hkept'.depth
      exact h.imp_left fun h => ⟨h.rest, h.context, by simp only; omega, h.errors_left⟩
  | @loop _ _ _ _ φ R step step' a a' hended hprogresses hprogresses' _ ha ih =>
    have hrun (n : Nat) : ∀ {a a' s s'}, s.rest.length < n → R a a' →
        s.Abreast semi left right setting setting' errors s' →
        (Parser.loop step a setting s).Abreast semi left right setting setting' errors φ R
          (Parser.loop step' a' setting' s') := by
      induction n with
      | zero => exact fun hlt => absurd hlt (Nat.not_lt_zero _)
      | succ n ihn =>
        intro a a' s s' hlt ha hs
        have hturn := ih a a' ha hinside hs (Hand.holds_none _ _)
        rw [loop_eq hprogresses, loop_eq hprogresses']
        cases hreply : step a setting s with
        | fail e after =>
          rw [hreply] at hturn
          cases hturn with
          | failed herrors hbefore => exact .failed herrors hbefore
        | ok r after =>
          obtain ⟨again, b⟩ := r
          rw [hreply] at hturn
          generalize step' a' setting' s' = r' at hturn
          cases hturn with
          | @both _ r' _ after' hr hafter =>
            obtain ⟨again', b'⟩ := r'
            obtain ⟨hagain, hb⟩ := hr
            obtain rfl : again = again' := hagain
            obtain hafter | hfalse := hafter
            · cases again with
              | false => exact .both hb (.inl hafter)
              | true =>
                have hlt' := hprogresses _ _ _ _ _ hreply
                exact ihn (by omega) hb hafter
            · exact absurd (hended.symm.trans hfalse) Bool.false_ne_true
    exact hrun _ (Nat.lt_succ_self _) ha hs
  | resilient => cases hinside
  | parts => cases hinside
  | guess hk =>
    obtain ⟨rfl, -⟩ := hhand _ _ rfl
    exact absurd ((hs.opens_eq_false hsemi).symm.trans hk) Bool.false_ne_true
  | splice => cases hinside
  | interpolated hmended => exact absurd rfl hmended
  | unit _ _ _ ihsome ihnone =>
    rw [advance_bind, advance_bind, bind_ok (durationUnit?_eq ..), bind_ok (durationUnit?_eq ..)]
    have hkind := (hhand _ _ rfl).1
    have hnext := hs.advance (by simp [hkind]) hsemi
    rw [← State.attachedUnit?_eq (hs.alikeUpTo (L := L) hsemi) hkind]
    cases hunit : s.advance.attachedUnit? with
    | none => exact ihnone hinside hnext (Hand.holds_none _ _)
    | some unit =>
      obtain ⟨suffix, hsuffix⟩ := State.kind_of_attachedUnit? hunit
      refine ihsome unit suffix hinside hnext ?_
      rw [← hnext.kind_eq, hsuffix]
      exact Hand.holds_some _ _

/-- Where the second run fails on a flat run of tokens, the first one fails before the semicolon and has
recorded nothing. -/
theorem Alike.fails_left (h : Alike L loud false none φ χ R p p') (hspans : L.spans = false)
    (hids : L.ids = false) (hsemi : semi.token.kind = .symbol .semicolon)
    (hs : s.Abreast semi left right setting setting' errors s') {e' : ParseError} {after' : State}
    (hreply' : p' setting' s' = .fail e' after') :
    ∃ e after, p setting s = .fail e after ∧ after.errors = errors ∧
      left.length < after.rest.length := by
  have hrun := h.abreast rfl hspans hids hsemi hs (Hand.holds_none _ _)
  rw [hreply'] at hrun
  generalize p setting s = r at hrun
  cases hrun with
  | failed herrors hbefore => exact ⟨_, _, rfl, herrors, hbefore⟩

end Parser

end ActorFrontend
