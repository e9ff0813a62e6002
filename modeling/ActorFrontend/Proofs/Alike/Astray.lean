import ActorFrontend.Proofs.Alike.Kept

/-!
# Runs that have gone astray

The first one of two runs that are compared goes astray if it records an error, stands before an arrow
that nothing can take, or has looked at what follows the cut.  Such a run does not come back.
-/

namespace ActorFrontend

variable {α : Type} {L : Likeness} {cut : Cut} {φ ψ χ : Footing} {hand : Hand} {setting : Setting}
  {s t : State}

namespace State

/-- An error has been recorded, or nothing more would be. -/
def Noted (s : State) : Prop := s.errors ≠ [] ∨ s.halted = true

/-- Without an error or an arrow that nothing can take, the first run would still be before the
cut. -/
inductive Astray (cut : Cut) (φ : Footing) (s : State) : Prop where
  | noted (h : s.Noted)
  | stuck (hblocked : φ.blocked = true) (harrow : s.kind.isArrow = true)
      (hlambdas : s.context.lambdas = true)
  | beyond (h : s.rest.length < cut.left.length)
  /-- Directly behind the cut, where something may have been looked at. -/
  | behind (hcut : cut.symbol? ≠ none) (hrest : s.rest = cut.left)
      (hstale : cut.symbol? = some .semicolon → φ.stale = true)
      (hlooked : cut.symbol? = some .rightBrace → φ.looked = true)

theorem Noted.kept {loud : Bool} (h : s.Noted) (hkept : s.Kept loud t) : t.Noted := by
  obtain herrors | hhalted := h
  · exact .inl fun hnil => herrors (hkept.errors_eq_nil hnil)
  · exact .inr (hkept.stays_halted hhalted)

theorem noted_record (setting : Setting) (error : ParseError) (s : State) :
    (s.record setting error).Noted := by
  unfold State.record
  split
  case isTrue hhalted => exact .inr hhalted
  case isFalse => exact .inl (by simp)

namespace Astray

theorem le (h : s.Astray cut φ) (hle : φ ≤ ψ) : s.Astray cut ψ := by
  cases h with
  | noted h => exact .noted h
  | stuck hblocked harrow hlambdas => exact .stuck (hle.2.2.2 hblocked) harrow hlambdas
  | beyond h => exact .beyond h
  | behind hcut hrest hstale hlooked =>
    exact .behind hcut hrest (fun h => hle.2.2.1 (hstale h)) fun h => hle.2.1 (hlooked h)

theorem settle (h : s.Astray cut φ) : s.Astray cut φ.settle := by
  cases h with
  | noted h => exact .noted h
  | stuck hblocked harrow hlambdas => exact .stuck hblocked harrow hlambdas
  | beyond h => exact .beyond h
  | behind hcut hrest hstale _ =>
    exact .behind hcut hrest (fun h => by simp [Footing.settle, hstale h]) fun _ => rfl

theorem unblock (h : s.Astray cut φ) (hkind : s.kind.isArrow = false) :
    s.Astray cut φ.unblock := by
  cases h with
  | noted h => exact .noted h
  | stuck _ harrow _ => exact absurd (hkind.symm.trans harrow) Bool.false_ne_true
  | beyond h => exact .beyond h
  | behind hcut hrest hstale hlooked => exact .behind hcut hrest hstale hlooked

/-- The same tokens are left, where lambdas are possible if they were. -/
theorem congr (h : s.Astray cut φ) (hnoted : s.Noted → t.Noted) (hrest : t.rest = s.rest)
    (hlambdas : φ.blocked = true → s.context.lambdas = true → ψ.blocked = true ∧
      t.context.lambdas = true)
    (hstale : φ.stale = true → ψ.stale = true) (hlooked : φ.looked = true → ψ.looked = true) :
    t.Astray cut ψ := by
  cases h with
  | noted h => exact .noted (hnoted h)
  | stuck hblocked harrow h =>
    obtain ⟨hblocked, h⟩ := hlambdas hblocked h
    exact .stuck hblocked (by unfold State.kind at harrow ⊢; rwa [hrest]) h
  | beyond h => exact .beyond (hrest ▸ h)
  | behind hcut heq hsemicolon hbrace =>
    exact .behind hcut (hrest.trans heq) (hstale ∘ hsemicolon) (hlooked ∘ hbrace)

/-- A token that is read. -/
theorem advance (h : s.Astray cut φ) (hkind : s.kind ≠ .endOfFile)
    (harrow : s.kind.isArrow = true → φ.blocked = false) : s.advance.Astray cut ψ := by
  have hlt := s.rest_advance_lt hkind
  cases h with
  | noted h => exact .noted (h.kept (@State.Kept.advance true s))
  | stuck hblocked h _ => exact absurd ((harrow h).symm.trans hblocked) Bool.false_ne_true
  | beyond h => exact .beyond (Nat.lt_trans hlt h)
  | behind _ hrest => exact .beyond (hrest ▸ hlt)

/-- No run goes astray that reads everything and records nothing. -/
theorem of_done (hend : s.rest = []) (hquiet : ¬ s.Noted) : ¬ s.Astray .none φ := by
  intro h
  cases h with
  | noted h => exact hquiet h
  | stuck _ harrow =>
    -- no token is left
    rw [State.kind, hend] at harrow
    cases harrow
  | beyond h => exact Nat.not_lt_zero _ h
  | behind hcut => exact hcut rfl

end Astray

end State

namespace Reply.Ends

/-- What a parser answers with, it may answer with. -/
theorem answers {p : Parser α} {onOk : α → State → Prop} {onFail : State → Prop}
    (h : (p setting s).Ends onOk onFail) :
    (p setting s).Ends (fun a s' => p.Answers a ∧ onOk a s') onFail := by
  cases hreply : p setting s with
  | ok a s' =>
    rw [hreply] at h
    exact ⟨⟨setting, s, s', hreply⟩, h⟩
  | fail e s' =>
    rw [hreply] at h
    exact h

end Reply.Ends

/-- The reading fails, or it does not come back to where it went astray. -/
def Reply.Astray (cut : Cut) (χ : Footing) (r : Reply α) : Prop :=
  r.Ends (fun _ s => s.Astray cut χ) fun _ => True

namespace Parser

/-! ## Contexts -/

namespace ContextRule

variable {f : Context → Context} {φ χ₀ χ : Footing}

theorem lambdas_enter (h : ContextRule f φ χ₀ χ) {c : Context} (hφ : φ.blocked = true)
    (hc : c.lambdas = true) : (f c).lambdas = true := by
  cases h with
  | keep h => rw [h, hc]
  | enclose h => exact h c
  | bar _ hfalse _ => exact absurd (hfalse.symm.trans hφ) Bool.false_ne_true

theorem lambdas_leave (h : ContextRule f φ χ₀ χ) {c : Context} (hχ : χ₀.blocked = true)
    (hc : (f c).lambdas = true) : χ.blocked = true ∧ c.lambdas = true := by
  cases h with
  | keep h => exact ⟨hχ, (h c).symm.trans hc⟩
  | enclose _ hfalse _ => exact absurd (hfalse.symm.trans hχ) Bool.false_ne_true
  | bar h => exact absurd ((h c).symm.trans hc) Bool.false_ne_true

theorem ended_eq (h : ContextRule f φ χ₀ χ) : χ₀.ended = χ.ended := by cases h <;> rfl

theorem stale_eq (h : ContextRule f φ χ₀ χ) : χ₀.stale = χ.stale := by cases h <;> rfl

theorem looked_eq (h : ContextRule f φ χ₀ χ) : χ₀.looked = χ.looked := by cases h <;> rfl

theorem astray_leave (h : ContextRule f φ χ₀ χ) {c : Context} {after : State}
    (hafter : after.Astray cut χ₀) (hcontext : after.context = f c) :
    { after with context := c }.Astray cut χ :=
  hafter.congr id rfl (fun hχ hlambdas => h.lambdas_leave hχ (hcontext ▸ hlambdas))
    (h.stale_eq ▸ id) (h.looked_eq ▸ id)

end ContextRule

end Parser

/-! ## A run that has gone astray -/

/-- What is known of the token at hand in the first run is true. -/
def Hand.Knows (hand : Hand) (kind : TokenKind) : Prop := ∀ k k', hand = some (k, k') → kind = k

theorem Hand.knows_none (kind : TokenKind) : Hand.Knows none kind := nofun

theorem Hand.knows_some (k k' : TokenKind) : Hand.Knows (some (k, k')) k := by
  rintro _ _ ⟨⟩
  rfl

namespace Parser

variable {loud inside : Bool} {R : α → α → Prop} {p p' : Parser α}

theorem isArrow_of_opens {k : TokenKind} (hk : k.opens = true) : k.isArrow = false := by
  cases k with
  | symbol symbol => cases symbol <;> first | rfl | cases hk
  | _ => rfl

theorem ne_endOfFile_of_opens {k : TokenKind} (hk : k.opens = true) : k ≠ .endOfFile := by
  rintro rfl
  cases hk

/-- A run that has gone astray stays astray as long as it does not fail. -/
theorem Alike.astray (h : Alike L loud inside hand φ χ R p p')
    (hhand : hand.Knows s.kind) (hs : s.Astray cut φ) :
    (p setting s).Astray cut χ := by
  induction h generalizing setting s with
  | value => exact hs
  | bind hp hq ihp ihq =>
    refine (ihp hhand hs).answers.bind fun a s ⟨ha, hs⟩ => ?_
    obtain ⟨a', h⟩ := hp.keepAlike.answer a ha
    exact ihq a a' h (Hand.knows_none _) hs
  | @weaken _ _ _ _ _ hand₀ hand _ _ _ _ _ _ _ _ _ _ _ hhand' hφ hχ _ ih =>
    have hhand : hand₀.Knows s.kind := by
      obtain rfl | rfl := hhand'
      · exact Hand.knows_none _
      · exact hhand
    exact (ih hhand (hs.le hφ)).imp (fun _ _ h => h.le hχ) fun _ h => h
  | settle _ _ ih => exact ih hhand hs.settle
  | separator hmended => exact absurd rfl hmended
  | unblock hk _ ih => exact ih hhand (hs.unblock (hhand _ _ rfl ▸ hk))
  | place f _ _ ih =>
    exact ih (s.span setting) (s.span setting) (Comparison.placed_of_not rfl rfl) hhand hs
  | spanSince => exact hs
  | freshId => exact hs.congr id rfl (fun hblocked h => ⟨hblocked, h⟩) id id
  | text _ _ _ _ _ _ ih => exact ih _ hhand hs
  | kind _ _ _ _ _ _ ih =>
    exact ih s.kind s.kind (.same _) (Hand.knows_some _ _) (hs.le (Footing.le_look _))
  | look known _ _ _ _ _ _ _ _ _ _ ih =>
    refine ih s s (.same _) rfl ?_ (hs.le (Footing.le_look _))
    cases known with
    | none => exact Hand.knows_some _ _
    | some k => exact hhand
  | advance hk _ harrow =>
    have hkind := hhand _ _ rfl
    exact hs.advance (hkind ▸ hk) (hkind ▸ harrow)
  | enter hk _ _ ih =>
    have hkind := hhand _ _ rfl
    refine ih (Hand.knows_none _) (hs.advance (hkind ▸ ne_endOfFile_of_opens hk) fun harrow => ?_)
    rw [hkind, isArrow_of_opens hk] at harrow
    cases harrow
  | fails => trivial
  | refused => trivial
  | semicolon _ hstale =>
    unfold Parser.semicolon
    split
    case isTrue hkind =>
      have hkind := TokenKind.eq_of_isSymbol hkind
      exact hs.advance (by simp [hkind]) (by simp [hkind, TokenKind.isArrow])
    case isFalse =>
      split
      · exact .noted (State.noted_record ..)
      · trivial
  | duplicate => exact .noted (State.noted_record ..)
  | @inContext _ _ _ _ _ χ₀ _ _ p _ f hf h ih =>
    have hinner : (p setting { s with context := f s.context }).Astray cut χ₀ :=
      ih hhand (hs.congr id rfl (fun hφ hlambdas => ⟨hφ, hf.lambdas_enter hφ hlambdas⟩) id id)
    have hkept := h.keepAlike.left setting { s with context := f s.context }
    unfold Parser.inContext withContext
    cases hreply : p setting { s with context := f s.context } with
    | ok a after =>
      rw [hreply] at hinner hkept
      exact hf.astray_leave hinner hkept.context
    | fail e after => trivial
  | @nested _ _ _ _ _ χ _ p _ _ h ih =>
    unfold Parser.nested
    split
    · trivial
    · have hinner : (p setting { s with depth := s.depth + 1 }).Astray cut χ :=
        ih hhand (hs.congr id rfl (fun hblocked h => ⟨hblocked, h⟩) id id)
      cases hreply : p setting { s with depth := s.depth + 1 } with
      | ok a after =>
        rw [hreply] at hinner
        exact hinner.congr id rfl (fun hblocked h => ⟨hblocked, h⟩) id id
      | fail e after => trivial
  | @loop _ _ _ _ φ R step step' a a' _ _ _ hstep ha ih =>
    have hloop : (Parser.loop step a setting s).Ends
        (fun a s => (∃ a', R a a') ∧ s.Astray cut φ) fun _ => True := by
      refine ends_loop _ (fun a s ⟨⟨a', ha⟩, hs⟩ => ?_) ⟨⟨a', ha⟩, hs⟩
      refine (ih a a' ha (Hand.knows_none _) hs).answers.imp (fun r s ⟨hr, hs⟩ => ?_) fun _ h => h
      obtain ⟨r', -, hr⟩ := (hstep a a' ha).keepAlike.answer r hr
      exact ⟨⟨r'.2, hr⟩, hs⟩
    exact hloop.imp (fun _ _ h => h.2) fun _ h => h
  | @resilient _ _ _ χ _ part _ a _ recovery _ _ _ ih =>
    cases hhalted : s.halted with
    | true =>
      unfold Parser.resilient
      rw [hhalted]
      exact .noted (State.Noted.kept (.inr hhalted) (@State.Kept.skip true ..))
    | false =>
      have hpart : (part a setting s).Astray cut χ := ih hhand hs
      rw [Reply.Astray, Keeps.resilient_eq hhalted]
      generalize part a setting s = r at hpart
      cases r with
      | ok a after => exact hpart
      | fail e after => exact .noted ((State.noted_record ..).kept (@Keeps.kept_recover true ..))
  | parts _ _ hmended => exact absurd rfl hmended
  | @guess _ _ _ _ _ _ ψ _ _ _ p _ _ _ _ _ _ _ _ hp hq hr _ _ _ _ ihp ihq ihr =>
    unfold Parser.guess
    rw [query_bind]
    split
    · have htrial : (p setting s).Astray cut ψ := ihp hhand hs
      cases hreply : p setting s with
      | ok a after =>
        rw [hreply] at htrial
        obtain ⟨a', h⟩ := hp.keepAlike.answer a ⟨setting, s, after, hreply⟩
        rw [bind_ok (Keeps.attempt_of_ok hreply)]
        exact ihq a a' h (Hand.knows_none _) htrial
      | fail e after =>
        rw [bind_ok (Keeps.attempt_of_fail hp.keepAlike.left hreply)]
        exact ihr hhand hs
    · exact ihr hhand hs
  | splice =>
    rw [splice_eq]
    split
    case h_1 e inner _ =>
      have hkept := State.Kept.leaveSplice setting s inner
      exact hs.congr (·.kept hkept) (State.rest_leaveSplice ..)
        (fun hblocked h => ⟨hblocked, hkept.context ▸ h⟩) id id
    case h_2 => trivial
  | interpolated hmended => exact absurd rfl hmended
  | unit _ _ _ ihsome ihnone =>
    have hkind := hhand _ _ rfl
    have hadvance (ψ : Footing) : s.advance.Astray cut ψ :=
      hs.advance (by simp [hkind]) (by simp [hkind, TokenKind.isArrow])
    rw [advance_bind, bind_ok (durationUnit?_eq ..)]
    cases hunit : s.advance.attachedUnit? with
    | none => exact ihnone (Hand.knows_none _) (hadvance _)
    | some unit =>
      obtain ⟨suffix, hkind⟩ := State.kind_of_attachedUnit? hunit
      refine ihsome unit suffix ?_ (hadvance _)
      rintro _ _ ⟨⟩
      exact hkind

end Parser

end ActorFrontend
