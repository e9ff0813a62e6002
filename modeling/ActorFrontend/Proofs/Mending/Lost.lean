import ActorFrontend.Proofs.Mending.Strays

/-!
# Nothing is mended behind

A reading that starts where nothing is mended at a place any more mends nothing there.
-/

namespace ActorFrontend

open ActorFrontend.Parser

variable {α σ : Type} {p : Nat} {setting : Setting} {φ ψ χ : Footing} {s after inner : State}
  {parts : Parts}

/-! ## Answers -/

/-- What a parser answers with, it may answer with. -/
theorem Reply.EndsWith.answers {q : Parser α} {onOk : α → State → Prop}
    {onFail : ParseError → State → Prop} (h : (q setting s).EndsWith onOk onFail) :
    (q setting s).EndsWith (fun a s' => q.Answers a ∧ onOk a s') onFail := by
  cases hreply : q setting s with
  | ok a s' =>
    rw [hreply] at h
    exact ⟨⟨setting, s, s', hreply⟩, h⟩
  | fail e s' =>
    rw [hreply] at h
    exact h

/-- What every turn of a repetition keeps, up to its last one. -/
theorem Parser.endsWith_loop_of_progresses {step : σ → Parser (Bool × σ)}
    (hprogresses : Progresses step) (holds done : σ → State → Prop)
    {onFail : ParseError → State → Prop}
    (hstep : ∀ a s, holds a s → (step a setting s).EndsWith
      (fun r s' => if r.1 = true then holds r.2 s' else done r.2 s') onFail)
    {a : σ} (h : holds a s) : (loop step a setting s).EndsWith done onFail := by
  induction hn : s.rest.length using Nat.strongRecOn generalizing a s with
  | ind n ih =>
    have hturn := hstep a s h
    rw [loop_eq hprogresses]
    cases hreply : step a setting s with
    | fail e s' =>
      rw [hreply] at hturn
      exact hturn
    | ok r s' =>
      obtain ⟨again, b⟩ := r
      rw [hreply] at hturn
      cases again with
      | false => exact hturn
      | true =>
        have hlt := hprogresses _ _ _ _ _ hreply
        exact ih _ (hn ▸ hlt) hturn rfl

/-- Behind such an answer nothing is mended at `p`. -/
def Reply.Strays (p : Nat) (setting : Setting) (χ : Footing) (r : Reply α) : Prop :=
  r.EndsWith (fun _ s => s.Strays p setting χ)
    fun e s => s.Fades p setting .statements ∧ (s.halted = false → e.cause.stops = true)

namespace Reply.Strays

theorem mono {r : Reply α} (h : r.Strays p setting φ) (hφ : φ ≤ χ) : r.Strays p setting χ :=
  h.imp (fun _ _ h => h.mono hφ) fun _ _ h => h

theorem failed {e : ParseError} (h : s.Strays p setting φ) (he : e.cause.stops = true) :
    (Reply.fail e s : Reply α).Strays p setting χ :=
  ⟨h.fades, fun _ => he⟩

theorem semicolon (h : s.Strays p setting φ) (hended : φ.ended = false) (hstale : φ.stale = false) :
    (Parser.semicolon setting s).Strays p setting .closed := by
  unfold Parser.semicolon
  split
  case isTrue hkind =>
    have hkind := TokenKind.eq_of_isSymbol hkind
    exact h.advance (by simp [hkind]) hended (by simp [hkind, TokenKind.isArrow])
  case isFalse =>
    split
    · have hrecord : (s.record setting ⟨.missingSemicolon s.kind, .empty s.previousEnd⟩).Strays p
          setting φ := by
        cases h with
        | spent h =>
          rw [State.record, if_pos h.halted]
          exact .spent h
        | lost hrunning herrors hrest hend =>
          refine (State.Strays.lost hrunning herrors hrest hend).record fun _ h => ?_
          obtain ⟨_, hplace⟩ := h
          obtain hend | hend | hend := hend
          · exact absurd (hended.symm.trans hend) Bool.false_ne_true
          · exact absurd (hstale.symm.trans hend) Bool.false_ne_true
          · exact hend hplace
        | stuck hrunning herrors hφ hkind hlambdas hend hhead =>
          refine (State.Strays.stuck hrunning herrors hφ hkind hlambdas hend hhead).record ?_
          exact fun _ h => hend h.2
      -- nothing is read behind a semicolon before the next part
      exact hrecord.congr rfl rfl rfl rfl (fun _ _ _ hlambdas => ⟨.inl rfl, hlambdas⟩) fun _ => .inl rfl
    · exact failed h rfl

/-- The context from before is back. -/
theorem leave {f : Context → Context} {r : Reply α} {c : Context} (h : r.Strays p setting ψ)
    (hf : ContextRule f φ ψ χ) (hcontext : r.state.context = f c) :
    (r.mapState fun after => { after with context := c }).Strays p setting χ := by
  cases r with
  | fail e after => exact ⟨h.1.congr rfl rfl rfl, h.2⟩
  | ok a after =>
    refine State.Strays.congr h rfl rfl rfl rfl (fun _ hψ _ hlambdas => ?_) ?_
    · rw [show after.context = f c from hcontext] at hlambdas
      cases hf with
      | keep h => exact ⟨hψ, (h _).symm.trans hlambdas⟩
      | enclose _ hblocked hended => simp [hblocked, hended] at hψ
      | bar h => exact absurd ((h _).symm.trans hlambdas) Bool.false_ne_true
    · cases hf <;> exact id

/-- The nesting depth from before is back. -/
theorem rise {r : Reply α} (h : r.Strays p setting χ) :
    (r.mapState fun after => { after with depth := after.depth - 1 }).Strays p setting χ := by
  cases r with
  | fail e after => exact ⟨h.1.congr rfl rfl rfl, h.2⟩
  | ok a after =>
    exact State.Strays.congr h rfl rfl rfl rfl (fun _ hχ _ hlambdas => ⟨hχ, hlambdas⟩) id

end Reply.Strays

/-! ## Recovery -/

namespace State

/-- A recovery leads to a state between parts. -/
theorem Fades.recover {e : ParseError} (h : after.Fades p setting parts)
    (he : after.halted = false → e.cause.stops = true) :
    (s.recover parts.recovery setting e after).Wanders p setting parts := by
  have hnoted := h.record fun hrunning => ParseError.not_mendsAt (he hrunning)
  unfold State.recover
  generalize after.record setting e = noted at hnoted
  obtain hover | ⟨hrunning, herrors, hrest⟩ := hnoted.over_or_running
  · simp only [hover.halted, if_true]
    exact .strays (.spent (hover.kept (@Kept.skip true _ _)))
  simp only [hrunning, Bool.false_eq_true, if_false]
  have hresumed : noted.Kept false (noted.skip (parts.recovery.resume noted.rest)) := .skip _ noted
  have hdrop := noted.rest_skip (parts.recovery.resume noted.rest)
  generalize noted.skip (parts.recovery.resume noted.rest) = resumed at *
  have hnext : noted.Kept false resumed.advance := hresumed.trans (.advance resumed)
  have hhalted {t : State} (ht : noted.Kept false t) : t.halted = false :=
    (ht.unspent (ht.silent rfl)).trans hrunning
  have hnoMend {t : State} (ht : noted.Kept false t) : NoMend p t.errors := ht.silent rfl ▸ herrors
  have hlost {t : State} (ht : noted.Kept false t) (hrest : Avoiding p t.rest) :
      t.Wanders p setting parts :=
    .strays (.lost (hhalted ht) (hnoMend ht) hrest (.inr (.inl rfl)))
  obtain havoid | hhead := hrest
  · split
    · exact hlost hnext (havoid.suffix hnext.rest)
    · exact hlost hresumed (havoid.suffix hresumed.rest)
  obtain havoid | ⟨hhead, hmistaken, hfn⟩ := hhead.resume
  · rw [← hdrop] at havoid
    split
    · exact hlost hnext (havoid.suffix resumed.rest_advance_suffix)
    · exact hlost hresumed havoid
  rw [← hdrop] at hhead hmistaken hfn
  split
  · -- the part has read nothing: its first token is passed over
    have hadvance := resumed.rest_advance
    cases hts : resumed.rest with
    | nil =>
      rw [hts] at hhead
      obtain ⟨_, _, _, _, hlt, _⟩ := hhead
      exact absurd hlt (Nat.not_lt_zero _)
    | cons lexeme ts =>
      rw [hts] at hhead hmistaken hfn hadvance
      obtain havoid | ⟨hhead, hmistaken⟩ := hhead.tail_mistaken hmistaken hfn
      · exact hlost hnext (hadvance ▸ havoid)
      · exact .mistaken (hhalted hnext) (hnoMend hnext) (hadvance ▸ hmistaken) (hadvance ▸ hhead)
  · exact .mistaken (hhalted hresumed) (hnoMend hresumed) hmistaken hhead

/-- A part that starts in the head of a lambda ends there. -/
theorem Wanders.breaksOff (setting : Setting) {part : Parser σ} (hrunning : s.halted = false)
    (herrors : NoMend p s.errors) (hmistaken : parts.Mistaken s.rest)
    (hhead : InHeadBefore p parts s.rest) (hbreaks : parts.BreaksOff part) :
    ∃ e after, part setting s = .fail e after ∧ e.cause.stops = true ∧
      after.Fades p setting parts := by
  obtain ⟨e, k, hfail, hstops, hk⟩ := hbreaks setting s hmistaken
  refine ⟨e, s.skip k, hfail, hstops, ?_⟩
  have hkept : s.Kept false (s.skip k) := .skip k s
  have hrest : Avoiding p (s.rest.drop k) ∨ InHeadBefore p parts (s.rest.drop k) := by
    cases parts with
    | statements => cases hmistaken
    | items => exact hhead.dropItems k
    | members =>
      obtain rfl | ⟨rfl, hkind⟩ := hk rfl
      · exact .inr hhead
      · unfold State.kind at hkind
        cases hts : s.rest with
        | nil =>
          rw [hts] at hkind
          cases hkind
        | cons lexeme ts =>
          rw [hts] at hkind hhead
          exact hhead.tail (by simp [show lexeme.token.kind = _ from hkind])
  rw [← s.rest_skip] at hrest
  obtain havoid | hhead := hrest
  · exact .lost ((hkept.unspent (hkept.silent rfl)).trans hrunning) (hkept.silent rfl ▸ herrors) havoid
  · exact .inHead ((hkept.unspent (hkept.silent rfl)).trans hrunning) (hkept.silent rfl ▸ herrors) hhead

end State

/-- A part is read; where that fails, the reading resumes. -/
theorem Reply.Strays.turn {part : σ → Parser σ} {a : σ} {onFail : ParseError → State → Prop}
    (holds : σ → Prop) (hrunning : s.halted = false) (ha : holds a)
    (hpart : (part a setting s).EndsWith (fun b s => holds b ∧ s.Strays p setting .unread)
      fun e s => s.Fades p setting parts ∧ (s.halted = false → e.cause.stops = true)) :
    (resilient parts.recovery part a setting s).EndsWith
      (fun r s => if r.1 = true then holds r.2 ∧ s.Wanders p setting parts
        else s.Strays p setting .unread) onFail := by
  rw [Keeps.resilient_eq hrunning]
  cases hreply : part a setting s with
  | ok b after =>
    rw [hreply] at hpart
    exact ⟨hpart.1, .strays hpart.2⟩
  | fail e after =>
    rw [hreply] at hpart
    have hwanders := hpart.1.recover (s := s) hpart.2
    change if (!(after.record setting e).halted) = true then
      holds a ∧ (s.recover parts.recovery setting e after).Wanders p setting parts
      else (s.recover parts.recovery setting e after).Strays p setting .unread
    cases hnoted : (after.record setting e).halted with
    | false => exact ⟨ha, hwanders⟩
    | true =>
      cases hwanders with
      | strays h => exact h
      | mistaken hrunning =>
        have hkept : (after.record setting e).Kept true (s.recover parts.recovery setting e after) :=
          Keeps.kept_recover ..
        exact absurd (hrunning.symm.trans (hkept.stays_halted hnoted)) Bool.false_ne_true

/-- The parts of a construct, read one after another. -/
theorem Reply.Strays.readParts {part : σ → Parser σ} {a : σ} (stop : State → Bool) (holds : σ → Prop)
    (hstop : stop = (fun s => s.kind.isSymbol .rightBrace || s.atEnd) ∨ stop = State.atEnd)
    (hprogresses : Progresses (turnUntil stop parts.recovery part))
    (hbreaks : ∀ a, parts.BreaksOff (part a))
    (hpart : ∀ a s, holds a → s.Strays p setting .unread →
      (part a setting s).EndsWith (fun b s => holds b ∧ s.Strays p setting .unread)
        fun e s => s.Fades p setting .statements ∧ (s.halted = false → e.cause.stops = true))
    (ha : holds a) (hs : s.Wanders p setting parts) :
    (loop (turnUntil stop parts.recovery part) a setting s).Strays p setting .unread := by
  refine endsWith_loop_of_progresses hprogresses (fun a s => holds a ∧ s.Wanders p setting parts)
    (fun _ s => s.Strays p setting .unread) (fun a s ⟨ha, hs⟩ => ?_) ⟨ha, hs⟩
  unfold turnUntil
  rw [query_bind]
  cases hstopped : stop s with
  | true =>
    cases hs with
    | strays h => exact h
    | mistaken _ _ hmistaken hhead =>
      -- the head of a lambda is no end
      obtain ⟨behind, depth, htext, -, hlt, -⟩ := hhead
      cases hrest : s.rest with
      | nil =>
        rw [hrest] at hlt
        exact absurd hlt (Nat.not_lt_zero _)
      | cons lexeme ts =>
        rw [hrest] at htext hlt
        obtain ⟨hin, -⟩ := htext.uncons (Nat.le_of_lt_succ hlt)
        have hbrace : s.kind.isSymbol .rightBrace = false := by
          rw [Bool.eq_false_iff]
          intro hkind
          have hkind := TokenKind.eq_of_isSymbol hkind
          rw [State.kind, hrest] at hkind
          exact (hin.symbol_ne hkind).1 rfl
        have hend : s.atEnd = false := by rw [State.atEnd, hrest]; rfl
        obtain rfl | rfl := hstop
        · simp [hbrace, hend] at hstopped
        · exact absurd (hend.symm.trans hstopped) Bool.false_ne_true
  | false =>
    simp only [Bool.false_eq_true, if_false]
    cases hhalted : s.halted with
    | true =>
      have hskip : (s.skip (parts.recovery.abandon s.rest)).Strays p setting .unread := by
        cases hs with
        | mistaken hrunning => exact absurd (hrunning.symm.trans hhalted) Bool.false_ne_true
        | strays h =>
          cases h with
          | spent h => exact .spent (h.kept (@State.Kept.skip true _ _))
          | stuck hrunning => exact absurd (hrunning.symm.trans hhalted) Bool.false_ne_true
          | lost hrunning => exact absurd (hrunning.symm.trans hhalted) Bool.false_ne_true
      unfold Parser.resilient
      rw [hhalted]
      exact hskip
    | false =>
      refine Reply.Strays.turn holds hhalted ha ?_
      cases hs with
      | strays h => exact (hpart a s ha h).imp (fun _ _ h => h) fun _ _ h => ⟨h.1.ofStatements, h.2⟩
      | mistaken hrunning herrors hmistaken hhead =>
        obtain ⟨e, after, hfail, hstops, hfades⟩ :=
          State.Wanders.breaksOff setting hrunning herrors hmistaken hhead (hbreaks a)
        rw [hfail]
        exact ⟨hfades, fun _ => hstops⟩

/-! ## Strings with splices -/

theorem State.recordAll_of_lt (errors : List ParseError) (hrunning : s.halted = false)
    (hlt : errors ≠ [] → s.errors.length + errors.length < setting.limits.maxErrors) :
    errors.foldl (fun s e => s.record setting e) s = { s with errors := s.errors ++ errors } := by
  induction errors generalizing s with
  | nil => rw [List.foldl_nil, List.append_nil]
  | cons e errors ih =>
    have hlt := hlt (List.cons_ne_nil _ _)
    rw [List.length_cons] at hlt
    rw [List.foldl_cons, record_of_lt e hrunning (by omega),
      ih (s := { s with errors := s.errors ++ [e] }) hrunning fun _ => ?_]
    · rw [List.append_assoc, List.singleton_append]
    · simp only [List.length_append, List.length_singleton]
      omega

/-- All errors of a splice are recorded, or no more errors are. -/
theorem State.recordAll_cases (setting : Setting) (errors : List ParseError)
    (hrunning : s.halted = false) :
    (errors.foldl (fun s e => s.record setting e) s).Over setting ∨
      (errors ≠ [] → s.errors.length + errors.length < setting.limits.maxErrors) := by
  induction errors generalizing s with
  | nil => exact .inr fun h => absurd rfl h
  | cons e errors ih =>
    rw [List.foldl_cons]
    obtain hover | ⟨hlt, hrecord⟩ := record_cases setting e hrunning
    · exact .inl (hover.kept (.recordAll setting errors _))
    rw [hrecord]
    refine (ih (s := { s with errors := s.errors ++ [e] }) hrunning).imp_right fun hlimit _ => ?_
    by_cases hnil : errors = []
    · subst hnil
      exact hlt
    · have hlimit := hlimit hnil
      simp only [List.length_append, List.length_cons, List.length_nil] at hlimit ⊢
      omega

theorem State.leaveSplice_of_lt (hrunning : s.halted = false)
    (hlt : inner.errors ≠ [] → s.errors.length + inner.errors.length < setting.limits.maxErrors) :
    leaveSplice setting s inner =
      { s with nextId := inner.nextId, errors := s.errors ++ inner.errors } :=
  recordAll_of_lt (s := { s with nextId := inner.nextId }) inner.errors hrunning hlt

theorem State.leaveSplice_cases (setting : Setting) (inner : State) (hrunning : s.halted = false) :
    (leaveSplice setting s inner).Over setting ∨
      (inner.errors ≠ [] → s.errors.length + inner.errors.length < setting.limits.maxErrors) :=
  recordAll_cases (s := { s with nextId := inner.nextId }) setting inner.errors hrunning

/-- The errors of a splice use up what the limits allow, so they do in the string around it. -/
theorem State.Over.leaveSplice {span : Span} (h : inner.Over (setting.inSplice span))
    (hunspent : inner.errors = [] → inner.halted = false) (hrunning : s.halted = false) :
    (leaveSplice setting s inner).Over setting := by
  have hnil : inner.errors ≠ [] := fun hnil =>
    Bool.false_ne_true ((hunspent hnil).symm.trans h.halted)
  have hspent : setting.limits.maxErrors ≤ inner.errors.length := h.spent
  refine (leaveSplice_cases setting inner hrunning).resolve_right fun hlt => ?_
  have hlt := hlt hnil
  omega

/-- In a string of which the fragments are still to be read, and behind it, nothing is mended at
`p`. -/
inductive State.Midst (p : Nat) (setting : Setting) (fragments : List Fragment) (s : State) : Prop where
  | spent (h : s.Over setting)
  | lost (hrunning : s.halted = false) (herrors : NoMend p s.errors) (hrest : Avoiding p s.rest)
      (hend : s.previousEnd ≠ p)
      (hsplices : ∀ tokens span, .splice tokens span ∈ fragments →
        Avoiding p (Lexeme.significant false tokens))

namespace State

theorem Midst.strays {fragments : List Fragment} (h : s.Midst p setting fragments) :
    s.Strays p setting χ := by
  cases h with
  | spent h => exact .spent h
  | lost hrunning herrors hrest hend _ => exact .lost hrunning herrors hrest (.inr (.inr hend))

theorem Midst.tail {fragment : Fragment} {fragments : List Fragment}
    (h : s.Midst p setting (fragment :: fragments)) : s.Midst p setting fragments := by
  cases h with
  | spent h => exact .spent h
  | lost hrunning herrors hrest hend hsplices =>
    exact .lost hrunning herrors hrest hend fun tokens span hmem =>
      hsplices tokens span (.tail _ hmem)

/-- The string at hand is entered. -/
theorem Strays.midst {fragments : List Fragment} (h : s.Strays p setting φ)
    (hkind : s.kind = .interpolated fragments) : s.advance.Midst p setting fragments := by
  cases h with
  | spent h => exact .spent (h.kept (@Kept.advance true s))
  | stuck _ _ _ harrow => rw [hkind] at harrow; cases harrow
  | lost hrunning herrors havoid _ =>
    unfold State.kind at hkind
    cases hrest : s.rest with
    | nil =>
      rw [hrest] at hkind
      cases hkind
    | cons lexeme rest =>
      rw [hrest] at hkind
      have hadvance : s.advance = { s with rest, previousEnd := lexeme.token.span.stop } := by
        rw [State.advance, hrest]
      obtain ⟨hstop, hsplices⟩ := havoid lexeme (by simp [hrest])
      rw [hadvance]
      exact .lost hrunning herrors (havoid.suffix (hrest ▸ List.suffix_cons _ _)) hstop
        fun tokens span hmem => hsplices _ tokens span hkind hmem

/-- Back in the string, behind a splice in which nothing was mended at `p` either. -/
theorem Midst.leaveSplice {fragments : List Fragment} {span : Span}
    (h : s.Midst p setting fragments)
    (hinner : inner.Fades p (setting.inSplice span) .statements) :
    (leaveSplice setting s inner).Midst p setting fragments := by
  cases h with
  | spent h => exact .spent (h.kept (.leaveSplice setting s inner))
  | lost hrunning herrors hrest hend hsplices =>
    obtain hover | hlimit := leaveSplice_cases setting inner hrunning
    · exact .spent hover
    rw [leaveSplice_of_lt hrunning hlimit]
    refine .lost hrunning (herrors.append ?_) hrest hend hsplices
    obtain h | ⟨-, herrors, -⟩ := hinner.over_or_running
    · by_cases hnil : inner.errors = []
      · rw [hnil]
        exact .nil
      · have hspent : setting.limits.maxErrors ≤ inner.errors.length := h.spent
        have hlt := hlimit hnil
        omega
    · exact herrors

end State

namespace Reply.Strays

variable {g : Rules} {fragments : List Fragment}

/-- A splice in which nothing is mended, if the string has not been left already. -/
theorem splice {tokens : List Token} {span : Span}
    (hkeeps : (wholeExpr g (.symbol .rightBrace)).Keeps true)
    (hinner : s.halted = false →
      (wholeExpr g (.symbol .rightBrace) (setting.inSplice span)
        (s.inSplice (setting.inSplice span) tokens)).Strays p (setting.inSplice span) χ)
    (h : s.Midst p setting fragments) :
    (Parser.splice g tokens span setting s).EndsWith (fun _ s => s.Midst p setting fragments)
      fun e s => s.Midst p setting fragments ∧ (s.halted = false → e.cause.stops = true) := by
  cases hrunning : s.halted with
  | true =>
    have hover : s.Over setting := by
      cases h with
      | spent h => exact h
      | lost hrun => exact absurd (hrun.symm.trans hrunning) Bool.false_ne_true
    have hover := hover.kept (Keeps.splice g tokens span setting s)
    cases hreply : Parser.splice g tokens span setting s with
    | ok e after =>
      rw [hreply] at hover
      exact .spent hover
    | fail e after =>
      rw [hreply] at hover
      exact ⟨.spent hover, fun hrun => absurd (hrun.symm.trans hover.halted) Bool.false_ne_true⟩
  | false =>
    have hrun := hinner hrunning
    have hkept := hkeeps (setting.inSplice span) (s.inSplice (setting.inSplice span) tokens)
    rw [splice_eq]
    cases hreply : wholeExpr g (.symbol .rightBrace) (setting.inSplice span)
        (s.inSplice (setting.inSplice span) tokens) with
    | ok e inner =>
      rw [hreply] at hrun
      exact h.leaveSplice hrun.fades
    | fail e inner =>
      rw [hreply] at hrun hkept
      refine ⟨h.leaveSplice hrun.1, fun houter => ?_⟩
      obtain hover | ⟨hinner, -⟩ := hrun.1.over_or_running
      · have hover := hover.leaveSplice hkept.unspent hrunning
        exact absurd (houter.symm.trans hover.halted) Bool.false_ne_true
      · exact hrun.2 hinner

theorem stringParts (hkeeps : (wholeExpr g (.symbol .rightBrace)).Keeps true)
    (hg : ∀ setting s, s.Strays p setting .unread →
      (wholeExpr g (.symbol .rightBrace) setting s).Strays p setting χ)
    (h : s.Midst p setting fragments) :
    (Parser.stringParts g fragments setting s).Strays p setting ψ := by
  induction fragments generalizing s with
  | nil => exact h.strays
  | cons fragment fragments ih =>
    cases fragment with
    | text => exact EndsWith.bind (ih h.tail) fun _ _ hs => hs
    | splice tokens span =>
      have hinner (hrunning : s.halted = false) :
          (wholeExpr g (.symbol .rightBrace) (setting.inSplice span)
            (s.inSplice (setting.inSplice span) tokens)).Strays p (setting.inSplice span) χ := by
        cases h with
        | spent h => exact absurd (hrunning.symm.trans h.halted) Bool.false_ne_true
        | lost _ _ _ _ hsplices =>
          exact hg _ _ (.lost rfl .nil (hsplices tokens span (.head _)) (.inr (.inl rfl)))
      have hsplice := (splice hkeeps hinner h.tail).imp (fun _ _ h => h) fun e s h =>
        show s.Fades p setting .statements ∧ (s.halted = false → e.cause.stops = true) from
          ⟨(h.1.strays (χ := .unread)).fades, h.2⟩
      exact EndsWith.bind hsplice fun _ _ hs => EndsWith.bind (ih hs) fun _ _ hs => hs

end Reply.Strays

/-! ## Readings -/

namespace Parser

variable {loud inside : Bool} {L : Comparison} {hand : Hand} {R : α → α → Prop} {q q' : Parser α}

/-- Where nothing is mended at `p` any more, a reading mends nothing there. -/
theorem Alike.strays (h : Alike L loud inside hand φ χ R q q') (hmended : L.mended = some p)
    (hhand : hand.Knows s.kind) (hs : s.Strays p setting φ) :
    (q setting s).Strays p setting χ := by
  induction h generalizing setting s with
  | value => exact hs
  | bind hp hq ihp ihq =>
    refine (ihp hhand hs).answers.bind fun a s h => ?_
    obtain ⟨ha, hs⟩ := h
    obtain ⟨a', h⟩ := hp.keepAlike.answer a ha
    exact ihq a a' h (Hand.knows_none _) hs
  | @weaken _ _ _ _ _ hand₀ hand _ _ _ _ _ _ _ _ _ _ _ hhand' hφ hχ _ ih =>
    have hhand : hand₀.Knows s.kind := by
      obtain rfl | rfl := hhand'
      · exact Hand.knows_none _
      · exact hhand
    exact (ih hhand (hs.mono hφ)).mono hχ
  | settle hnone => rw [hmended] at hnone; cases hnone
  | separator _ hended =>
    have hkind := hhand _ _ rfl
    exact hs.advance (by simp [hkind]) hended (by simp [hkind, TokenKind.isArrow])
  | unblock hk _ ih =>
    refine ih hhand (hs.congr rfl rfl rfl rfl (fun _ _ harrow _ => ?_) id)
    rw [← hhand _ _ rfl, harrow] at hk
    cases hk
  | place f _ _ ih =>
    obtain ⟨span', h⟩ := L.exists_placed (s.span setting)
    exact ih _ _ h hhand hs
  | spanSince => exact hs
  | freshId => exact hs.congr rfl rfl rfl rfl (fun _ hφ _ hlambdas => ⟨hφ, hlambdas⟩) id
  | text _ _ _ _ _ _ ih => exact ih _ hhand hs
  | kind _ _ _ _ _ _ ih =>
    exact ih s.kind s.kind (.same _) (Hand.knows_some _ _) (hs.mono (Footing.le_look _))
  | look known _ _ _ _ _ _ _ _ _ _ ih =>
    refine ih s s (.same _) rfl ?_ (hs.mono (Footing.le_look _))
    cases known with
    | none => exact Hand.knows_some _ _
    | some k => exact hhand
  | advance hk hended harrow =>
    have hkind := hhand _ _ rfl
    exact hs.advance (hkind ▸ hk) hended (hkind ▸ harrow)
  | enter hk hended _ ih =>
    have hkind := hhand _ _ rfl
    refine ih (Hand.knows_none _) (hs.advance (hkind ▸ ne_endOfFile_of_opens hk) hended fun harrow => ?_)
    rw [hkind, isArrow_of_opens hk] at harrow
    cases harrow
  | fails _ _ hstops => exact .failed hs (hstops _ _)
  | refused hlax => exact absurd ((L.level (by simp [hmended])).symm.trans hlax) Bool.false_ne_true
  | semicolon hended hstale => exact .semicolon hs hended hstale
  | duplicate clause =>
    refine hs.record fun _ => ?_
    rintro ⟨⟨_, hcause⟩, -⟩
    cases hcause
  | @inContext _ _ _ _ _ χ₀ χ _ q _ f hf h ih =>
    have hinner : (q setting { s with context := f s.context }).Strays p setting χ₀ := by
      refine ih hhand (hs.congr rfl rfl rfl rfl (fun _ hφ _ hlambdas => ⟨hφ, ?_⟩) id)
      cases hf with
      | keep h => rw [h, hlambdas]
      | enclose h => exact h _
      | bar _ hblocked hended => simp [hblocked, hended] at hφ
    exact hinner.leave hf (h.keepAlike.left setting { s with context := f s.context }).context
  | @nested _ _ _ _ _ χ _ q _ _ h ih =>
    unfold Parser.nested
    split
    · exact .failed hs rfl
    · have hinner : (q setting { s with depth := s.depth + 1 }).Strays p setting χ :=
        ih hhand (hs.congr rfl rfl rfl rfl (fun _ hφ _ hlambdas => ⟨hφ, hlambdas⟩) id)
      exact hinner.rise
  | @loop _ _ _ _ φ R step step' a a' _ _ _ hstep ha ih =>
    have hloop : (Parser.loop step a setting s).EndsWith
        (fun a s => (∃ a', R a a') ∧ s.Strays p setting φ)
        fun e s => s.Fades p setting .statements ∧ (s.halted = false → e.cause.stops = true) := by
      refine endsWith_loop _ (fun a s h => ?_) ⟨⟨a', ha⟩, hs⟩
      obtain ⟨⟨a', ha⟩, hs⟩ := h
      refine (ih a a' ha (Hand.knows_none _) hs).answers.imp (fun r s h => ?_) fun _ _ h => h
      obtain ⟨hr, hs⟩ := h
      obtain ⟨r', -, hr⟩ := (hstep a a' ha).keepAlike.answer r hr
      exact ⟨⟨r'.2, hr⟩, hs⟩
    exact hloop.imp (fun _ _ h => h.2) fun _ _ h => h
  | resilient _ hnone => rw [hmended] at hnone; cases hnone
  | @parts _ _ _ _ R part part' a a' parts stop _ hstop hprogresses _ hbreaks h ha ih =>
    refine .readParts stop (fun b => ∃ b', R b b') hstop hprogresses hbreaks
      (fun b s hb hs => ?_) ⟨a', ha⟩ (.strays hs.unread)
    obtain ⟨b', hb⟩ := hb
    refine (ih b b' hb (Hand.knows_none _) hs).answers.imp (fun r s hr => ?_) fun _ _ h => h
    obtain ⟨hr, hs⟩ := hr
    exact ⟨(h b b' hb).keepAlike.answer r hr, hs.unread⟩
  | @guess _ _ _ _ _ _ ψ _ _ _ q _ _ _ _ _ _ _ _ hp hq hr _ _ _ _ ihp ihq ihr =>
    unfold Parser.guess
    rw [query_bind]
    split
    · have htrial : (q setting s).Strays p setting ψ := ihp hhand hs
      cases hreply : q setting s with
      | ok a after =>
        rw [hreply] at htrial
        obtain ⟨a', h⟩ := hp.keepAlike.answer a ⟨setting, s, after, hreply⟩
        rw [bind_ok (Keeps.attempt_of_ok hreply)]
        exact ihq a a' h (Hand.knows_none _) htrial
      | fail e after =>
        rw [bind_ok (Keeps.attempt_of_fail hp.keepAlike.left hreply)]
        exact ihr hhand hs
    · exact ihr hhand hs
  | splice hnone => rw [hmended] at hnone; cases hnone
  | @interpolated _ _ _ _ χ _ _ _ _ h ih =>
    rw [interpolatedString, advance_bind]
    refine Reply.EndsWith.bind (Reply.Strays.stringParts (χ := χ) h.keepAlike.left
      (fun setting s hs => ih (Hand.knows_none _) hs) (hs.midst (hhand _ _ rfl))) fun _ _ hs => hs
  | unit hended _ _ ihsome ihnone =>
    have hkind := hhand _ _ rfl
    have hadvance (ψ : Footing) : s.advance.Strays p setting ψ :=
      hs.advance (by simp [hkind]) hended (by simp [hkind, TokenKind.isArrow])
    rw [advance_bind, bind_ok (durationUnit?_eq ..)]
    cases hunit : s.advance.attachedUnit? with
    | none => exact ihnone (Hand.knows_none _) (hadvance _)
    | some unit =>
      obtain ⟨suffix, hkind⟩ := State.kind_of_attachedUnit? hunit
      refine ihsome unit suffix ?_ (hadvance _)
      rintro _ _ ⟨⟩
      exact hkind

end Parser

end ActorFrontend
