import ActorFrontend.Proofs.Mending.Replies

/-!
# Strings around a missing semicolon

Each splice of a string is read by a run of its own.  The semicolon may be missing in one of the
splices of the string at hand, or elsewhere.
-/

namespace ActorFrontend

open ActorFrontend.Parser

variable {p depth : Nat} {spot origin : Spot} {setting setting' : Setting} {φ ψ χ : Footing}
  {hand : Hand} {s s' inner inner' : State} {lexemes lexemes' : List Lexeme} {within : Bool}
  {fragments fragments' : List Fragment} {tokens tokens' : List Token} {span span' : Span}

/-- No splice of the string has a token that ends at `p`. -/
theorem Fragment.MendedAll.avoiding (h : MendedAll p false fragments fragments')
    (hmem : .splice tokens span ∈ fragments) : Avoiding p (Lexeme.significant false tokens) := by
  induction fragments generalizing fragments' with
  | nil => cases hmem
  | cons fragment fragments ih =>
    cases h with
    | text _ _ _ h =>
      obtain _ | ⟨_, hmem⟩ := hmem
      exact ih h hmem
    | splice _ htokens h =>
      obtain _ | ⟨_, hmem⟩ := hmem
      · exact htokens.avoiding
      · exact ih h hmem

namespace State

/-- Two runs start. -/
theorem Paired.initial (nextId : NodeId) (h : Lexeme.Mended p spot lexemes lexemes') :
    { initial setting lexemes with nextId, depth }.Paired p spot .unread none
      { initial setting' lexemes' with nextId, depth } where
  meet := by
    refine .apart (.ahead .nil) h fun hspot => ?_
    have hplace {a a' : Lexeme} {within : Bool}
        (htoken : Token.Mended p within a.token a'.token) (hbefore : a.token.span.start < p) :
        a.token.span.start ≠ p ∧ a'.token.span.start = movedEnd p a.token.span.start := by
      refine ⟨Nat.ne_of_lt hbefore, ?_⟩
      unfold movedEnd
      rw [htoken.span, Span.insertAt, if_neg (Nat.not_le_of_lt hbefore), if_neg (Nat.lt_asymm hbefore)]
    cases h with
    | nil => cases (hspot rfl).2
    | cons _ htoken _ hbefore =>
      refine hplace htoken (hbefore fun hnowhere => ?_)
      cases (hspot hnowhere).2
    | string _ htoken hbefore => exact hplace htoken hbefore
    | last _ htoken hbefore => exact hplace htoken hbefore
  hand := Hand.holds_none _ _
  errors := .same .nil .nil
  context := rfl
  depth := rfl
  nextId := rfl
  running_left := rfl
  running_right := rfl

/-- Both runs enter a splice. -/
theorem Paired.inSplice (h : s.Paired p origin φ hand s')
    (htokens : Lexeme.Mended p spot (Lexeme.significant false tokens)
      (Lexeme.significant false tokens')) :
    (s.inSplice setting tokens).Paired p spot .unread none (s'.inSplice setting' tokens') := by
  unfold State.inSplice
  rw [h.nextId, h.depth]
  exact .initial s'.nextId htokens

/-- Both runs are in the string in which the semicolon is missing, and have not come to it. -/
structure Within (p : Nat) (origin : Spot) (s s' : State) : Prop where
  origin : origin = .within
  errors : NoMend p s.errors
  rest : Lexeme.Mended p .nowhere s.rest s'.rest
  previousEnd : s.previousEnd ≠ p ∧ s'.previousEnd = movedEnd p s.previousEnd

/-- Back from a splice, all its errors are recorded in both runs. -/
theorem Paired.leaveSplice_cases (h : s.Paired p origin φ hand s')
    (hsetting : setting.Paired p setting')
    (herrors : ParseError.MendedAll p inner.errors inner'.errors) :
    (leaveSplice setting s inner).Over setting ∨
      leaveSplice setting s inner =
          { s with nextId := inner.nextId, errors := s.errors ++ inner.errors } ∧
        leaveSplice setting' s' inner' =
          { s' with nextId := inner'.nextId, errors := s'.errors ++ inner'.errors } := by
  refine (State.leaveSplice_cases setting inner h.running_left).imp_right fun hlt => ?_
  refine ⟨leaveSplice_of_lt h.running_left hlt, leaveSplice_of_lt h.running_right fun hnil => ?_⟩
  have hle := herrors.length_le
  have hle' := h.errors.length_le
  have hnil : inner.errors ≠ [] := by
    intro heq
    rw [heq] at hle
    exact hnil (List.length_eq_zero_iff.1 (Nat.le_zero.1 hle))
  have hlt := hlt hnil
  rw [← hsetting.limits]
  omega

/-- Back from a splice in which no semicolon is missing. -/
theorem Paired.leaveSplice (h : s.Paired p origin φ hand s') (hsetting : setting.Paired p setting')
    (hinner : inner.Paired p spot ψ none inner') (hno : NoMend p inner.errors) :
    (leaveSplice setting s inner).Over setting ∨
      (leaveSplice setting s inner).Paired p origin φ none (leaveSplice setting' s' inner') ∧
        (s.Within p origin s' →
          (leaveSplice setting s inner).Within p origin (leaveSplice setting' s' inner')) := by
  refine (h.leaveSplice_cases hsetting hinner.errors).imp_right fun ⟨heq, heq'⟩ => ?_
  have hkept : s.Kept true (Parser.leaveSplice setting s inner) := .leaveSplice ..
  rw [heq] at hkept
  rw [heq, heq']
  have herrors := hinner.errors.of_noMend hno
  refine ⟨{ h with
    meet := ?_
    hand := Hand.holds_none _ _
    errors := h.errors.append herrors hno
    nextId := hinner.nextId }, fun hwithin => ?_⟩
  · cases h.meet with
    | apart hspot hmended hend => exact .apart (hspot.kept hkept (·.append hno)) hmended hend
    | gap horigin hrest hkind hspan hmended hnone hend hend' htight =>
      exact .gap horigin hrest hkind hspan hmended (hnone.append hno) hend hend' htight
  · exact ⟨hwithin.origin, hwithin.errors.append hno, hwithin.rest, hwithin.previousEnd⟩

/-- Back from the splice in which the semicolon is missing. -/
theorem Within.leaveSplice (hwithin : s.Within p origin s') (h : s.Paired p origin φ hand s')
    (hsetting : setting.Paired p setting') (hinner : inner.Paired p spot ψ none inner') :
    (leaveSplice setting s inner).Over setting ∨
      (leaveSplice setting s inner).Paired p origin φ none (leaveSplice setting' s' inner') := by
  refine (h.leaveSplice_cases hsetting hinner.errors).imp_right fun ⟨heq, heq'⟩ => ?_
  rw [heq, heq']
  exact { h with
    meet := .apart (.passed (by rw [hwithin.origin]; nofun)) hwithin.rest fun _ => hwithin.previousEnd
    hand := Hand.holds_none _ _
    errors := hinner.errors.prepend (h.errors.of_noMend hwithin.errors) hwithin.errors
    nextId := hinner.nextId }

end State

namespace Reply

/-- Nothing has been mended, or no more errors are recorded. -/
theorem Strays.over_or_noMend {α : Type} {r : Reply α} (h : r.Strays p setting χ) :
    r.state.Over setting ∨ NoMend p r.state.errors := by
  cases r with
  | ok a s => exact (State.Strays.fades h).over_or_running.imp_right fun hno => hno.2.1
  | fail e s => exact h.1.over_or_running.imp_right fun hno => hno.2.1

theorem Strays.noMend {α : Type} {r : Reply α} (h : r.Strays p setting χ)
    (hrunning : r.state.halted = false) : NoMend p r.state.errors :=
  h.over_or_noMend.resolve_left fun hover =>
    absurd (hrunning.symm.trans hover.halted) Bool.false_ne_true

/-- Where the semicolon is missing nowhere, the first run can only be over. -/
theorem Gone.isOver {α : Type} {loud : Bool} {r : Reply α} (h : r.Gone p setting .nowhere loud χ) :
    r.state.Over setting := by
  have hrunning : r.state.halted ≠ false := fun hrunning => h.placed hrunning rfl
  have hstrays := h.strays
  cases r with
  | ok a s =>
    have hfades : s.Fades p setting .statements := State.Strays.fades hstrays
    exact hfades.over_or_running.resolve_right fun hrun => hrunning hrun.1
  | fail e s => exact hstrays.1.over_or_running.resolve_right fun hrun => hrunning hrun.1

theorem Gone.of_over {α : Type} {r : Reply α} (h : r.state.Over setting) :
    r.Gone p setting origin true χ where
  strays := by
    cases r with
    | ok a s => exact .spent h
    | fail e s =>
      exact ⟨.spent h, fun hrunning => absurd (hrunning.symm.trans h.halted) Bool.false_ne_true⟩
  placed hrunning := absurd (hrunning.symm.trans h.halted) Bool.false_ne_true
  silent := nofun

/-- Where no more errors are recorded that stays so. -/
theorem Gone.bind_over {α β : Type} {q : Parser α} {f : α → Parser β}
    (h : (q setting s).state.Over setting) (hf : ∀ a, (f a).Keeps true) :
    ((q >>= f) setting s).Gone p setting origin true χ := by
  refine .of_over ?_
  change (Parser.bind q f setting s).state.Over setting
  unfold Parser.bind
  cases hreply : q setting s with
  | ok a after =>
    rw [hreply] at h
    exact h.kept (hf a setting after)
  | fail e after =>
    rw [hreply] at h
    exact h

namespace Paired

variable {L : Comparison} {g g' : Rules}

theorem map {α β : Type} {R : α → α → Prop} {S : β → β → Prop} {q q' : Parser α} {f f' : α → β}
    {loud : Bool} (h : (q setting s).Paired p setting origin loud χ R (q' setting' s'))
    (hS : ∀ a a', R a a' → S (f a) (f' a')) :
    ((q >>= fun a => pure (f a)) setting s).Paired p setting origin loud χ S
      ((q' >>= fun a => pure (f' a)) setting' s') := by
  change (Parser.bind q _ setting s).Paired _ _ _ _ _ _ (Parser.bind q' _ setting' s')
  unfold Parser.bind
  generalize q setting s = r at *
  generalize q' setting' s' = r' at *
  obtain hgone | hmet := h
  · left
    cases r with
    | ok a after => exact ⟨hgone.strays, hgone.placed, hgone.silent⟩
    | fail e after => exact ⟨hgone.strays, hgone.placed, hgone.silent⟩
  · cases hmet with
    | both hs ha => exact .inr (.both hs (hS _ _ ha))
    | failed hs he hstops => exact .inr (.failed hs he hstops)

/-- Back from a splice that both runs have left in the same way, the string goes on. -/
theorem afterSplice
    (hmet : (wholeExpr g (.symbol .rightBrace) (setting.inSplice span)
        (s.inSplice (setting.inSplice span) tokens)).Met p spot χ (Like L)
      (wholeExpr g' (.symbol .rightBrace) (setting'.inSplice span')
        (s'.inSplice (setting'.inSplice span') tokens')))
    (hleave : ∀ {inner inner' : State} {ψ : Footing}, inner.Paired p spot ψ none inner' →
      (wholeExpr g (.symbol .rightBrace) (setting.inSplice span)
        (s.inSplice (setting.inSplice span) tokens)).state = inner →
      (leaveSplice setting s inner).Over setting ∨
        (leaveSplice setting s inner).Paired p origin φ none (leaveSplice setting' s' inner') ∧
        (Parser.stringParts g fragments setting (leaveSplice setting s inner)).Paired p setting origin
          true φ (Like L)
          (Parser.stringParts g' fragments' setting' (leaveSplice setting' s' inner'))) :
    (Parser.stringParts g (.splice tokens span :: fragments) setting s).Paired p setting origin true φ
      (Like L) (Parser.stringParts g' (.splice tokens' span' :: fragments') setting' s') := by
  unfold Parser.stringParts
  have hsplice := splice_eq_mapState g tokens span setting s
  have hsplice' := splice_eq_mapState g' tokens' span' setting' s'
  have hover (h : (splice g tokens span setting s).state.Over setting) :
      ((splice g tokens span >>= fun e => Parser.stringParts g fragments >>= fun more =>
        pure (.expr e :: more)) setting s).Gone p setting origin true φ :=
    .bind_over h fun e => .bind (keeps_stringParts g fragments) fun _ _ => .pure _
  generalize wholeExpr g (.symbol .rightBrace) (setting.inSplice span)
    (s.inSplice (setting.inSplice span) tokens) = r at *
  generalize wholeExpr g' (.symbol .rightBrace) (setting'.inSplice span')
    (s'.inSplice (setting'.inSplice span') tokens') = r' at *
  cases hmet with
  | both h he =>
    obtain h | ⟨-, hmore⟩ := hleave h rfl
    · exact .inl (hover (by rw [hsplice]; exact h))
    · rw [bind_ok hsplice, bind_ok hsplice']
      exact hmore.map fun more more' hmore => by simp_all
  | failed h he hstops =>
    obtain h | ⟨h, -⟩ := hleave h rfl
    · exact .inl (hover (by rw [hsplice]; exact h))
    · change (Parser.bind _ _ setting s).Paired _ _ _ _ _ _ (Parser.bind _ _ setting' s')
      rw [Parser.bind, Parser.bind, hsplice, hsplice']
      exact .failed h he hstops

/-- The parts of a string, of which the semicolon may be missing in one. -/
theorem stringParts
    (h : Parser.Alike L true true none .unread χ (Like L) (wholeExpr g (.symbol .rightBrace))
      (wholeExpr g' (.symbol .rightBrace)))
    (hmended : L.mended = some p)
    (hreplies : ∀ {spot : Spot} {setting setting' : Setting} {s s' : State},
      setting.Paired p setting' → s.Paired p spot .unread none s' →
        (wholeExpr g (.symbol .rightBrace) setting s).Paired p setting spot true χ (Like L)
          (wholeExpr g' (.symbol .rightBrace) setting' s'))
    (hfragments : Fragment.MendedAll p within fragments fragments')
    (hsetting : setting.Paired p setting') (hs : s.Paired p origin φ none s')
    (hwithin : within = true → s.Within p origin s') :
    (Parser.stringParts g fragments setting s).Paired p setting origin true φ (Like L)
      (Parser.stringParts g' fragments' setting' s') := by
  have hkeeps := h.keepAlike.left
  induction fragments generalizing fragments' within s s' with
  | nil =>
    cases hfragments with
    | nil => exact .inr (.both hs rfl)
  | cons fragment fragments ih =>
    cases hfragments with
    | text value _ _ hfragments =>
      exact (ih hfragments hs hwithin).map fun more more' hmore => by simp_all
    | @splice _ _ fragments' tokens tokens' span span' hstop htokens hfragments =>
      have hsettings : (setting.inSplice span).Paired p (setting'.inSplice span') :=
        ⟨hsetting.limits, hstop⟩
      have hstrays := h.strays hmended (Hand.knows_none _)
        (show (s.inSplice (setting.inSplice span) tokens).Strays p (setting.inSplice span) .unread from
          .lost rfl .nil htokens.avoiding (.inr (.inl rfl)))
      obtain hgone | hmet := hreplies hsettings (hs.inSplice htokens)
      · have hover := hgone.isOver.leaveSplice (s := s) (hkeeps _ _).unspent hs.running_left
        refine .inl (.bind_over ?_ fun e => .bind (keeps_stringParts g fragments) fun _ _ => .pure _)
        rw [splice_eq_mapState, Reply.state_mapState]
        exact hover
      · refine afterSplice hmet fun hinner hstate => ?_
        have hno := hstate ▸ hstrays.noMend (hstate ▸ hinner.running_left)
        refine (hs.leaveSplice hsetting hinner hno).imp_right fun ⟨hs, hwithin'⟩ => ?_
        exact ⟨hs, ih hfragments hs fun h => hwithin' (hwithin h)⟩
    | gap hstop hspot htokens hfragments =>
      have hwithin := hwithin rfl
      have hsettings : (setting.inSplice _).Paired p (setting'.inSplice _) := ⟨hsetting.limits, hstop⟩
      obtain hgone | hmet := hreplies hsettings (hs.inSplice htokens)
      · have hmidst : s.Midst p setting fragments :=
          .lost hs.running_left hwithin.errors hwithin.rest.avoiding hwithin.previousEnd.1
            fun tokens span hmem => hfragments.avoiding hmem
        have hsplice := (Reply.Strays.splice hkeeps (fun _ => hgone.strays) hmidst).imp
          (fun _ _ h => h) fun e s h =>
            show s.Fades p setting .statements ∧ (s.halted = false → e.cause.stops = true) from
              ⟨(h.1.strays (χ := .unread)).fades, h.2⟩
        refine .inl ⟨EndsWith.bind hsplice fun _ _ hs => ?_, fun _ => by rw [hwithin.origin]; nofun, nofun⟩
        refine EndsWith.bind (Reply.Strays.stringParts (χ := χ) (ψ := φ) hkeeps (fun setting s hs => ?_) hs)
          fun _ _ hs => hs
        exact h.strays hmended (Hand.knows_none _) hs
      · refine afterSplice hmet fun hinner _ => ?_
        refine (hwithin.leaveSplice hs hsetting hinner).imp_right fun hs => ?_
        exact ⟨hs, ih hfragments hs nofun⟩

end Paired

end Reply

end ActorFrontend
