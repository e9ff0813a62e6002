import ActorFrontend.Proofs.Defects.OneError
import ActorFrontend.Proofs.Invariance
import ActorFrontend.Proofs.Lookahead.Angles
import ActorFrontend.Proofs.Lossless
import ActorFrontend.Proofs.Motion.Basic

/-!
# Two spellings of a struct

A struct is declared with `struct` or with `type`.  Behind `type` a look past the type parameters
decides whether a struct follows or an alias.  It finds the struct unless an array stands in a bound of
a parameter: then the look ends in the array, and the declaration is refused.
-/

namespace ActorFrontend

open ActorFrontend.Parser

variable {α : Type} {L : Likeness} {n levels : Nat} {g : Rules} {setting setting' : Setting}
  {s s' after : State}

/-! ## Places -/

theorem Lexeme.isMet_shift (lexeme : Lexeme) (rest : List Lexeme) :
    (lexeme.shift n).isMet (rest.map (Lexeme.shift n)) = lexeme.isMet rest := by
  cases rest with
  | nil => rfl
  | cons next rest =>
    show ((next.shift n).token.kind.isName && (next.shift n).token.span.start ==
      (lexeme.shift n).token.span.stop) = _
    simp only [Lexeme.shift, isMet, Token.kind_shift, TokenKind.isName_shift, Token.span_shift,
      Span.shift]
    congr 1
    exact Bool.eq_iff_iff.2 (by simp only [beq_iff_eq]; omega)

mutual

/-- Tokens further on are alike, but for their places. -/
theorem TokenKind.alike_shift (hspans : L.spans = false) (kind : TokenKind) :
    TokenKind.Alike L (kind.shift n) kind := by
  cases kind with
  | interpolated fragments =>
    rw [TokenKind.shift]
    exact .interpolated hspans (Fragment.alikeAll_shift hspans fragments)
  | _ => exact .same _

theorem Fragment.alikeAll_shift (hspans : L.spans = false) :
    (fragments : List Fragment) → Fragment.AlikeAll L (shiftFragments n fragments) fragments
  | [] => .nil
  | .text value span :: fragments => by
      rw [shiftFragments, Fragment.shift]
      exact .text _ _ _ (Fragment.alikeAll_shift hspans fragments)
  | .splice tokens span :: fragments => by
      rw [shiftFragments, Fragment.shift]
      exact .splice _ _ (Lexeme.alikeUpTo_shift hspans false tokens)
        (Fragment.alikeAll_shift hspans fragments)

theorem Lexeme.alikeUpTo_shift (hspans : L.spans = false) (lineBreak : Bool) :
    (ts : List Token) → Lexeme.AlikeUpTo L .none (Lexeme.significant lineBreak (shiftTokens n ts))
      (Lexeme.significant lineBreak ts)
  | [] => .nil
  | ⟨kind, text, span⟩ :: ts => by
      have h (lineBreak : Bool) := Lexeme.alikeUpTo_shift hspans lineBreak ts
      have hkind := TokenKind.alike_shift hspans kind
      rw [shiftTokens, Lexeme.significant, Lexeme.significant]
      simp only [Token.isTrivia_shift, Token.hasLineBreak_shift, Token.kind_shift,
        TokenKind.isEndOfFile_shift]
      split
      · exact h _
      · split
        · exact .nil
        · refine .cons ?_ (fun _ => ?_) ?_ (fun value hvalue => ?_) (h false)
          · rw [Token.kind_shift]
            exact hkind
          · rw [Token.text_shift]
          · intro hplaces
            exact absurd (hspans.symm.trans hplaces) Bool.false_ne_true
          · rw [shiftTokens_eq, Lexeme.significant_shift]
            exact Lexeme.isMet_shift ⟨⟨kind, text, span⟩, lineBreak⟩ _

end

/-! ## Programs of one declaration -/

namespace Parser

/-- Reads a declaration and adds it to those found before. -/
def itemPart (g : Rules) (found : List Item) : Parser (List Item) := do
  let next ← item g
  pure (next :: found)

theorem keeps_items (levels : Nat) (found : List Item) :
    (loop (turnUntil State.atEnd .items (itemPart (.within levels))) found).Keeps true :=
  ((((series_items ⟨true, true, true⟩ levels).turnAlike []).alike_loop
    (a := found) (by rw [List.append_nil]; rfl)).keepAlike).left

theorem itemPart_eq_ok_iff {found found' : List Item} :
    itemPart g found setting s = .ok found' after ↔
      ∃ i, item g setting s = .ok i after ∧ found' = i :: found := by
  unfold itemPart
  rw [bind_eq_ok_iff]
  constructor
  · rintro ⟨i, t, hitem, hfound⟩
    obtain ⟨rfl, rfl⟩ := Reply.ok.inj hfound
    exact ⟨i, hitem, rfl⟩
  · rintro ⟨i, hitem, rfl⟩
    exact ⟨i, after, hitem, rfl⟩

/-- Where declarations follow and nothing is reported, the first one is read. -/
theorem item_of_items {found found' : List Item} (hmore : s.atEnd = false) (hrunning : s.halted = false)
    (hreply : loop (turnUntil State.atEnd .items (itemPart (.within levels))) found setting s =
      .ok found' after) (hquiet : ¬ after.Noted) :
    ∃ i t, item (.within levels) setting s = .ok i t ∧
      loop (turnUntil State.atEnd .items (itemPart (.within levels))) (i :: found) setting t =
        .ok found' after := by
  have hprogresses : Progresses (turnUntil State.atEnd .items (itemPart (.within levels))) :=
    progresses_programTurn (Rules.follow_within levels)
  rw [loop_eq hprogresses, turnUntil_of_not_stop hmore, Keeps.resilient_eq hrunning] at hreply
  cases hpart : itemPart (.within levels) found setting s with
  | ok next t =>
    rw [hpart] at hreply
    obtain ⟨i, hitem, rfl⟩ := itemPart_eq_ok_iff.1 hpart
    exact ⟨i, t, hitem, hreply⟩
  | fail e t =>
    -- the error would have been recorded, and it would still be there
    rw [hpart] at hreply
    have hnoted : (s.recover .items setting e t).Noted :=
      (State.noted_record ..).kept (@Keeps.kept_recover true ..)
    cases hhalted : (t.record setting e).halted with
    | true =>
      simp only [hhalted, Bool.not_true] at hreply
      obtain ⟨-, rfl⟩ := Reply.ok.inj hreply
      exact absurd hnoted hquiet
    | false =>
      simp only [hhalted, Bool.not_false] at hreply
      have hkept := keeps_items levels found setting (s.recover .items setting e t)
      rw [hreply] at hkept
      exact absurd (hnoted.kept hkept) hquiet

/-- Declarations that were found are not lost. -/
theorem suffix_of_items {found found' : List Item}
    (hreply : loop (turnUntil State.atEnd .items (itemPart g)) found setting s = .ok found' after) :
    found <:+ found' := by
  have hloop : (loop (turnUntil State.atEnd .items (itemPart g)) found setting s).Ends
      (fun found' _ => found <:+ found') fun _ => True := by
    refine ends_loop (fun found' _ => found <:+ found') (fun before s hbefore => ?_)
      (List.suffix_refl found)
    cases hturn : turnUntil State.atEnd .items (itemPart g) before setting s with
    | fail e t => trivial
    | ok r t =>
      show found <:+ r.2
      cases hstop : s.atEnd with
      | true =>
        rw [turnUntil_of_stop hstop] at hturn
        obtain ⟨rfl, -⟩ := Reply.ok.inj hturn
        exact hbefore
      | false =>
        rw [turnUntil_of_not_stop hstop] at hturn
        obtain hsame | ⟨_, _, _, hpart⟩ := Answers.of_resilient ⟨setting, s, t, hturn⟩
        · rwa [hsame]
        · obtain ⟨i, -, hcons⟩ := itemPart_eq_ok_iff.1 hpart
          rw [hcons]
          exact hbefore.trans (List.suffix_cons i before)
  rw [hreply] at hloop
  exact hloop

variable {lexemes : List Lexeme} {program : Program} {i : Item}

/-- A program of one declaration, without an error: all tokens are read as that declaration. -/
theorem item_of_program (h : (Parser.program (.within levels)).ReadsAll setting lexemes program [])
    (hone : program.items = [i]) : (item (.within levels)).ReadsAll setting lexemes i [] := by
  obtain ⟨found, t, hreply, hend, hquiet, hitems⟩ := items_of_program h
  have hfound : found = [i] := by rw [← List.reverse_reverse found, ← hitems, hone]; rfl
  rw [hfound] at hreply
  have hmore : (State.initial setting lexemes).atEnd = false := by
    rw [← Bool.not_eq_true]
    intro hstop
    rw [show itemsUntilEnd levels setting _ = _ from loop_of_stop hstop] at hreply
    cases hreply
  obtain ⟨j, u, hitem, hbehind⟩ := item_of_items hmore rfl hreply hquiet
  obtain ⟨rest, hrest⟩ := suffix_of_items hbehind
  obtain ⟨-, hij⟩ : rest = [] ∧ [j] = [i] :=
    (List.append_eq_singleton_iff.1 hrest).resolve_right (by simp)
  obtain rfl : j = i := List.head_eq_of_cons_eq hij
  have hkept := keeps_items levels [j] setting u
  rw [hbehind] at hkept
  have hrunning : u.halted = false := by
    rw [← Bool.not_eq_true]
    exact fun hhalted => hquiet (.inr (hkept.stays_halted hhalted))
  cases hstop : u.atEnd with
  | true =>
    rw [loop_of_stop hstop] at hbehind
    obtain ⟨-, rfl⟩ := Reply.ok.inj hbehind
    have herrors : u.errors = [] := Classical.byContradiction fun herrors => hquiet (.inl herrors)
    exact ⟨u, hitem, hend, herrors⟩
  | false =>
    -- a second declaration would be read
    obtain ⟨k, v, -, hlast⟩ := item_of_items hstop hrunning hbehind hquiet
    have hlength := (suffix_of_items hlast).length_le
    simp at hlength

/-- All tokens are read as one declaration: that is the program. -/
theorem program_of_item (h : (item (.within levels)).ReadsAll setting lexemes i []) :
    (Parser.program (.within levels)).ReadsAll setting lexemes
      ⟨[i], 0, setting.endOfInput.stop⟩ [] := by
  obtain ⟨t, hitem, hend, herrors⟩ := h
  have hmore : (State.initial setting lexemes).atEnd = false := by
    have hlt := (consumes_item (Rules.follow_within levels)).steady.rest_lt setting _ i t hitem
    rw [← Bool.not_eq_true]
    intro hnone
    have hnil : lexemes = [] := List.isEmpty_iff.1 hnone
    rw [hnil] at hlt
    exact Nat.not_lt_zero _ hlt
  have hprogresses : Progresses (turnUntil State.atEnd .items (itemPart (.within levels))) :=
    progresses_programTurn (Rules.follow_within levels)
  have hstop : t.atEnd = true := by rw [State.atEnd, hend]; rfl
  have hpart : itemPart (.within levels) [] setting (.initial setting lexemes) = .ok [i] t :=
    itemPart_eq_ok_iff.2 ⟨i, hitem, rfl⟩
  have hitems : itemsUntilEnd levels setting (.initial setting lexemes) = .ok [i] t := by
    show loop (turnUntil State.atEnd .items (itemPart (.within levels))) [] setting _ = _
    rw [loop_eq hprogresses, turnUntil_of_not_stop hmore, Keeps.resilient_eq rfl, hpart]
    exact loop_of_stop hstop
  refine ⟨t, program_eq_ok_iff.2 ⟨[i], hitems, ?_⟩, hend, herrors⟩
  rw [State.span, hend]
  rfl

/-! ## What follows the keyword -/

variable {decl : StructDecl}

theorem listIf_of_not {test : TokenKind → Bool} {p : Parser (List α)} (h : test s.kind ≠ true) :
    listIf (acceptIf test) p setting s = .ok [] s := by
  have hnot : acceptIf test setting s = .ok false s := by rw [acceptIf_eq, if_neg h]
  rw [listIf, bind_ok hnot]
  rfl

/-- A struct that is read: its name, its type parameters, and behind them its body or its `where`
clause. -/
theorem params_of_structRest (h : structRest g setting s = .ok decl after) :
    ∃ declName t, name setting s = .ok declName s.advance ∧
      typeParams g setting s.advance = .ok decl.typeParams t ∧
      (t.kind.isSymbol .leftBrace || t.kind.isKeyword .whereKw) = true := by
  unfold structRest at h
  simp only [bind_eq_ok_iff] at h
  obtain ⟨declName, t₁, hname, params, t₂, hparams, clause, t₃, hclause, fields, t₄, hfields, hdecl⟩ := h
  obtain ⟨rfl, -⟩ := Reply.ok.inj hdecl
  obtain rfl : s.advance = t₁ := by
    have hvalue := hname
    rw [name, valueOf_eq] at hvalue
    split at hvalue
    · exact (Reply.ok.inj hvalue).2
    · cases hvalue
  refine ⟨declName, t₂, hname, hparams, ?_⟩
  by_cases hwhere : t₂.kind.isKeyword .whereKw = true
  · rw [hwhere, Bool.or_true]
  · -- without a `where` clause the body follows
    rw [show whereClause g setting t₂ = .ok [] t₂ from listIf_of_not hwhere] at hclause
    obtain ⟨-, rfl⟩ := Reply.ok.inj hclause
    unfold fieldDecls separatedMembers at hfields
    simp only [bind_eq_ok_iff, expect_eq_ok_iff] at hfields
    obtain ⟨_, _, ⟨hbrace, _⟩, _⟩ := hfields
    rw [hbrace]
    rfl

/-- Behind `type`, a struct is found unless an array stands in a bound of one of its parameters. -/
theorem declaresStruct_of_structRest (hg : SkipsTypes g)
    (h : structRest g setting s = .ok decl after) :
    declaresStruct s = !decl.typeParams.any TypeParam.hasArray := by
  obtain ⟨declName, t, hname, hparams, hkind⟩ := params_of_structRest h
  have hisName : s.kind.isName = true := by
    rw [name, valueOf_eq] at hname
    cases hs : s.kind with
    | ident _ => rfl
    | _ =>
      rw [hs] at hname
      cases hname
  have hlook := @ends_typeParams setting s.advance g hg
  rw [hparams] at hlook
  have hlook : if decl.typeParams.any TypeParam.hasArray = true then
      ∃ lexeme rest, (if s.advance.kind.isSymbol .lt then afterAngles 0 s.advance.rest
        else s.advance.rest) = lexeme :: rest ∧ lexeme.token.kind = .symbol .semicolon ∧
          t.rest <:+ rest
      else (if s.advance.kind.isSymbol .lt then afterAngles 0 s.advance.rest
        else s.advance.rest) = t.rest := hlook
  rw [declaresStruct_eq, hisName, Bool.true_and, ← State.rest_advance, firstIs_rest rfl]
  cases harray : decl.typeParams.any TypeParam.hasArray with
  | true =>
    -- the look ends at the semicolon of the array
    rw [if_pos harray] at hlook
    obtain ⟨lexeme, rest, hbehind, hsemicolon, -⟩ := hlook
    rw [hbehind]
    show (lexeme.token.kind.isSymbol .leftBrace || lexeme.token.kind.isKeyword .whereKw) = false
    rw [hsemicolon]
    rfl
  | false =>
    rw [if_neg (by simp [harray])] at hlook
    rw [hlook, firstIs_rest rfl]
    exact hkind

/-- Behind `type`, what is read as a struct behind `struct` is one, unless an array stands in a bound:
then neither an alias nor a struct is found. -/
theorem typeDecl_of_structRest (hg : SkipsTypes g) (hkeyword : s.kind = .keyword .typeKw)
    (h : structRest g setting s.advance = .ok decl after) :
    if decl.typeParams.any TypeParam.hasArray = true then
      ∃ e t, typeDecl g setting s = .fail e t
    else typeDecl g setting s = .ok (.struct decl) after := by
  have hdeclares := declaresStruct_of_structRest hg h
  have hopen : typeDecl g setting s = (do
      if ← query declaresStruct then
        pure (.struct (← structRest g))
      else
        let name ← name
        let typeParams ← typeParams g
        if ← accept .eq then
          let type ← g.type
          semicolon
          pure (.typeAlias ⟨name, typeParams, type⟩)
        else
          expected .aliasOrFields : Parser ItemKind) setting s.advance := by
    have hexpect : expectKeyword .typeKw setting s = .ok () s.advance := by
      rw [expectKeyword, require_eq, hkeyword]
      rfl
    rw [typeDecl, bind_ok hexpect]
  rw [hopen, query_bind, hdeclares]
  cases harray : decl.typeParams.any TypeParam.hasArray with
  | false =>
    show ((structRest g >>= fun decl => pure (ItemKind.struct decl)) setting s.advance) = _
    rw [bind_ok h]
    rfl
  | true =>
    obtain ⟨declName, t, hname, hparams, hkind⟩ := params_of_structRest h
    have hnoAlias : accept .eq setting t = .ok false t := by
      rw [accept, acceptIf_eq, if_neg]
      intro heq
      rw [TokenKind.eq_of_isSymbol heq] at hkind
      exact Bool.false_ne_true hkind
    refine ⟨t.expectedError setting .aliasOrFields, t, ?_⟩
    show ((name >>= _ : Parser ItemKind) setting s.advance) = _
    rw [bind_ok hname, bind_ok hparams, bind_ok hnoAlias]
    rfl

theorem item_of_not_pub (hpub : s.kind.isKeyword .pubKw = false) :
    item g setting s = (itemKind g >>= fun kind => node (s.span setting).start fun id span =>
      (⟨id, .privateVis, kind, span⟩ : Item)) setting s := by
  have hvisibility : visibility setting s = .ok .privateVis s := by
    have hnot : acceptKeyword .pubKw setting s = .ok false s := by
      rw [acceptKeyword, acceptIf_eq, if_neg (by simp [hpub])]
    rw [visibility, bind_ok hnot]
    rfl
  rw [item, start_bind, bind_ok hvisibility]

/-- A declaration that is read behind `struct`. -/
theorem structRest_of_item (hkeyword : s.kind = .keyword .structKw) {i : Item}
    (h : item g setting s = .ok i after) :
    ∃ decl t, structRest g setting s.advance = .ok decl t ∧
      node (s.span setting).start (fun id span => (⟨id, .privateVis, .struct decl, span⟩ : Item))
        setting t = .ok i after := by
  rw [item_of_not_pub (by rw [hkeyword]; rfl), bind_eq_ok_iff] at h
  obtain ⟨kind, t, hkind, hnode⟩ := h
  rw [itemKind, kind_bind, hkeyword] at hkind
  have hstruct : (structRest g >>= fun decl => pure (ItemKind.struct decl)) setting s.advance =
      .ok kind t := hkind
  obtain ⟨decl, t₁, hrest, hdecl⟩ := bind_eq_ok_iff.1 hstruct
  obtain ⟨rfl, rfl⟩ := Reply.ok.inj hdecl
  exact ⟨decl, t₁, hrest, hnode⟩

/-- The same declaration behind `type`, if the look finds it. -/
theorem item_of_structRest (hg : SkipsTypes g) (hkeyword : s.kind = .keyword .typeKw)
    (h : structRest g setting s.advance = .ok decl after) :
    if decl.typeParams.any TypeParam.hasArray = true then ∃ e t, item g setting s = .fail e t
    else item g setting s =
      node (s.span setting).start (fun id span => (⟨id, .privateVis, .struct decl, span⟩ : Item))
        setting after := by
  have htype := typeDecl_of_structRest hg hkeyword h
  have hkind : itemKind g setting s = typeDecl g setting s := by
    rw [itemKind, kind_bind, hkeyword]
  rw [item_of_not_pub (by rw [hkeyword]; rfl)]
  split at htype
  case isTrue harray =>
    obtain ⟨e, t, hfail⟩ := htype
    rw [if_pos harray]
    refine ⟨e, t, ?_⟩
    show Parser.bind (itemKind g) _ setting s = _
    rw [Parser.bind, hkind, hfail]
  case isFalse harray =>
    rw [if_neg harray]
    exact bind_ok (hkind.trans htype)

variable {limits : Limits} {stop : Span} {first first' : Lexeme} {rest rest' : List Lexeme}
  {i : Item}

/-- What is read as a struct behind `struct` is the same struct behind `type`, up to places, unless an
array stands in a bound: then nothing can be read. -/
theorem item_type_of_struct (stop' : Span) (hfirst : first.token.kind = .keyword .structKw)
    (hfirst' : first'.token.kind = .keyword .typeKw)
    (hrest : Lexeme.AlikeUpTo ⟨false, true, false⟩ .none rest rest')
    (h : (item (.within levels)).ReadsAll ⟨limits, stop⟩ (first :: rest) i []) :
    ∃ decl, i.kind = .struct decl ∧
      if decl.typeParams.any TypeParam.hasArray = true then
        (item (.within levels)).Rejects ⟨limits, stop'⟩ (first' :: rest')
      else ∃ i', (item (.within levels)).ReadsAll ⟨limits, stop'⟩ (first' :: rest') i' [] ∧
        relabel .withoutSpans i = relabel .withoutSpans i' := by
  obtain ⟨after, hitem, hend, herrors⟩ := h
  let s : State := .initial ⟨limits, stop⟩ (first :: rest)
  let s' : State := .initial ⟨limits, stop'⟩ (first' :: rest')
  have hitem : item (.within levels) ⟨limits, stop⟩ s = .ok i after := hitem
  obtain ⟨decl, t, hstruct, hnode⟩ := structRest_of_item (s := s) hfirst hitem
  obtain ⟨rfl, hafter⟩ := Reply.ok.inj hnode
  have hendStruct : t.rest = [] := by
    rw [← hafter] at hend
    exact hend
  have hquiet : ¬ t.Noted := by
    have halike : Alike (⟨true, true, true⟩ : Likeness) true true none .unread .closed
        (Like ⟨true, true, true⟩)
      (item (.within levels)) (item (.within levels)) := alike_item (Rules.alike_within levels)
    have hkept := halike.keepAlike.left ⟨limits, stop⟩ s
    rw [hitem] at hkept
    rw [← hafter] at herrors hkept
    rintro (h | h)
    · exact h herrors
    · exact absurd ((hkept.unspent herrors).symm.trans h) Bool.false_ne_true
  -- behind the keyword both readings go alike
  have hsetting : Setting.Comparable ⟨false, true, false⟩ .none ⟨limits, stop⟩ ⟨limits, stop'⟩ :=
    ⟨rfl, nofun⟩
  have htogether : s.advance.Together ⟨false, true, false⟩ .none ⟨limits, stop⟩ ⟨limits, stop'⟩ []
      .unread none s'.advance :=
    ⟨.before hrest (Hand.holds_none _ _), rfl, Nat.le_refl _, nofun, rfl, rfl, rfl, rfl, rfl⟩
  have halike : Alike (⟨false, true, false⟩ : Likeness) true true none .unread .behind
      (Like ⟨false, true, false⟩)
      (structRest (.within levels)) (structRest (.within levels)) :=
    alike_structRest (Rules.alike_within levels) rfl
  have hruns := halike.together hsetting htogether
  rw [hstruct] at hruns
  obtain ⟨decl', t', hstruct', h, hdecl⟩ := hruns.of_done hendStruct hquiet
  -- the look finds the same thing in both of them
  have harray : decl.typeParams.any TypeParam.hasArray = decl'.typeParams.any TypeParam.hasArray := by
    have hdeclares : declaresStruct s.advance = declaresStruct s'.advance :=
      (declaresStruct_alike hrest).resolve_right fun hcut => nomatch hcut.1
    rw [declaresStruct_of_structRest (skips_within levels) hstruct,
      declaresStruct_of_structRest (skips_within levels) hstruct'] at hdeclares
    exact Bool.not_inj hdeclares
  have htype := item_of_structRest (s := s') (skips_within levels) hfirst' hstruct'
  refine ⟨decl, rfl, ?_⟩
  rw [harray]
  split
  case isTrue hsome =>
    rw [if_pos hsome] at htype
    exact htype
  case isFalse hnone =>
    rw [if_neg hnone] at htype
    have hendType : t'.rest = [] := by
      cases h.meet with
      | behind hcut => exact absurd rfl hcut
      | before halike =>
        rw [hendStruct] at halike
        generalize t'.rest = left at halike
        cases halike
        rfl
    refine ⟨_, ⟨_, htype, hendType, h.errors_right⟩, ?_⟩
    have hdecl : relabel .withoutSpans decl = relabel .withoutSpans decl' := hdecl
    have hid : t.nextId = t'.nextId := h.nextId
    show (⟨t.nextId, .privateVis, .struct (relabel .withoutSpans decl), .empty 0⟩ : Item) =
      ⟨t'.nextId, .privateVis, .struct (relabel .withoutSpans decl'), .empty 0⟩
    rw [hdecl, hid]

end Parser

/-! ## Sources -/

namespace Session

variable {tokens : List Token} {limits : Limits} {program : Program}

theorem readsAll_of_errors_eq_nil (h : (ofTokens tokens limits).program.2.errors = []) :
    (Parser.program (.within limits.maxDepth)).ReadsAll ⟨limits, endOf tokens⟩
      (Lexeme.significant false tokens) (ofTokens tokens limits).program.1 [] := by
  have hends := ends_program (Rules.follow_within limits.maxDepth) (ofTokens tokens limits).setting
    (ofTokens tokens limits).state
  cases hreply : Parser.program (.within limits.maxDepth) (ofTokens tokens limits).setting
      (ofTokens tokens limits).state with
  | ok program state =>
    rw [hreply] at hends
    have hprogram : (ofTokens tokens limits).program =
        (program, { ofTokens tokens limits with state }) := program_eq_of_ok hreply
    rw [hprogram] at h ⊢
    exact ⟨state, hreply, hends, h⟩
  | fail e state =>
    rw [hreply] at hends
    exact hends.elim

theorem program_of_readsAll
    (h : (Parser.program (.within limits.maxDepth)).ReadsAll ⟨limits, endOf tokens⟩
      (Lexeme.significant false tokens) program []) :
    (ofTokens tokens limits).program.1 = program ∧ (ofTokens tokens limits).program.2.errors = [] := by
  obtain ⟨state, hreply, -, herrors⟩ := h
  have hprogram : (ofTokens tokens limits).program =
      (program, { ofTokens tokens limits with state }) := program_eq_of_ok hreply
  rw [hprogram]
  exact ⟨rfl, herrors⟩

end Session

/-- The text `struct ` in front of a source is the keyword and a space, and so is `type `. -/
theorem readAll_struct (cs : List Char) :
    Token.readAll 0 ("struct ".toList ++ cs) =
      (Token.readAll 6 (' ' :: cs)).cons ⟨.keyword .structKw, "struct", ⟨0, 6⟩⟩ [] := by
  show Token.readAll 0 ('s' :: (['t', 'r', 'u', 'c', 't', ' '] ++ cs)) = _
  rw [Token.readAll_cons]
  rfl

theorem readAll_type (cs : List Char) :
    Token.readAll 0 ("type ".toList ++ cs) =
      (Token.readAll 4 (' ' :: cs)).cons ⟨.keyword .typeKw, "type", ⟨0, 4⟩⟩ [] := by
  show Token.readAll 0 ('t' :: (['y', 'p', 'e', ' '] ++ cs)) = _
  rw [Token.readAll_cons]
  rfl

/-- The significant tokens of both spellings, and the lexical errors in them. -/
theorem tokenize_struct_type (rest : String) :
    ∃ (first first' : Lexeme) (behind behind' : List Lexeme),
      first.token.kind = .keyword .structKw ∧ first'.token.kind = .keyword .typeKw ∧
      Lexeme.AlikeUpTo ⟨false, true, false⟩ .none behind behind' ∧
      Lexeme.significant false (tokenize ("struct " ++ rest)).tokens = first :: behind ∧
      Lexeme.significant false (tokenize ("type " ++ rest)).tokens = first' :: behind' ∧
      ((tokenize ("struct " ++ rest)).errors = [] ↔ (tokenize ("type " ++ rest)).errors = []) := by
  -- what follows the keyword, at the place where it stands behind `type`
  obtain ⟨ts, hts⟩ : ∃ ts, ts = (Token.readAll 4 (' ' :: rest.toList)).tokens ++
      [Token.endAt (4 + Source.byteLength (' ' :: rest.toList))] := ⟨_, rfl⟩
  have htype : tokenize ("type " ++ rest) =
      ⟨⟨.keyword .typeKw, "type", ⟨0, 4⟩⟩ :: ts, (Token.readAll 4 (' ' :: rest.toList)).errors⟩ := by
    have hkeyword : Source.byteLength "type ".toList = 5 := rfl
    have hspace : ' '.utf8Size = 1 := rfl
    have hlength : 0 + Source.byteLength ("type ".toList ++ rest.toList) =
        4 + Source.byteLength (' ' :: rest.toList) := by
      rw [Source.byteLength_append, Source.byteLength_cons]
      omega
    rw [tokenize, Lexer.finish_ofSource, String.toList_append, hlength, readAll_type, hts]
    rfl
  have hstruct : tokenize ("struct " ++ rest) =
      ⟨⟨.keyword .structKw, "struct", ⟨0, 6⟩⟩ :: ts.map (Token.shift 2),
        (Token.readAll 4 (' ' :: rest.toList)).errors.map (LexicalError.shift 2)⟩ := by
    have hkeyword : Source.byteLength "struct ".toList = 7 := rfl
    have hspace : ' '.utf8Size = 1 := rfl
    have hlength : 0 + Source.byteLength ("struct ".toList ++ rest.toList) =
        4 + Source.byteLength (' ' :: rest.toList) + 2 := by
      rw [Source.byteLength_append, Source.byteLength_cons]
      omega
    have hshift : Token.readAll 6 (' ' :: rest.toList) = (Token.readAll 4 (' ' :: rest.toList)).shift 2 :=
      Token.readAll_add 4 2 _
    rw [tokenize, Lexer.finish_ofSource, String.toList_append, hlength, readAll_struct, hts, hshift,
      List.map_append]
    rfl
  refine ⟨⟨⟨.keyword .structKw, "struct", ⟨0, 6⟩⟩, false⟩, ⟨⟨.keyword .typeKw, "type", ⟨0, 4⟩⟩, false⟩,
    Lexeme.significant false (shiftTokens 2 ts), Lexeme.significant false ts, rfl, rfl,
    Lexeme.alikeUpTo_shift rfl false ts, ?_, ?_, ?_⟩
  · rw [hstruct, shiftTokens_eq]
    rfl
  · rw [htype]
    rfl
  · rw [hstruct, htype, List.map_eq_nil_iff]

theorem program_parseSource (source : String) (limits : Limits) :
    (parseSource source limits).program =
      (Session.ofTokens (tokenize source).tokens limits).program.1 := rfl

/-- Where errors may be reported, none are if there are no lexical ones and none of the grammar. -/
theorem errors_parseSource_eq_nil_iff (source : String) {limits : Limits}
    (hpos : 1 ≤ limits.maxErrors) :
    (parseSource source limits).errors = [] ↔ (tokenize source).errors = [] ∧
      (Session.ofTokens (tokenize source).tokens limits).program.2.errors = [] := by
  have heq : (parseSource source limits).errors = SyntaxError.merge (tokenize source).errors
      (Session.ofTokens (tokenize source).tokens limits).program.2.errors limits.maxErrors := rfl
  rw [heq]
  constructor
  · exact SyntaxError.of_merge_eq_nil hpos
  · rintro ⟨hlexical, hparse⟩
    rw [hlexical, hparse, SyntaxError.merge, List.map_nil, List.map_nil, List.append_nil,
      List.mergeSort_nil, List.take_nil]

/-- A single struct that is read without an error behind `struct` is the same behind `type`, up to
places, unless an array stands in a bound of one of its type parameters.  Then an error is reported. -/
theorem parseSource_type_of_struct (rest : String) (limits : Limits) (decl : StructDecl)
    (hpos : 1 ≤ limits.maxErrors) (hsilent : (parseSource ("struct " ++ rest) limits).errors = [])
    (hstruct : (parseSource ("struct " ++ rest) limits).program.items.map Item.kind =
      [.struct decl]) :
    ((parseSource ("type " ++ rest) limits).errors = [] ↔
        decl.typeParams.any TypeParam.hasArray = false) ∧
      (decl.typeParams.any TypeParam.hasArray = false →
        relabel .withoutSpans (parseSource ("type " ++ rest) limits).program.items =
          relabel .withoutSpans (parseSource ("struct " ++ rest) limits).program.items) := by
  obtain ⟨first, first', behind, behind', hfirst, hfirst', hbehind, htokens, htokens', hlexemes⟩ :=
    tokenize_struct_type rest
  rw [errors_parseSource_eq_nil_iff _ hpos] at hsilent ⊢
  rw [program_parseSource] at hstruct ⊢
  rw [program_parseSource]
  obtain ⟨hlexical, hparse⟩ := hsilent
  have hlexical' : (tokenize ("type " ++ rest)).errors = [] := hlexemes.1 hlexical
  generalize (tokenize ("struct " ++ rest)).tokens = tokens at *
  generalize (tokenize ("type " ++ rest)).tokens = tokens' at *
  -- the only declaration behind `struct`, and what becomes of it behind `type`
  obtain ⟨i, hitems, hkind⟩ := List.map_eq_singleton_iff.1 hstruct
  have hprogram := Session.readsAll_of_errors_eq_nil hparse
  rw [htokens] at hprogram
  obtain ⟨decl', hdecl', htype⟩ := item_type_of_struct (Session.endOf tokens') hfirst hfirst' hbehind
    (item_of_program hprogram hitems)
  obtain rfl : decl = decl' := ItemKind.struct.inj (hkind.symm.trans hdecl')
  rw [← htokens'] at htype
  cases harray : decl.typeParams.any TypeParam.hasArray with
  | false =>
    rw [if_neg (by simp [harray])] at htype
    obtain ⟨i', hitem', hlike⟩ := htype
    obtain ⟨hprogram', hsilent'⟩ := Session.program_of_readsAll (program_of_item hitem')
    refine ⟨⟨fun _ => rfl, fun _ => ⟨hlexical', hsilent'⟩⟩, fun _ => ?_⟩
    rw [hprogram', hitems]
    show [relabel .withoutSpans i'] = [relabel .withoutSpans i]
    rw [hlike]
  | true =>
    rw [if_pos harray] at htype
    obtain ⟨e, t, hfail⟩ := htype
    refine ⟨⟨fun hsilent' => ?_, nofun⟩, nofun⟩
    -- without an error the first declaration would be read
    obtain ⟨found, u, hreply, -, hquiet, -⟩ :=
      items_of_program (Session.readsAll_of_errors_eq_nil hsilent'.2)
    have hmore : (State.initial ⟨limits, Session.endOf tokens'⟩
        (Lexeme.significant false tokens')).atEnd = false := by
      rw [htokens']
      rfl
    obtain ⟨i', v, hitem', -⟩ := item_of_items hmore rfl hreply hquiet
    cases hfail.symm.trans hitem'

/-- The struct that is declared, if the declaration is one. -/
def ItemKind.struct? : ItemKind → Option StructDecl
  | .struct decl => some decl
  | _ => none

theorem ItemKind.struct?_eq_some_iff {kind : ItemKind} {decl : StructDecl} :
    kind.struct? = some decl ↔ kind = .struct decl := by
  cases kind <;> simp [struct?]

/-- Arrays in the `where` clause and in the fields are not looked at, and slices do no harm. -/
theorem parseSource_type_of_struct_slice :
    ∃ decl, (parseSource ("struct " ++ "S<T: A<[u8]>> where T: B<[u8; 4]> \x7b x: [u8; 4] \x7d")
        ⟨20, 5⟩).program.items.map Item.kind = [.struct decl] ∧
      decl.typeParams.any TypeParam.hasArray = false ∧
      (parseSource ("struct " ++ "S<T: A<[u8]>> where T: B<[u8; 4]> \x7b x: [u8; 4] \x7d")
        ⟨20, 5⟩).errors = [] ∧
      (parseSource ("type " ++ "S<T: A<[u8]>> where T: B<[u8; 4]> \x7b x: [u8; 4] \x7d")
        ⟨20, 5⟩).errors = [] := by
  have hsilent : (parseSource ("struct " ++ "S<T: A<[u8]>> where T: B<[u8; 4]> \x7b x: [u8; 4] \x7d")
      ⟨20, 5⟩).errors = [] := List.isEmpty_iff.1 (by decide +kernel)
  have hread : (parseSource ("struct " ++ "S<T: A<[u8]>> where T: B<[u8; 4]> \x7b x: [u8; 4] \x7d")
      ⟨20, 5⟩).program.items.map (fun i => i.kind.struct?.map
        fun decl => decl.typeParams.any TypeParam.hasArray) = [some false] := by decide +kernel
  obtain ⟨i, hitems, hkind⟩ := List.map_eq_singleton_iff.1 hread
  obtain ⟨decl, hdecl, harray⟩ := Option.map_eq_some_iff.1 hkind
  have hstruct := List.map_eq_singleton_iff.2 ⟨i, hitems, ItemKind.struct?_eq_some_iff.1 hdecl⟩
  have hsame := parseSource_type_of_struct _ ⟨20, 5⟩ decl (by decide) hsilent hstruct
  exact ⟨decl, hstruct, harray, hsilent, hsame.1.2 harray⟩

/-- With an array in a bound, what is a struct behind `struct` is refused behind `type`. -/
theorem parseSource_type_refuses_array :
    let one := parseSource ("struct " ++ "S<T: A<[u8; 4]>> \x7b x: u8 \x7d") .standard
    let other := parseSource ("type " ++ "S<T: A<[u8; 4]>> \x7b x: u8 \x7d") .standard
    one.errors.isEmpty = true ∧ one.program.items.map (·.kind.struct?.isSome) = [true] ∧
      other.errors.isEmpty = false ∧ other.program.items.length = 0 := by
  decide +kernel

end ActorFrontend
