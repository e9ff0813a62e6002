import ActorFrontend.Proofs.Alike.Statements

/-!
# Looking past type parameters

Whether `type` starts a struct or an alias is told by a look past a group in angle brackets, over any
number of tokens.  Where that look tells different things in two token sequences, the reading that it
leads to does not get past the place where they differ.
-/

namespace ActorFrontend

open ActorFrontend.Parser

variable {L : Likeness} {g g' : Rules}

/-- The tokens of a sequence hold no equals sign. -/
def LacksEq (rest : List Lexeme) : Prop := ∀ lexeme ∈ rest, lexeme.token.kind.isSymbol .eq = false

theorem LacksEq.kind {s : State} (h : LacksEq s.rest) : s.kind.isSymbol .eq = false := by
  unfold State.kind
  cases hrest : s.rest with
  | nil => rfl
  | cons lexeme rest => exact h lexeme (by rw [hrest]; exact List.mem_cons_self)

namespace Parser

/-- A group in angle brackets that a brace cuts off is not left before the cut, so that no equals sign
stands there. -/
theorem afterAngles_alike {cut : Cut} {rest rest' : List Lexeme}
    (h : Lexeme.AlikeUpTo L cut rest rest') (depth : Nat) :
    Lexeme.AlikeUpTo L cut (afterAngles depth rest) (afterAngles depth rest') ∨
      (cut.symbol? = some .rightBrace ∧ afterAngles depth rest = [] ∧ LacksEq rest) := by
  induction rest generalizing rest' depth with
  | nil =>
    cases h
    exact .inl .nil
  | cons lexeme rest ih =>
    have hlacks (hkind : lexeme.token.kind.isSymbol .eq = false) (h : LacksEq rest) :
        LacksEq (lexeme :: rest) := by
      intro other hmem
      obtain rfl | hmem := List.mem_cons.1 hmem
      · exact hkind
      · exact h other hmem
    cases h with
    | last hcut hkind hkind' hspan =>
      cases cut with
      | none => cases hcut
      | semicolon left right =>
        cases hcut
        simp only [afterAngles, hkind, hkind']
        exact .inl (.last rfl hkind hkind' hspan)
      | brace right =>
        cases hcut
        have hnil : afterAngles depth (lexeme :: []) = [] := by
          simp only [afterAngles, hkind]
        exact .inr ⟨rfl, hnil, hlacks (by rw [hkind]; rfl) (List.forall_mem_nil _)⟩
    | @cons _ _ lexeme' _ rest' hkind htext hspan hmet h =>
      have hwhole := Lexeme.AlikeUpTo.cons hkind htext hspan hmet h
      unfold afterAngles
      generalize lexeme.token.kind = k at hkind hlacks
      generalize lexeme'.token.kind = k' at hkind
      have hon (depth : Nat) (hk : k.isSymbol .eq = false) :
          Lexeme.AlikeUpTo L cut (afterAngles depth rest) (afterAngles depth rest') ∨
            (cut.symbol? = some .rightBrace ∧ afterAngles depth rest = [] ∧
              LacksEq (lexeme :: rest)) :=
        (ih h depth).imp_right fun h => ⟨h.1, h.2.1, hlacks hk h.2.2⟩
      cases hkind with
      | interpolated => exact hon depth rfl
      | same =>
        split
        · exact hon _ rfl
        · split
          · exact .inl h
          · exact hon _ rfl
        · exact .inl hwhole
        · exact .inl hwhole
        · exact .inl hwhole
        case h_6 hne =>
          refine hon depth ?_
          cases hk : k.isSymbol .eq with
          | false => rfl
          | true => exact absurd (TokenKind.eq_of_isSymbol hk) (by simpa using hne)

/-- A test of the first token. -/
def firstIs (test : TokenKind → Bool) : List Lexeme → Bool
  | lexeme :: _ => test lexeme.token.kind
  | [] => false

theorem firstIs_rest {s : State} {test : TokenKind → Bool} (hend : test .endOfFile = false) :
    firstIs test s.rest = test s.kind := by
  unfold firstIs State.kind
  cases s.rest with
  | nil => exact hend.symm
  | cons lexeme rest => rfl

theorem firstIs_eq {cut : Cut} {rest rest' : List Lexeme} {test : TokenKind → Bool}
    (hstrings : ∀ fs fs', test (.interpolated fs) = test (.interpolated fs'))
    (h : Lexeme.AlikeUpTo L cut rest rest') : firstIs test rest = firstIs test rest' := by
  cases h with
  | nil => rfl
  | last _ hkind hkind' => simp only [firstIs, hkind, hkind']
  | cons hkind => exact hkind.test_eq _ hstrings

theorem declaresStruct_eq (s : State) : declaresStruct s =
    (s.kind.isName && firstIs (fun k => k.isSymbol .leftBrace || k.isKeyword .whereKw)
      (if firstIs (·.isSymbol .lt) (s.rest.drop 1) then afterAngles 0 (s.rest.drop 1)
        else s.rest.drop 1)) := rfl

theorem declaresStruct_alike {cut : Cut} {s s' : State} (h : Lexeme.AlikeUpTo L cut s.rest s'.rest) :
    declaresStruct s = declaresStruct s' ∨
      (cut.symbol? = some .rightBrace ∧ declaresStruct s = false ∧ LacksEq s.rest) := by
  rw [declaresStruct_eq, declaresStruct_eq, ← h.kind_alike.isName_eq]
  cases hname : s.kind.isName with
  | false => exact .inl rfl
  | true =>
    have hplain (symbol : Symbol) : s.kind ≠ .symbol symbol := by
      intro heq
      rw [heq] at hname
      cases hname
    have hnext := h.advance (hplain _) (hplain _)
    rw [State.rest_advance, State.rest_advance] at hnext
    rw [← firstIs_eq (fun _ _ => rfl) hnext]
    split
    · obtain hangles | ⟨hcut, hnil, hlacks⟩ := afterAngles_alike hnext 0
      · exact .inl (by rw [firstIs_eq (fun _ _ => rfl) hangles])
      · refine .inr ⟨hcut, by rw [hnil]; rfl, ?_⟩
        cases hrest : s.rest with
        | nil => exact nofun
        | cons lexeme rest =>
          rw [hrest] at hlacks
          intro other hmem
          obtain rfl | hmem := List.mem_cons.1 hmem
          · rw [State.kind, hrest] at hname
            cases hk : other.token.kind <;> simp_all [TokenKind.isName, TokenKind.isSymbol]
          · exact hlacks other hmem
    · exact .inl (by rw [firstIs_eq (fun _ _ => rfl) hnext])

/-- An alias needs an equals sign. -/
theorem fails_alias (hg : g.Follow) {α : Type} {yes : String → List TypeParam → Parser α}
    {wanted : Expected} {setting : Setting} {s : State} (h : LacksEq s.rest) :
    ∃ e after, (do
      let name ← name
      let typeParams ← typeParams g
      if ← accept .eq then yes name typeParams else expected wanted : Parser α) setting s =
        .fail e after := by
  have hname := @consumes_name false setting s 0
  cases hreply : name setting s with
  | fail e after =>
    refine ⟨e, after, ?_⟩
    change bind name _ setting s = _
    rw [bind, hreply]
  | ok word s₁ =>
    rw [hreply] at hname
    rw [bind_ok hreply]
    have hparams := @mayConsume_typeParams false _ hg.type setting s₁ 0
    cases hreply' : typeParams g setting s₁ with
    | fail e after =>
      refine ⟨e, after, ?_⟩
      change bind (typeParams g) _ setting s₁ = _
      rw [bind, hreply']
    | ok params s₂ =>
      rw [hreply'] at hparams
      have hrest : s₂.rest <:+ s.rest := hparams.course.rest_suffix.trans hname.course.rest_suffix
      have hkind : s₂.kind.isSymbol .eq = false :=
        LacksEq.kind fun lexeme hmem => h lexeme (hrest.subset hmem)
      have haccept : accept .eq setting s₂ = .ok false s₂ := by
        rw [accept, acceptIf_eq, hkind]
        rfl
      rw [bind_ok hreply', bind_ok haccept]
      exact ⟨_, _, rfl⟩

/-! ## Where a semicolon is missing -/

/-- What stands behind a group in angle brackets, if there is one. -/
def behindAngles (rest : List Lexeme) : List Lexeme :=
  if firstIs (·.isSymbol .lt) rest then afterAngles 0 rest else rest

/-- Whether the fields of a struct follow, or its `where` clause. -/
def startsFields (k : TokenKind) : Bool := k.isSymbol .leftBrace || k.isKeyword .whereKw

theorem declaresStruct_eq_behindAngles (s : State) : declaresStruct s =
    (s.kind.isName && firstIs startsFields (behindAngles s.advance.rest)) := by
  rw [State.rest_advance]
  rfl

theorem firstIs_resembling {rest rest' : List Lexeme} {test : TokenKind → Bool}
    (hstrings : ∀ fs fs', test (.interpolated fs) = test (.interpolated fs'))
    (h : Lexeme.Resembling rest rest') : firstIs test rest = firstIs test rest' := by
  cases h with
  | nil => rfl
  | cons hkind => exact hkind.test_eq _ hstrings

theorem afterAngles_resembling {rest rest' : List Lexeme} (h : Lexeme.Resembling rest rest')
    (depth : Nat) : Lexeme.Resembling (afterAngles depth rest) (afterAngles depth rest') := by
  induction h generalizing depth with
  | nil => exact .nil
  | @cons lexeme lexeme' rest rest' hkind h ih =>
    have hwhole : Lexeme.Resembling (lexeme :: rest) (lexeme' :: rest') := .cons hkind h
    unfold afterAngles
    generalize lexeme.token.kind = k at hkind
    generalize lexeme'.token.kind = k' at hkind
    cases hkind with
    | interpolated => exact ih depth
    | same =>
      split
      · exact ih _
      · split
        · exact h
        · exact ih _
      · exact hwhole
      · exact hwhole
      · exact hwhole
      · exact ih _

theorem behindAngles_resembling {rest rest' : List Lexeme} (h : Lexeme.Resembling rest rest') :
    Lexeme.Resembling (behindAngles rest) (behindAngles rest') := by
  unfold behindAngles
  rw [firstIs_resembling (fun _ _ => rfl) h]
  split
  · exact afterAngles_resembling h 0
  · exact h

theorem declaresStruct_resembling {s s' : State} (h : Lexeme.Resembling s.rest s'.rest) :
    declaresStruct s = declaresStruct s' := by
  rw [declaresStruct_eq_behindAngles, declaresStruct_eq_behindAngles, h.kind_resembles.isName_eq,
    firstIs_resembling (fun _ _ => rfl) (behindAngles_resembling h.advance)]

/-- The second sequence goes on with its semicolon. -/
def AtGap (behind rest' : List Lexeme) : Prop :=
  ∃ semicolon behind', rest' = semicolon :: behind' ∧ semicolon.token.kind = .symbol .semicolon ∧
    behind'.length = behind.length

theorem afterAngles_gapped {behind rest rest' : List Lexeme} (h : Lexeme.Gapped behind rest rest')
    (depth : Nat) : Lexeme.Gapped behind (afterAngles depth rest) (afterAngles depth rest') ∨
      AtGap behind (afterAngles depth rest') := by
  induction h generalizing depth with
  | @here semicolon behind' hkind h =>
    refine .inr ⟨semicolon, behind', ?_, hkind, h.length_eq.symm⟩
    rw [afterAngles, hkind]
  | @cons lexeme lexeme' rest rest' hkind h ih =>
    have hwhole := Lexeme.Gapped.cons hkind h
    unfold afterAngles
    generalize lexeme.token.kind = k at hkind
    generalize lexeme'.token.kind = k' at hkind
    cases hkind with
    | interpolated => exact ih depth
    | same =>
      split
      · exact ih _
      · split
        · exact .inl h
        · exact ih _
      · exact .inl hwhole
      · exact .inl hwhole
      · exact .inl hwhole
      · exact ih _

/-- Where the look tells something different because of the semicolon, it has come to that. -/
theorem declaresStruct_gapped {behind : List Lexeme} {s s' : State}
    (h : Lexeme.Gapped behind s.rest s'.rest) (hlt : behind.length < s.rest.length) :
    declaresStruct s = declaresStruct s' ∨ declaresStruct s' = false ∧ s'.kind.isName = true ∧
      AtGap behind (behindAngles s'.advance.rest) := by
  have hnext := h.advance hlt
  rw [declaresStruct_eq_behindAngles, declaresStruct_eq_behindAngles,
    (h.kind_resembles hlt).isName_eq]
  generalize s.advance.rest = rest at hnext
  generalize s'.advance.rest = rest' at hnext
  cases hname : s'.kind.isName with
  | false => exact .inl rfl
  | true =>
    have hgap {rest rest' : List Lexeme} (h : Lexeme.Gapped behind rest rest' ∨ AtGap behind rest') :
        firstIs startsFields rest = firstIs startsFields rest' ∨ AtGap behind rest' := by
      obtain h | h := h
      · cases h with
        | here hkind h => exact .inr ⟨_, _, rfl, hkind, h.length_eq.symm⟩
        | cons hkind _ => exact .inl (hkind.test_eq startsFields fun _ _ => rfl)
      · exact .inr h
    have hbehind : Lexeme.Gapped behind (behindAngles rest) (behindAngles rest') ∨
        AtGap behind (behindAngles rest') := by
      unfold behindAngles
      cases hnext with
      | @here semicolon behind' hkind h =>
        refine .inr ⟨semicolon, behind', if_neg ?_, hkind, h.length_eq.symm⟩
        rw [firstIs, hkind]
        exact Bool.false_ne_true
      | @cons lexeme lexeme' rest rest' hkind h =>
        have hopens : firstIs (·.isSymbol .lt) (lexeme :: rest) =
            firstIs (·.isSymbol .lt) (lexeme' :: rest') := hkind.isSymbol_eq .lt
        rw [hopens]
        split
        · exact afterAngles_gapped (.cons hkind h) 0
        · exact .inl (.cons hkind h)
    obtain heq | hat := hgap hbehind
    · exact .inl (by rw [heq])
    · refine .inr ⟨?_, rfl, hat⟩
      obtain ⟨semicolon, behind', heq, hkind, -⟩ := hat
      rw [heq, firstIs, hkind]
      rfl

/-- The `where` clause and the fields of a struct. -/
def structBody (g : Rules) (name : String) (typeParams : List TypeParam) : Parser StructDecl := do
  let whereClause ← whereClause g
  let fields ← fieldDecls g
  pure ⟨name, typeParams, whereClause, fields⟩

theorem mayConsume_structBody (hg : g.Follow) (name : String) (typeParams : List TypeParam) :
    (structBody g name typeParams).MayConsume false := by
  intro setting s n
  apply Stretch.refl.bind (mayConsume_whereClause hg.type)
  intro whereClause s h
  apply h.bind (consumes_fieldDecls hg.type)
  intro fields s h
  exact h.done nofun

theorem misses_structBody (setting : Setting) {s : State} (hs : s.kind = .symbol .semicolon)
    (name : String) (typeParams : List TypeParam) :
    (structBody g name typeParams).Misses s.rest.length setting s := by
  have hwhere : whereClause g setting s = .ok [] s := by
    refine (bind_ok (?_ : acceptKeyword .whereKw setting s = .ok false s)).trans rfl
    rw [acceptKeyword, acceptIf_eq, hs]
    rfl
  refine .of_ok hwhere (Misses.bind (Misses.bind (misses_require ?_ _) _) _)
  rw [hs]
  rfl

theorem state_map {α β : Type} (p : Parser α) (f : α → β) (setting : Setting) (s : State) :
    ((p >>= fun a => pure (f a)) setting s).state = (p setting s).state := by
  cases hreply : p setting s with
  | ok a after =>
    rw [bind_ok hreply]
    rfl
  | fail e after =>
    rw [bind_fail hreply]
    rfl

/-- What a declaration that `type` starts is read as. -/
def typeRest (g : Rules) (isStruct : Bool) : Parser ItemKind :=
  if isStruct then do
    pure (.struct (← structRest g))
  else do
    let name ← name
    let typeParams ← typeParams g
    if ← accept .eq then
      let type ← g.type
      semicolon
      pure (.typeAlias ⟨name, typeParams, type⟩)
    else
      expected .aliasOrFields

theorem deflected_typeRest {behind : List Lexeme} {setting setting' : Setting} {s s' : State}
    (hg : g.Follow) (hg' : g'.Follow) (hskips : SkipsTypes g')
    (h : Lexeme.Gapped behind s.rest s'.rest) (hlt : behind.length < s.rest.length) :
    declaresStruct s = declaresStruct s' ∨ Deflected behind (typeRest g (declaresStruct s))
      (typeRest g' (declaresStruct s)) (typeRest g' (declaresStruct s')) setting setting' s s' := by
  obtain heq | ⟨hnot, hname, hat⟩ := declaresStruct_gapped h hlt
  · exact .inl heq
  cases hstruct : declaresStruct s with
  | false => exact .inl hnot.symm
  | true =>
  rw [hnot]
  right
  obtain ⟨word, hword⟩ : ∃ word, s'.kind = .ident word := by
    cases hk : s'.kind with
    | ident word => exact ⟨word, rfl⟩
    | _ =>
      rw [hk] at hname
      cases hname
  have hread : name setting' s' = .ok word s'.advance := by rw [name, valueOf_eq, hword]
  have hparams := @ends_typeParams setting' s'.advance g' hskips
  cases hreply : typeParams g' setting' s'.advance with
  | fail e t =>
    -- neither reading gets past the parameters
    have hfail : structRest g' setting' s' = .fail e t :=
      (bind_ok hread).trans (bind_fail hreply)
    refine .inr (.inr ?_)
    exact (bind_fail hfail).trans ((bind_ok hread).trans (bind_fail hreply)).symm
  | ok params t =>
    obtain ⟨semicolon, behind', hbehind, hsemicolon, hlength⟩ := hat
    rw [behindAngles, firstIs_rest rfl] at hbehind
    have hbody : structRest g' setting' s' = structBody g' word params setting' t :=
      (bind_ok hread).trans (bind_ok hreply)
    rw [hreply] at hparams
    change if params.any TypeParam.hasArray = true then ∃ lexeme rest,
      (if s'.advance.kind.isSymbol .lt = true then _ else _) = lexeme :: rest ∧
        lexeme.token.kind = .symbol .semicolon ∧ t.rest <:+ rest
      else (if s'.advance.kind.isSymbol .lt = true then _ else _) = t.rest at hparams
    rw [hbehind] at hparams
    split at hparams
    · -- the parameters go on past the semicolon, which the length of an array follows
      obtain ⟨_, _, heq, -, hsuffix⟩ := hparams
      cases heq
      refine .inr (.inl ⟨?_, ?_⟩)
      · rw [typeRest, if_pos rfl, state_map, hbody, ← hlength]
        exact Nat.le_trans ((mayConsume_structBody hg' word params).rest_le setting' t)
          hsuffix.length_le
      · rw [typeRest, if_pos rfl, state_map]
        exact ((consumes_structRest hg.type).errors_eq setting s).1
    · -- the semicolon stands in place of the fields
      have hkind : t.kind = .symbol .semicolon := by
        rw [State.kind, ← hparams]
        exact hsemicolon
      obtain ⟨e, after, hfail, hleft⟩ :=
        misses_structBody (g := g') setting' hkind word params
      refine .inl ⟨e, after, bind_fail (hbody.trans hfail), ?_⟩
      rw [hleft, ← hparams, List.length_cons, hlength]

end Parser

end ActorFrontend
