import ActorFrontend.Proofs.Course.Items
import ActorFrontend.Proofs.TypeText.Reading
import ActorFrontend.Proofs.WireText.Spelling

/-!
# Reading the parts of wire declarations

What is told by the kinds of its tokens: lists of tags, the types of fields, and variants.
-/

namespace ActorFrontend

variable {setting : Setting} {s : State} {ks rest : List TokenKind} {depth n : Nat}

namespace Parser

/-! ## Single tokens -/

theorem gives_valueOf {α : Type} {k : TokenKind} {value? : TokenKind → Option α} {wanted : Expected}
    {a : α} (hs : s.kinds = k :: ks) (hvalue : value? k = some a) :
    (valueOf value? wanted setting s).Gives ks s.depth fun found => found = a := by
  rw [valueOf_eq, State.kind_eq hs, hvalue]
  exact ⟨rfl, State.kinds_advance hs⟩

theorem gives_integer {value : UInt64} (hs : s.kinds = .int value :: ks) :
    (integer setting s).Gives ks s.depth fun found => found = value :=
  gives_valueOf hs rfl

/-- A test of the token at hand that decides how the reading goes on. -/
theorem gives_ifAccepted {α : Type} {k : TokenKind} {test : TokenKind → Bool} {yes no : Parser α}
    {holds : α → Prop} (hs : s.kinds = k :: ks) (htest : test k = true)
    (hyes : ∀ s' : State, s'.kinds = ks → s'.depth = s.depth → (yes setting s').Gives rest depth holds) :
    ((do if ← acceptIf test then yes else no) setting s).Gives rest depth holds := by
  apply Reply.Gives.bind (gives_accepted hs htest)
  rintro found s' rfl hkinds hdepth
  exact hyes s' hkinds hdepth

theorem gives_ifUnaccepted {α : Type} {test : TokenKind → Bool} {yes no : Parser α} {holds : α → Prop}
    (htest : test s.kind = false)
    (hno : (no setting s).Gives rest depth holds) :
    ((do if ← acceptIf test then yes else no) setting s).Gives rest depth holds := by
  rw [acceptIf_bind, kind_bind, htest]
  exact hno

/-! ## Lists of tags -/

/-- No tag follows where the parenthesis is closed. -/
theorem turns_noTag : Turns (commaTailTurn .rightParen integer) setting depth id
    (.symbol .rightParen :: rest) [] (.symbol .rightParen :: rest) := by
  refine .last fun s hs hdepth => ?_
  exact gives_ifUnaccepted (by rw [State.kind_eq hs]; rfl) ⟨⟨rfl, rfl⟩, hs, hdepth⟩

/-- The tags behind the first one, each after a comma. -/
theorem turns_tags {tags : List UInt64}
    (h : CommaSeparated (fun tag ks => ks = [.int tag]) tags ks) :
    Turns (commaTailTurn .rightParen integer) setting depth id
      (.symbol .comma :: (ks ++ .symbol .rightParen :: rest)) tags (.symbol .rightParen :: rest) := by
  -- a tag that is read behind a comma
  have htag {tag : UInt64} {more : List TokenKind} (s : State)
      (hs : s.kinds = .symbol .comma :: .int tag :: more) (hdepth : s.depth = depth) :
      (commaTailTurn .rightParen integer setting s).Gives more depth
        fun r => r.1 = true ∧ r.2.map id = [tag] := by
    refine gives_ifAccepted hs rfl fun s' hkinds hdepth' => ?_
    rw [sees, query_bind, State.kind_eq hkinds]
    apply Reply.Gives.bind (gives_integer hkinds)
    rintro found s₂ rfl hkinds₂ hdepth₂
    exact ⟨⟨rfl, rfl⟩, hkinds₂, by omega⟩
  induction h with
  | nil =>
    refine .last fun s hs hdepth => gives_ifAccepted hs rfl fun s' hkinds hdepth' => ?_
    rw [sees, query_bind, State.kind_eq hkinds]
    exact ⟨⟨rfl, rfl⟩, hkinds, by omega⟩
  | @last tag ks hks =>
    subst hks
    exact .again htag (by simp) turns_noTag
  | @cons tag tags ks ks' hks _ ih =>
    subst hks
    exact .again htag (by simp) ih

theorem gives_tagList {tags : List UInt64} (h : TagsSpelled tags ks) (hs : s.kinds = ks ++ rest) :
    (tagList setting s).Gives rest s.depth fun found => found = tags := by
  obtain ⟨hne, htags⟩ := h
  -- behind the first one
  have hmore {tag : UInt64} {tags : List UInt64} {ks : List TokenKind}
      (hturns : ∀ depth, Turns (commaTailTurn .rightParen integer) setting depth id ks tags
        (.symbol .rightParen :: rest)) (s : State) (hs : s.kinds = .int tag :: ks) :
      ((do
        let first ← integer
        let more ← commaTail .rightParen integer
        pure (first :: more)) setting s).Gives rest s.depth fun found => found = tag :: tags := by
    apply Reply.Gives.bind (gives_integer hs)
    rintro first s₂ rfl hkinds₂ hdepth₂
    have htail : (commaTail .rightParen integer setting s₂).Gives rest s.depth
        fun found => found = tags := by
      apply Reply.Gives.bind ((hturns s₂.depth).gives hkinds₂ rfl)
      intro found s₃ hfound hkinds₃ hdepth₃
      apply Reply.Gives.bind (gives_require hkinds₃ rfl)
      intro _ s₄ _ hkinds₄ hdepth₄
      exact ⟨by simpa using hfound, hkinds₄, by omega⟩
    apply Reply.Gives.bind htail
    rintro found s₃ rfl hkinds₃ hdepth₃
    exact ⟨rfl, hkinds₃, hdepth₃⟩
  apply Reply.Gives.bind (gives_require hs rfl)
  intro _ s₁ _ hkinds hdepth
  rw [← hdepth]
  cases htags with
  | nil => exact absurd rfl hne
  | last hks =>
    subst hks
    exact hmore (fun depth => turns_noTag) s₁ (by simpa using hkinds)
  | cons hks htags =>
    subst hks
    exact hmore (fun depth => turns_tags htags) s₁ (by simpa using hkinds)

/-! ## Types on the wire -/

/-- A type in so many lists. -/
def inLists : Nat → WireType → WireType
  | 0, type => type
  | lists + 1, type => .list (inLists lists type)

theorem inLists_list (lists : Nat) (type : WireType) :
    inLists lists (.list type) = .list (inLists lists type) := by
  induction lists with
  | zero => rfl
  | succ lists ih => exact congrArg WireType.list ih

/-- What a name alone stands for. -/
def baseType (name : String) : WireType :=
  if wirePrimitives.contains name then .primitive name else .named name

theorem progresses_wireTypeTurn : Progresses wireTypeTurn :=
  progresses fun found (_ _ _) =>
    have hconsumes : (wireTypeTurn found).Consumes false := consumes_wireTypeTurn found
    Stretch.refl.last hconsumes fun _ _ => rfl

/-- A name, and the bracket behind it if that opens a list. -/
theorem wireTypeTurn_eq {name : String} (found : Nat × String) (hs : s.kinds = .ident name :: rest) :
    wireTypeTurn found setting s =
      if (name == "list" && s.advance.kind.isSymbol .leftBracket) = true then
        .ok (true, found.1 + 1, name) s.advance.advance
      else .ok (false, found.1, name) s.advance := by
  rw [wireTypeTurn, valueOf_bind, kind_bind, State.kind_eq hs]
  show (if (name == "list" && s.advance.kind.isSymbol .leftBracket) = true then _ else _ :
    Parser (Bool × Nat × String)) setting s.advance = _
  split <;> rfl

/-- A name behind which no list is opened is the last one. -/
theorem gives_baseName {name : String} (found : Nat × String) (hs : s.kinds = .ident name :: rest)
    (hrest : rest.head? ≠ some (.symbol .leftBracket)) :
    (loop wireTypeTurn found setting s).Gives rest s.depth fun r => r = (found.1, name) := by
  obtain ⟨hkinds, hdepth⟩ := State.kinds_advance hs
  have hclosed : s.advance.kind.isSymbol .leftBracket = false := by
    rw [← Bool.not_eq_true, State.isSymbol_kind_iff, hkinds]
    exact hrest
  rw [loop_eq progresses_wireTypeTurn, wireTypeTurn_eq found hs, hclosed, Bool.and_false]
  exact ⟨rfl, hkinds, hdepth⟩

theorem loop_list (found : Nat × String)
    (hs : s.kinds = .ident "list" :: .symbol .leftBracket :: ks) :
    loop wireTypeTurn found setting s =
      loop wireTypeTurn (found.1 + 1, "list") setting s.advance.advance := by
  rw [loop_eq progresses_wireTypeTurn, wireTypeTurn_eq found hs,
    State.kind_eq (State.kinds_advance hs).1]
  rfl

/-- The lists that a type is in are opened in a row, before the brackets that close them. -/
theorem gives_openLists {type : WireType} (h : type.Spelled ks) : ∃ lists base,
    type = inLists lists (baseType base) ∧
    ∀ found (s : State) rest, s.kinds = ks ++ rest → rest.head? ≠ some (.symbol .leftBracket) →
      (loop wireTypeTurn found setting s).Gives
        (List.replicate lists (.symbol .rightBracket) ++ rest) s.depth
        fun r => r = (found.1 + lists, base) := by
  induction h with
  | @primitive name hname =>
    refine ⟨0, name, ?_, fun found s rest => gives_baseName found⟩
    rw [inLists, baseType, if_pos (List.contains_iff_mem.2 hname)]
  | @named name hname =>
    refine ⟨0, name, ?_, fun found s rest => gives_baseName found⟩
    rw [inLists, baseType, if_neg fun h => hname (List.contains_iff_mem.1 h)]
  | @list elem ks _ ih =>
    obtain ⟨lists, base, rfl, hloop⟩ := ih
    refine ⟨lists + 1, base, rfl, fun found s rest hs hrest => ?_⟩
    obtain ⟨hkinds, hdepth⟩ := State.kinds_advance hs
    obtain ⟨hkinds', hdepth'⟩ := State.kinds_advance hkinds
    have hinner := hloop (found.1 + 1, "list") s.advance.advance (.symbol .rightBracket :: rest)
      (by simpa using hkinds') (by simp)
    have hclosers : List.replicate lists (TokenKind.symbol .rightBracket) ++
        .symbol .rightBracket :: rest =
        List.replicate (lists + 1) (.symbol .rightBracket) ++ rest := by
      rw [List.replicate_succ', List.append_assoc]
      rfl
    rw [loop_list found hs, ← hclosers, ← hdepth, ← hdepth']
    simpa only [Nat.add_assoc, Nat.add_comm 1] using hinner

theorem gives_closeLists (lists : Nat) (type : WireType)
    (hs : s.kinds = List.replicate lists (.symbol .rightBracket) ++ rest) :
    (closeLists lists type setting s).Gives rest s.depth fun found => found = inLists lists type := by
  induction lists generalizing type s with
  | zero => exact ⟨rfl, hs, rfl⟩
  | succ lists ih =>
    apply Reply.Gives.bind (gives_require hs rfl)
    intro _ s' _ hkinds hdepth
    rw [← hdepth, inLists, ← inLists_list]
    exact ih (.list type) hkinds

theorem gives_wireType {type : WireType} (h : type.Spelled ks) (hs : s.kinds = ks ++ rest)
    (hrest : rest.head? ≠ some (.symbol .leftBracket)) :
    (wireType setting s).Gives rest s.depth fun found => found = type := by
  obtain ⟨lists, base, rfl, hopen⟩ := @gives_openLists setting _ _ h
  apply Reply.Gives.bind (hopen (0, "") s rest hs hrest)
  rintro r s' rfl hkinds hdepth
  rw [← hdepth]
  simp only [Nat.zero_add]
  exact gives_closeLists lists (baseType base) hkinds

/-! ## Variants -/

/-- What a field of a variant and its separator stand before. -/
def BeforeFields (rest : List TokenKind) : Prop :=
  ∃ k, rest.head? = some k ∧ (k = .symbol .rightBrace ∨ k = .keyword .varKw ∨ k.isName = true)

theorem BeforeFields.head?_ne {symbol : Symbol} (h : BeforeFields rest) (hsymbol : symbol ≠ .rightBrace) :
    rest.head? ≠ some (.symbol symbol) := by
  obtain ⟨k, hhead, hk⟩ := h
  rw [hhead, ne_eq, Option.some_inj]
  rintro rfl
  simp [TokenKind.isName, hsymbol] at hk

theorem beforeFields_fields {fields : List FieldDecl} (h : InARow (FieldDecl.Spelled n) fields ks) :
    BeforeFields (ks ++ .symbol .rightBrace :: rest) := by
  cases h with
  | nil => exact ⟨_, rfl, .inl rfl⟩
  | cons hf _ =>
    obtain @⟨isVar, name, _, _, _, _, _, _⟩ := hf
    cases isVar with
    | true => exact ⟨_, rfl, .inr (.inl rfl)⟩
    | false => exact ⟨_, rfl, .inr (.inr rfl)⟩

theorem gives_memberSeparator (h : SeparatorTokens ks) (hs : s.kinds = ks ++ rest)
    (hrest : BeforeFields rest) : (memberSeparator setting s).Gives rest s.depth fun _ => True := by
  have hunaccepted {symbol : Symbol} (hsymbol : symbol ≠ .rightBrace) (hkinds : s.kinds = rest) :
      s.kind.isSymbol symbol = false := by
    rw [← Bool.not_eq_true, State.isSymbol_kind_iff, hkinds]
    exact hrest.head?_ne hsymbol
  cases h with
  | none =>
    refine gives_ifUnaccepted (hunaccepted nofun hs) ?_
    have hno : s.kind.isSymbol .semicolon = false := hunaccepted nofun hs
    apply Reply.Gives.bind (gives_unaccepted hno)
    rintro found s' - hkinds hdepth
    exact ⟨trivial, hkinds.trans hs, hdepth⟩
  | comma => exact gives_ifAccepted hs rfl fun s' hkinds hdepth => ⟨trivial, hkinds, hdepth⟩
  | semicolon =>
    refine gives_ifUnaccepted (by rw [State.kind_eq hs]; rfl) ?_
    apply Reply.Gives.bind (gives_accepted hs rfl)
    rintro found s' - hkinds hdepth
    exact ⟨trivial, hkinds, hdepth⟩

theorem endsType_separator (h : SeparatorTokens ks) (hrest : BeforeFields rest) :
    EndsType (ks ++ rest) := by
  cases h with
  | none =>
    have hne (symbol : Symbol) (hsymbol : symbol ≠ .rightBrace) (k : TokenKind)
        (hk : rest.head? = some k) : k ≠ .symbol symbol := by
      rintro rfl
      exact hrest.head?_ne hsymbol hk
    exact fun k hk => ⟨hne .lt nofun k hk, hne .colonColon nofun k hk, hne .arrow nofun k hk⟩
  | comma => exact EndsType.cons_iff.2 ⟨nofun, nofun, nofun⟩
  | semicolon => exact EndsType.cons_iff.2 ⟨nofun, nofun, nofun⟩

variable {g : Rules}

/-- A field of a variant, behind the word that makes it a variable. -/
theorem gives_fieldRest (hg : ReadsInner g setting depth (TypeExpr.Spelled n)) {isVar : Bool}
    {name : String} {type : TypeExpr} (htype : type.Spelled n ks)
    (hs : s.kinds = .ident name :: .symbol .colon :: (ks ++ rest)) (hdepth : s.depth = depth)
    (hrest : EndsType rest) (start : Nat) :
    ((do
      let name ← Parser.name
      expect .colon
      let type ← g.type
      pure ⟨isVar, name, type, ← spanFrom start⟩ : Parser FieldDecl) setting s).Gives rest depth
      fun f => relabel .bare f = ⟨isVar, name, relabel .bare type, .empty 0⟩ := by
  apply Reply.Gives.bind (gives_name hs)
  rintro name s₁ rfl hkinds₁ hdepth₁
  apply Reply.Gives.bind (gives_require hkinds₁ rfl)
  intro _ s₂ _ hkinds₂ hdepth₂
  apply Reply.Gives.bind (hg.reads type ks s₂ rest htype hkinds₂ (by omega) hrest)
  intro type' s₃ htype' hkinds₃ hdepth₃
  refine ⟨?_, hkinds₃, hdepth₃⟩
  rw [← htype']
  rfl

theorem gives_fieldDecl (hg : ReadsInner g setting depth (TypeExpr.Spelled n)) {isVar : Bool}
    {name : String} {type : TypeExpr} (htype : type.Spelled n ks)
    (hs : s.kinds = (if isVar then [.keyword .varKw] else []) ++
      .ident name :: .symbol .colon :: (ks ++ rest)) (hdepth : s.depth = depth)
    (hrest : EndsType rest) : (fieldDecl g setting s).Gives rest depth
      fun f => relabel .bare f = ⟨isVar, name, relabel .bare type, .empty 0⟩ := by
  rw [fieldDecl, start_bind]
  cases isVar with
  | true =>
    apply Reply.Gives.bind (gives_accepted hs rfl)
    rintro found s' rfl hkinds hdepth'
    exact gives_fieldRest hg htype hkinds (by omega) hrest _
  | false =>
    have hname : s.kind.isKeyword .varKw = false := by
      rw [State.kind_eq hs]
      rfl
    apply Reply.Gives.bind (gives_unaccepted hname)
    rintro found s' rfl hkinds hdepth'
    exact gives_fieldRest hg htype (hkinds.trans hs) (by omega) hrest _

/-- A field and its separator. -/
theorem gives_fieldTurn (hg : ReadsInner g setting depth (TypeExpr.Spelled n)) {f : FieldDecl}
    (hf : f.Spelled n ks) (hs : s.kinds = ks ++ rest) (hdepth : s.depth = depth)
    (hrest : BeforeFields rest) : (separatedTurn (fieldDecl g) setting s).Gives rest depth
      fun r => r.1 = true ∧ r.2.map (relabel .bare) = [relabel .bare f] := by
  obtain @⟨isVar, name, type, span, ks, separator, htype, hseparator⟩ := hf
  have hopen : (s.kind.isSymbol .rightBrace || s.atEnd) = false := by
    have hkind : s.kind.isSymbol .rightBrace = false := by
      cases isVar with
      | true => rw [State.kind_eq hs]; rfl
      | false => rw [State.kind_eq hs]; rfl
    have hrest : s.atEnd = false := by
      rw [State.atEnd, List.isEmpty_eq_false_iff, ← List.length_pos_iff, State.kinds_length, hs]
      simp only [List.length_append, List.length_cons]
      omega
    rw [hkind, hrest]
    rfl
  rw [separatedTurn, atBodyEnd, query_bind, hopen]
  have hs' : s.kinds = (if isVar then [.keyword .varKw] else []) ++
      .ident name :: .symbol .colon :: (ks ++ (separator ++ rest)) := by
    simpa using hs
  apply Reply.Gives.bind (gives_fieldDecl hg htype hs' hdepth (endsType_separator hseparator hrest))
  intro f s₁ hf hkinds₁ hdepth₁
  apply Reply.Gives.bind (gives_memberSeparator hseparator hkinds₁ hrest)
  intro _ s₂ _ hkinds₂ hdepth₂
  refine ⟨⟨rfl, ?_⟩, hkinds₂, hdepth₂.trans hdepth₁⟩
  rw [List.map_singleton, hf]
  rfl

theorem gives_fieldDecls (hg : ReadsInner g setting depth (TypeExpr.Spelled n))
    {fields : List FieldDecl} (hfields : InARow (FieldDecl.Spelled n) fields ks)
    (hs : s.kinds = .symbol .leftBrace :: (ks ++ .symbol .rightBrace :: rest)) (hdepth : s.depth = depth) :
    (fieldDecls g setting s).Gives rest depth
      fun fields' => relabel .bare fields' = relabel .bare fields := by
  have hturns : Turns (separatedTurn (fieldDecl g)) setting depth (relabel .bare)
      (ks ++ .symbol .rightBrace :: rest) (fields.map (relabel .bare)) (.symbol .rightBrace :: rest) := by
    clear hs
    induction hfields with
    | nil =>
      refine .last fun s hs hdepth => ?_
      have hclosed : s.kind.isSymbol .rightBrace = true := by
        rw [State.kind_eq hs]
        rfl
      rw [separatedTurn, atBodyEnd, query_bind, hclosed]
      exact ⟨⟨rfl, rfl⟩, hs, hdepth⟩
    | @cons f fields ks ks' hf hfields ih =>
      show Turns _ setting depth _ _ ([relabel .bare f] ++ fields.map (relabel .bare)) _
      refine .again (fun s hs hdepth => ?_) ?_ ih
      · rw [List.append_assoc] at hs
        exact gives_fieldTurn hg hf hs hdepth (beforeFields_fields hfields)
      · obtain @⟨isVar, _, _, _, _, _, _, _⟩ := hf
        simp
        omega
  apply Reply.Gives.bind (gives_require hs rfl)
  intro _ s₁ _ hkinds₁ hdepth₁
  apply Reply.Gives.bind (hturns.gives hkinds₁ (by omega))
  intro fields' s₂ hfields' hkinds₂ hdepth₂
  apply Reply.Gives.bind (gives_require hkinds₂ rfl)
  intro _ s₃ _ hkinds₃ hdepth₃
  exact ⟨hfields', hkinds₃, hdepth₃.trans hdepth₂⟩

/-- A variant is its name and what follows that. -/
theorem gives_variant_of_kind {v : Variant} (hs : s.kinds = .ident v.name :: ks)
    (hkind : ∀ s' : State, s'.kinds = ks → s'.depth = s.depth →
      (variantKind g setting s').Gives rest depth
        fun kind => relabel .bare kind = relabel .bare v.kind) :
    (variant g setting s).Gives rest depth fun v' => relabel .bare v' = relabel .bare v := by
  rw [variant, start_bind]
  apply Reply.Gives.bind (gives_name hs)
  rintro name s₁ rfl hkinds₁ hdepth₁
  apply Reply.Gives.bind (hkind s₁ hkinds₁ hdepth₁)
  intro kind s₂ hkind hkinds₂ hdepth₂
  exact ⟨congrArg (fun kind => (⟨v.name, kind, .empty 0⟩ : Variant)) hkind, hkinds₂, hdepth₂⟩

/-- Behind a variant stands a semicolon. -/
theorem gives_variant (hg : ReadsInner g setting depth (TypeExpr.Spelled n)) {v : Variant}
    (hv : v.Spelled n ks) (hs : s.kinds = ks ++ .symbol .semicolon :: rest) (hdepth : s.depth = depth) :
    (variant g setting s).Gives (.symbol .semicolon :: rest) depth
      fun v' => relabel .bare v' = relabel .bare v := by
  cases hv with
  | unit =>
    refine gives_variant_of_kind hs fun s₁ hkinds₁ hdepth₁ => ?_
    refine gives_ifUnaccepted (by rw [State.kind_eq hkinds₁]; rfl) ?_
    rw [sees, query_bind, State.kind_eq hkinds₁]
    exact ⟨rfl, hkinds₁, by omega⟩
  | @tuple name types span ks hname htypes =>
    refine gives_variant_of_kind hs fun s₁ hkinds₁ hdepth₁ => ?_
    refine gives_ifAccepted hkinds₁ rfl fun s₂ hkinds₂ hdepth₂ => ?_
    have hkinds₂ : s₂.kinds = ks ++ .symbol .rightParen :: .symbol .semicolon :: rest := by
      simpa using hkinds₂
    apply Reply.Gives.bind (gives_commaList hg.reads (hg.starts_ne .rightParen rfl) (.inr rfl) htypes
      hkinds₂ (by omega))
    intro types' s₃ htypes' hkinds₃ hdepth₃
    exact ⟨congrArg VariantKind.tuple htypes', hkinds₃, hdepth₃⟩
  | @struct name fields span ks hfields =>
    refine gives_variant_of_kind hs fun s₁ hkinds₁ hdepth₁ => ?_
    refine gives_ifUnaccepted (by rw [State.kind_eq hkinds₁]; rfl) ?_
    rw [sees, query_bind, State.kind_eq hkinds₁]
    have hkinds₁ : s₁.kinds =
        .symbol .leftBrace :: (ks ++ .symbol .rightBrace :: .symbol .semicolon :: rest) := by
      simpa using hkinds₁
    apply Reply.Gives.bind (gives_fieldDecls hg hfields hkinds₁ (by omega))
    intro fields' s₂ hfields' hkinds₂ hdepth₂
    exact ⟨congrArg VariantKind.struct hfields', hkinds₂, hdepth₂⟩

end Parser

end ActorFrontend
