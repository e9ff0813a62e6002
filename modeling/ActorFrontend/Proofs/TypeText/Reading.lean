import ActorFrontend.Proofs.Alike.Expressions
import ActorFrontend.Proofs.Precedence.Answers
import ActorFrontend.Proofs.TypeText.Spelling

/-!
# Reading what spells a type

A rule reads a type from any of its spellings, if the readings for what is within do, and if nothing
follows that could go on with the type.
-/

namespace ActorFrontend

variable {α β : Type} {setting : Setting} {s : State} {k : TokenKind} {ks rest : List TokenKind}
  {depth n : Nat}

@[simp] theorem Renaming.span_bare (span : Span) : Renaming.bare.span span = .empty 0 := rfl

@[simp] theorem Renaming.id_bare (id : NodeId) : Renaming.bare.id id = 0 := rfl

/-! ## Repetitions -/

/-- The turns of a repetition that starts at tokens of the kinds `ks`: what they find, in the eyes of
`view`, and the tokens that are left. -/
inductive Parser.Turns (step : Parser (Bool × List α)) (setting : Setting) (depth : Nat)
    (view : α → β) : List TokenKind → List β → List TokenKind → Prop where
  | last {ks rest : List TokenKind} {found : List β}
      (h : ∀ s : State, s.kinds = ks → s.depth = depth →
        (step setting s).Gives rest depth fun r => r.1 = false ∧ r.2.map view = found) :
      Turns step setting depth view ks found rest
  | again {ks ks' rest : List TokenKind} {found more : List β}
      (h : ∀ s : State, s.kinds = ks → s.depth = depth →
        (step setting s).Gives ks' depth fun r => r.1 = true ∧ r.2.map view = found)
      (hless : ks'.length < ks.length) (hmore : Turns step setting depth view ks' more rest) :
      Turns step setting depth view ks (found ++ more) rest

namespace Parser

theorem Turns.gives_repeatAlong {step : Parser (Bool × List α)} {view : α → β} {found : List β}
    (h : Turns step setting depth view ks found rest) (hs : s.kinds = ks) (hdepth : s.depth = depth)
    {fuel : List Lexeme} (hfuel : ks.length ≤ fuel.length) (turns : List (List α)) :
    (repeatAlong (collectTurn step) fuel turns setting s).Gives rest depth
      fun turns' => turns'.reverse.flatten.map view = turns.reverse.flatten.map view ++ found := by
  induction h generalizing s fuel turns with
  | last h =>
    obtain ⟨⟨again, as⟩, s', hstep, ⟨hagain, hfound⟩, hkinds, hdepth'⟩ := (h s hs hdepth).exists_eq
    have hagain : again = false := hagain
    subst hagain
    rw [repeatAlong_last (collectTurn_eq hstep turns)]
    refine ⟨?_, hkinds, hdepth'⟩
    rw [← hfound]
    simp
  | again h hless _ ih =>
    obtain ⟨⟨again, as⟩, s', hstep, ⟨hagain, hfound⟩, hkinds, hdepth'⟩ := (h s hs hdepth).exists_eq
    have hagain : again = true := hagain
    subst hagain
    cases fuel with
    | nil => exact absurd (Nat.lt_of_lt_of_le hless hfuel) (Nat.not_lt_zero _)
    | cons lexeme fuel =>
      rw [List.length_cons] at hfuel
      rw [repeatAlong_again (collectTurn_eq hstep turns)]
      refine (ih hkinds hdepth' (by omega) (as :: turns)).imp (fun turns' s'' hturns => ?_)
        fun _ h => h
      refine ⟨hturns.1.trans ?_, hturns.2⟩
      rw [← hfound]
      simp

/-- A repetition finds what its turns find. -/
theorem Turns.gives {step : Parser (Bool × List α)} {view : α → β} {found : List β}
    (h : Turns step setting depth view ks found rest) (hs : s.kinds = ks) (hdepth : s.depth = depth) :
    (collect step setting s).Gives rest depth fun as => as.map view = found := by
  have hfuel : ks.length ≤ s.rest.length := Nat.le_of_eq (by rw [State.kinds_length, hs])
  apply Reply.Gives.bind (h.gives_repeatAlong hs hdepth hfuel [])
  intro turns s' hturns hkinds hdepth'
  exact ⟨hturns, hkinds, hdepth'⟩

/-- A test of the token at hand that succeeds. -/
theorem gives_accepted {test : TokenKind → Bool} (hs : s.kinds = k :: ks) (htest : test k = true) :
    (acceptIf test setting s).Gives ks s.depth fun found => found = true := by
  rw [acceptIf_eq, State.kind_eq hs, htest]
  exact ⟨rfl, State.kinds_advance hs⟩

end Parser

/-! ## What ends a type -/

/-- No token follows that could go on with a type. -/
def EndsType (rest : List TokenKind) : Prop :=
  ∀ k, rest.head? = some k →
    k ≠ .symbol .lt ∧ k ≠ .symbol .colonColon ∧ k ≠ .symbol .arrow

theorem EndsType.nil : EndsType [] := nofun

theorem EndsType.cons_iff : EndsType (k :: rest) ↔
    k ≠ .symbol .lt ∧ k ≠ .symbol .colonColon ∧ k ≠ .symbol .arrow := by
  simp [EndsType]

theorem EndsType.isSymbol_eq_false {symbol : Symbol} (h : EndsType rest) (hs : s.kinds = rest)
    (hsymbol : symbol = .lt ∨ symbol = .colonColon ∨ symbol = .arrow) :
    s.kind.isSymbol symbol = false := by
  rw [← Bool.not_eq_true, State.isSymbol_kind_iff, hs]
  intro hhead
  obtain ⟨hlt, hcolons, harrow⟩ := h _ hhead
  obtain rfl | rfl | rfl := hsymbol
  · exact hlt rfl
  · exact hcolons rfl
  · exact harrow rfl

/-! ## Lists -/

/-- Whatever tokens spell something that the parser is to read, it reads all of them and, but for
places and numbers, that, if what follows `ends` it. -/
def Parser.ReadsUpTo [Relabeled α] (ends : List TokenKind → Prop) (p : Parser α) (setting : Setting)
    (depth : Nat) (spelled : α → List TokenKind → Prop) : Prop :=
  ∀ a ks s rest, spelled a ks → s.kinds = ks ++ rest → s.depth = depth → ends rest →
    (p setting s).Gives rest depth fun a' => relabel .bare a' = relabel .bare a

/-- What spells something is read as that, if nothing follows that could go on with a type. -/
def Parser.Reads [Relabeled α] (p : Parser α) (setting : Setting) (depth : Nat)
    (spelled : α → List TokenKind → Prop) : Prop :=
  p.ReadsUpTo EndsType setting depth spelled

namespace Parser

section

variable [Relabeled α] {elem : Parser α} {spelled : α → List TokenKind → Prop} {close : Symbol}
  {ends : List TokenKind → Prop} {as : List α}

/-- A turn that reads an element; it asks for another one if a comma follows. -/
theorem gives_commaTurn {a : α} {next : TokenKind}
    (helem : elem.ReadsUpTo ends setting depth spelled)
    (ha : spelled a ks) (hfirst : ∃ k ks', ks = k :: ks' ∧ k ≠ .symbol close)
    (hs : s.kinds = ks ++ next :: rest) (hdepth : s.depth = depth) (hrest : ends (next :: rest)) :
    (commaTurn close elem setting s).Gives
      (if next.isSymbol .comma = true then rest else next :: rest) depth
      fun r => r.1 = next.isSymbol .comma ∧ r.2.map (relabel .bare) = [relabel .bare a] := by
  have hopen : s.kind.isSymbol close = false := by
    obtain ⟨k, ks', rfl, hk⟩ := hfirst
    rw [← Bool.not_eq_true, State.kind_eq hs]
    exact fun h => hk (TokenKind.eq_of_isSymbol h)
  rw [commaTurn, sees, query_bind, hopen]
  apply Reply.Gives.bind (helem a _ s _ ha hs hdepth hrest)
  intro a' s' ha' hkinds hdepth'
  cases hcomma : next.isSymbol .comma with
  | true =>
    apply Reply.Gives.bind (gives_accepted hkinds hcomma)
    rintro found s₂ rfl hkinds₂ hdepth₂
    exact ⟨⟨rfl, by simpa using ha'⟩, hkinds₂, hdepth₂.trans hdepth'⟩
  | false =>
    apply Reply.Gives.bind (gives_unaccepted (by rw [State.kind_eq hkinds, hcomma]))
    rintro found s₂ rfl hkinds₂ hdepth₂
    exact ⟨⟨rfl, by simpa using ha'⟩, hkinds₂.trans hkinds, hdepth₂.trans hdepth'⟩

/-- Some things with commas between them and the symbol that closes them. -/
theorem gives_commaListUpTo (helem : elem.ReadsUpTo ends setting depth spelled)
    (hfirst : ∀ a ks, spelled a ks → ∃ k ks', ks = k :: ks' ∧ k ≠ .symbol close)
    (hcomma : (TokenKind.symbol close).isSymbol .comma = false)
    (hends : ∀ symbol ks, symbol = .comma ∨ symbol = close → ends (.symbol symbol :: ks))
    (has : CommaSeparated spelled as ks) (hs : s.kinds = ks ++ .symbol close :: rest)
    (hdepth : s.depth = depth) : (commaList close elem setting s).Gives rest depth
      fun as' => relabel .bare as' = relabel .bare as := by
  have hturns : Turns (commaTurn close elem) setting depth (relabel .bare)
      (ks ++ .symbol close :: rest) (as.map (relabel .bare)) (.symbol close :: rest) := by
    clear hs
    induction has with
    | nil =>
      refine .last fun s hs hdepth => ?_
      have hclosed : s.kind.isSymbol close = true := State.isSymbol_kind_iff.2 (by rw [hs]; rfl)
      rw [commaTurn, sees, query_bind, hclosed]
      exact ⟨⟨rfl, rfl⟩, hs, hdepth⟩
    | last ha =>
      refine .last fun s hs hdepth => ?_
      have hturn := gives_commaTurn helem ha (hfirst _ _ ha) hs hdepth (hends _ _ (.inr rfl))
      rwa [hcomma] at hturn
    | @cons a as ks ks' ha has ih =>
      show Turns _ setting depth _ _ ([relabel .bare a] ++ as.map (relabel .bare)) _
      refine .again (fun s hs hdepth => ?_) ?_ ih
      · rw [List.append_assoc] at hs
        exact gives_commaTurn helem ha (hfirst _ _ ha) hs hdepth (hends _ _ (.inl rfl))
      · simp
        omega
  apply Reply.Gives.bind (hturns.gives hs hdepth)
  intro as' s' has' hkinds hdepth'
  apply Reply.Gives.bind (gives_require hkinds (by simp [TokenKind.isSymbol]))
  intro _ s₂ _ hkinds₂ hdepth₂
  exact ⟨has', hkinds₂, hdepth₂.trans hdepth'⟩

theorem gives_commaList (helem : elem.Reads setting depth spelled)
    (hfirst : ∀ a ks, spelled a ks → ∃ k ks', ks = k :: ks' ∧ k ≠ .symbol close)
    (hclose : close = .gt ∨ close = .rightParen) (has : CommaSeparated spelled as ks)
    (hs : s.kinds = ks ++ .symbol close :: rest) (hdepth : s.depth = depth) :
    (commaList close elem setting s).Gives rest depth
      fun as' => relabel .bare as' = relabel .bare as := by
  have hcomma : (TokenKind.symbol close).isSymbol .comma = false := by
    obtain rfl | rfl := hclose <;> rfl
  refine gives_commaListUpTo helem hfirst hcomma ?_ has hs hdepth
  intro symbol ks hsymbol
  obtain rfl | rfl := hclose <;> obtain rfl | rfl := hsymbol <;> simp [EndsType.cons_iff]

end

end Parser

/-! ## Paths and bounds -/

theorem State.peek_eq (h : s.kinds[n]? = some k) : s.peek n = k := by
  unfold State.kinds at h
  rw [List.getElem?_map] at h
  obtain ⟨lexeme, hlexeme, rfl⟩ := Option.map_eq_some_iff.1 h
  rw [State.peek, hlexeme]

/-- Arguments do not go on with the path before them. -/
theorem head?_typeArgsSpelled_ne {inner : TypeExpr → List TokenKind → Prop} {args : List TypeExpr}
    (h : TypeArgsSpelled inner args ks) (hrest : EndsType rest) :
    (ks ++ rest).head? ≠ some (.symbol .colonColon) := by
  cases h with
  | nil => exact fun hhead => (hrest _ hhead).2.1 rfl
  | some _ => simp

/-- The tokens that a type can start with. -/
def TokenKind.startsType : TokenKind → Bool
  | .ident _ | .symbol .leftParen | .symbol .leftBracket | .symbol .star => true
  | .keyword .fnKw | .keyword .dynKw => true
  | _ => false

namespace Parser

theorem gives_name {name : String} (hs : s.kinds = .ident name :: ks) :
    (Parser.name setting s).Gives ks s.depth fun found => found = name := by
  rw [Parser.name, valueOf_eq, State.kind_eq hs]
  exact ⟨rfl, State.kinds_advance hs⟩

theorem gives_path {parts : List String} (hparts : parts ≠ [])
    (hs : s.kinds = pathTokens parts ++ rest) (hrest : rest.head? ≠ some (.symbol .colonColon)) :
    (path setting s).Gives rest s.depth fun found => found = parts := by
  obtain ⟨first, more, rfl⟩ := List.exists_cons_of_ne_nil hparts
  have hturns (more : List String) : Turns (do
      if ← query fun s => s.kind.isSymbol .colonColon && (s.peek 1).isName then
        advance
        let part ← Parser.name
        pure (true, [part])
      else
        pure (false, [])) setting s.depth id
      ((more.flatMap fun part => [.symbol .colonColon, .ident part]) ++ rest) more rest := by
    induction more with
    | nil =>
      refine .last fun s hs hdepth => ?_
      have hcolons : s.kind.isSymbol .colonColon = false := by
        rw [← Bool.not_eq_true, State.isSymbol_kind_iff, hs]
        exact hrest
      rw [query_bind, hcolons]
      exact ⟨⟨rfl, rfl⟩, hs, hdepth⟩
    | cons part more ih =>
      show Turns _ setting _ _ _ ([part] ++ more) _
      refine .again (fun s hs hdepth => ?_) ?_ ih
      · have hs : s.kinds = .symbol .colonColon :: .ident part ::
            ((more.flatMap fun part => [.symbol .colonColon, .ident part]) ++ rest) := by simpa using hs
        have hcolons : (s.kind.isSymbol .colonColon && (s.peek 1).isName) = true := by
          rw [State.kind_eq hs, State.peek_eq (n := 1) (k := .ident part) (by rw [hs]; rfl)]
          rfl
        obtain ⟨hkinds, hdepth'⟩ := State.kinds_advance hs
        rw [query_bind, hcolons]
        change ((advance >>= fun _ => Parser.name >>= fun part => pure (true, [part])) setting s).Gives
          _ _ _
        rw [advance_bind]
        apply Reply.Gives.bind (gives_name hkinds)
        rintro found s₂ rfl hkinds₂ hdepth₂
        exact ⟨⟨rfl, rfl⟩, hkinds₂, by omega⟩
      · simp only [List.flatMap_cons, List.cons_append, List.nil_append, List.length_append,
          List.length_cons]
        omega
  apply Reply.Gives.bind (gives_name hs)
  rintro found s' rfl hkinds hdepth
  apply Reply.Gives.bind ((hturns more).gives hkinds hdepth)
  rintro found' s₂ hfound hkinds₂ hdepth₂
  rw [List.map_id] at hfound
  exact ⟨by rw [hfound], hkinds₂, hdepth₂⟩

variable {g : Rules} {inner : TypeExpr → List TokenKind → Prop}

/-- The readings for what is within read what spells it, and that starts like a type. -/
structure ReadsInner (g : Rules) (setting : Setting) (depth : Nat)
    (inner : TypeExpr → List TokenKind → Prop) : Prop where
  reads : g.type.Reads setting depth inner
  starts : ∀ t ks, inner t ks → ∃ k ks', ks = k :: ks' ∧ k.startsType = true

namespace ReadsInner

theorem starts_ne (hg : ReadsInner g setting depth inner) (symbol : Symbol)
    (hsymbol : (TokenKind.symbol symbol).startsType = false) (t : TypeExpr) (ks : List TokenKind)
    (ht : inner t ks) : ∃ k ks', ks = k :: ks' ∧ k ≠ .symbol symbol := by
  obtain ⟨k, ks', hks, hk⟩ := hg.starts t ks ht
  refine ⟨k, ks', hks, ?_⟩
  rintro rfl
  exact absurd (hk.symm.trans hsymbol) (by decide)

/-- Arguments in angle brackets, or none. -/
theorem typeArgs (hg : ReadsInner g setting depth inner) :
    (typeArgs g).Reads setting depth (TypeArgsSpelled inner) := by
  intro args ks s rest hargs hs hdepth hrest
  cases hargs with
  | nil =>
    apply Reply.Gives.bind (gives_unaccepted (hrest.isSymbol_eq_false hs (.inl rfl)))
    rintro found s' rfl hkinds hdepth'
    exact ⟨rfl, hkinds.trans hs, hdepth'.trans hdepth⟩
  | some hts =>
    rw [List.cons_append, List.append_assoc] at hs
    apply Reply.Gives.bind (gives_accepted hs rfl)
    rintro found s' rfl hkinds hdepth'
    exact gives_commaList hg.reads (hg.starts_ne _ rfl) (.inl rfl) hts hkinds (hdepth'.trans hdepth)

theorem bound (hg : ReadsInner g setting depth inner) :
    (bound g).Reads setting depth (Bound.Spelled inner) := by
  intro b ks s rest hb hs hdepth hrest
  cases hb with
  | @intro parts args span ks hpath hargs =>
    rw [List.append_assoc] at hs
    rw [Parser.bound, start_bind]
    apply Reply.Gives.bind (gives_path hpath hs (head?_typeArgsSpelled_ne hargs hrest))
    rintro found s₁ rfl hkinds₁ hdepth₁
    apply Reply.Gives.bind (hg.typeArgs args ks s₁ rest hargs hkinds₁ (hdepth₁.trans hdepth) hrest)
    intro args' s₂ hargs' hkinds₂ hdepth₂
    refine ⟨?_, hkinds₂, hdepth₂⟩
    simp [hargs']

/-- Bounds with plus signs between them, where none follows. -/
theorem bounds (hg : ReadsInner g setting depth inner) {bs : List Bound}
    (hbs : PlusSeparated (Bound.Spelled inner) bs ks) (hs : s.kinds = ks ++ rest)
    (hdepth : s.depth = depth) (hrest : EndsType rest) (hplus : rest.head? ≠ some (.symbol .plus)) :
    (bounds g setting s).Gives rest depth fun bs' => relabel .bare bs' = relabel .bare bs := by
  -- behind the first bound each turn reads a plus sign and a bound
  have hturns : ∃ b more ks₁ ks₂, bs = b :: more ∧ ks = ks₁ ++ ks₂ ∧ b.Spelled inner ks₁ ∧
      EndsType (ks₂ ++ rest) ∧
      Turns (do
        if ← accept .plus then
          let next ← Parser.bound g
          pure (true, [next])
        else
          pure (false, [])) setting depth (relabel .bare) (ks₂ ++ rest)
        (more.map (relabel .bare)) rest := by
    clear hs
    induction hbs with
    | @last b ks hb =>
      refine ⟨b, [], ks, [], rfl, by simp, hb, hrest, .last fun s hs hdepth => ?_⟩
      have hnone : s.kind.isSymbol .plus = false := by
        rw [← Bool.not_eq_true, State.isSymbol_kind_iff, hs]
        exact hplus
      apply Reply.Gives.bind (gives_unaccepted hnone)
      rintro found s' rfl hkinds hdepth'
      exact ⟨⟨rfl, rfl⟩, hkinds.trans hs, hdepth'.trans hdepth⟩
    | @cons b bs ks ks' hb _ ih =>
      obtain ⟨b', more, ks₁, ks₂, rfl, rfl, hb', hends, hmore⟩ := ih
      refine ⟨b, b' :: more, ks, .symbol .plus :: (ks₁ ++ ks₂), rfl, rfl, hb, ?_, ?_⟩
      · simp [EndsType.cons_iff]
      show Turns _ setting depth _ _ ([relabel .bare b'] ++ more.map (relabel .bare)) _
      refine .again (fun s hs hdepth => ?_) ?_ hmore
      · rw [List.cons_append, List.append_assoc] at hs
        apply Reply.Gives.bind (gives_accepted hs rfl)
        rintro found s' rfl hkinds hdepth'
        apply Reply.Gives.bind (hg.bound b' ks₁ s' _ hb' hkinds (hdepth'.trans hdepth) hends)
        intro next s₂ hnext hkinds₂ hdepth₂
        exact ⟨⟨rfl, by simpa using hnext⟩, hkinds₂, hdepth₂⟩
      · simp only [List.cons_append, List.length_append, List.length_cons]
        omega
  obtain ⟨b, more, ks₁, ks₂, rfl, rfl, hb, hends, hturns⟩ := hturns
  rw [List.append_assoc] at hs
  apply Reply.Gives.bind (hg.bound b ks₁ s _ hb hs hdepth hends)
  intro b' s₁ hb' hkinds₁ hdepth₁
  apply Reply.Gives.bind (hturns.gives hkinds₁ hdepth₁)
  intro more' s₂ hmore hkinds₂ hdepth₂
  refine ⟨?_, hkinds₂, hdepth₂⟩
  show relabel .bare b' :: more'.map (relabel .bare) = relabel .bare b :: more.map (relabel .bare)
  rw [hb', hmore]

/-! ## Kinds of types -/

variable {kind : TypeKind}

theorem namedType (hg : ReadsInner g setting depth inner) {parts : List String}
    {args : List TypeExpr} (hparts : parts ≠ []) (hargs : TypeArgsSpelled inner args ks)
    (hs : s.kinds = pathTokens parts ++ ks ++ rest) (hdepth : s.depth = depth)
    (hrest : EndsType rest) : (namedType g setting s).Gives rest depth
      fun k => relabel .bare k = relabel .bare (TypeKind.named parts args) := by
  rw [List.append_assoc] at hs
  apply Reply.Gives.bind (gives_path hparts hs (head?_typeArgsSpelled_ne hargs hrest))
  rintro found s₁ rfl hkinds₁ hdepth₁
  apply Reply.Gives.bind (hg.typeArgs args ks s₁ rest hargs hkinds₁ (hdepth₁.trans hdepth) hrest)
  intro args' s₂ hargs' hkinds₂ hdepth₂
  exact ⟨by simpa using hargs', hkinds₂, hdepth₂⟩

/-- `[T]` or `[T; n]` -/
theorem bracketType (hg : ReadsInner g setting depth inner) {t : TypeExpr} (length : Option UInt64)
    (ht : inner t ks) (hs : s.kinds = .symbol .leftBracket :: (ks ++
      (length.elim [] fun n => [.symbol .semicolon, .int n]) ++ .symbol .rightBracket :: rest))
    (hdepth : s.depth = depth) : (bracketType g setting s).Gives rest depth fun k =>
      relabel .bare k = relabel .bare (length.elim (TypeKind.slice t) (TypeKind.array t)) := by
  obtain ⟨hkinds, hdepth'⟩ := State.kinds_advance hs
  rw [Parser.bracketType, advance_bind]
  rw [List.append_assoc] at hkinds
  have hends : EndsType ((length.elim [] fun n => [.symbol .semicolon, .int n]) ++
      .symbol .rightBracket :: rest) := by
    cases length <;> simp [EndsType.cons_iff]
  apply Reply.Gives.bind (hg.reads t ks s.advance _ ht hkinds (hdepth'.trans hdepth) hends)
  intro elem s₁ helem hkinds₁ hdepth₁
  have hlength : (optional (accept .semicolon) integer setting s₁).Gives
      (.symbol .rightBracket :: rest) depth fun found => found = length := by
    cases length with
    | none =>
      apply Reply.Gives.bind (gives_unaccepted (by rw [State.kind_eq hkinds₁]; rfl))
      rintro found s₂ rfl hkinds₂ hdepth₂
      exact ⟨rfl, hkinds₂.trans hkinds₁, hdepth₂.trans hdepth₁⟩
    | some n =>
      apply Reply.Gives.bind (gives_accepted hkinds₁ rfl)
      rintro found s₂ rfl hkinds₂ hdepth₂
      have hint : (integer setting s₂).Gives (.symbol .rightBracket :: rest) s₂.depth
          fun found => found = n := by
        rw [integer, valueOf_eq, State.kind_eq hkinds₂]
        exact ⟨rfl, State.kinds_advance hkinds₂⟩
      apply Reply.Gives.bind hint
      rintro found s₃ rfl hkinds₃ hdepth₃
      exact ⟨rfl, hkinds₃, by omega⟩
  apply Reply.Gives.bind hlength
  rintro found s₂ rfl hkinds₂ hdepth₂
  apply Reply.Gives.bind (gives_require hkinds₂ rfl)
  intro _ s₃ _ hkinds₃ hdepth₃
  cases found <;> exact ⟨by simpa using helem, hkinds₃, hdepth₃.trans hdepth₂⟩

theorem functionType (hg : ReadsInner g setting depth inner) {params : List TypeExpr}
    {ret : Option TypeExpr} {ks' : List TokenKind} (hparams : CommaSeparated inner params ks)
    (hret : ResultSpelled inner ret ks')
    (hs : s.kinds = .keyword .fnKw :: .symbol .leftParen ::
      (ks ++ .symbol .rightParen :: (ks' ++ rest)))
    (hdepth : s.depth = depth) (hrest : EndsType rest) :
    (functionType g setting s).Gives rest depth
      fun k => relabel .bare k = relabel .bare (TypeKind.function params ret) := by
  obtain ⟨hkinds, hdepth'⟩ := State.kinds_advance hs
  rw [Parser.functionType, advance_bind]
  apply Reply.Gives.bind (gives_require hkinds rfl)
  intro _ s₁ _ hkinds₁ hdepth₁
  apply Reply.Gives.bind (gives_commaList hg.reads (hg.starts_ne _ rfl) (.inr rfl) hparams hkinds₁
    (by omega))
  intro params' s₂ hparams' hkinds₂ hdepth₂
  have hresult : (resultType g setting s₂).Gives rest depth
      fun ret' => relabel .bare ret' = relabel .bare ret := by
    cases hret with
    | none =>
      apply Reply.Gives.bind
        (gives_unaccepted (hrest.isSymbol_eq_false hkinds₂ (.inr (.inr rfl))))
      rintro found s₃ rfl hkinds₃ hdepth₃
      exact ⟨rfl, hkinds₃.trans hkinds₂, hdepth₃.trans hdepth₂⟩
    | @some t ks' ht =>
      apply Reply.Gives.bind (gives_accepted hkinds₂ rfl)
      rintro found s₃ rfl hkinds₃ hdepth₃
      apply Reply.Gives.bind (hg.reads t ks' s₃ rest ht hkinds₃ (hdepth₃.trans hdepth₂) hrest)
      intro t' s₄ ht' hkinds₄ hdepth₄
      exact ⟨by simpa using ht', hkinds₄, hdepth₄⟩
  apply Reply.Gives.bind hresult
  intro ret' s₃ hret' hkinds₃ hdepth₃
  exact ⟨by simpa using ⟨hparams', hret'⟩, hkinds₃, hdepth₃⟩

theorem pointerType (hg : ReadsInner g setting depth inner) {t : TypeExpr}
    {mutability : Option PointerMutability}
    (hmut : mutability = none → ks.head? ≠ some (.ident "mut")) (ht : inner t ks)
    (hs : s.kinds = .symbol .star :: (mutabilityTokens mutability ++ (ks ++ rest)))
    (hdepth : s.depth = depth) (hrest : EndsType rest) :
    (pointerType g setting s).Gives rest depth
      fun k => relabel .bare k = relabel .bare (TypeKind.pointer mutability t) := by
  obtain ⟨hkinds, hdepth'⟩ := State.kinds_advance hs
  have hpointee (mutability : Option PointerMutability) (s' : State) (hkinds : s'.kinds = ks ++ rest)
      (hdepth' : s'.depth = s.advance.depth) :
      ((do pure (.pointer mutability (← g.type)) : Parser TypeKind) setting s').Gives rest depth
        fun k => relabel .bare k = relabel .bare (TypeKind.pointer mutability t) := by
    apply Reply.Gives.bind (hg.reads t ks s' rest ht hkinds (by omega) hrest)
    intro t' s₂ ht' hkinds₂ hdepth₂
    exact ⟨by simpa using ht', hkinds₂, hdepth₂⟩
  rw [Parser.pointerType, advance_bind]
  obtain _ | _ | _ := mutability
  · obtain ⟨k, ks', rfl, hk⟩ := hg.starts t ks ht
    have hconst : s.advance.kind.isKeyword .constKw = false := by
      rw [← Bool.not_eq_true, State.kind_eq hkinds]
      intro h
      rw [TokenKind.eq_of_isKeyword h] at hk
      cases hk
    apply Reply.Gives.bind (gives_unaccepted hconst)
    rintro found s₁ rfl hkinds₁ hdepth₁
    have hword : s₁.kind.isWord "mut" = false := by
      rw [← Bool.not_eq_true, State.kind_eq (hkinds₁.trans hkinds)]
      exact fun h => hmut rfl (by rw [TokenKind.eq_of_isWord h]; rfl)
    apply Reply.Gives.bind (gives_unaccepted hword)
    rintro found s₂ rfl hkinds₂ hdepth₂
    exact hpointee none s₂ (hkinds₂.trans (hkinds₁.trans hkinds)) (by omega)
  · apply Reply.Gives.bind (gives_accepted hkinds rfl)
    rintro found s₁ rfl hkinds₁ hdepth₁
    exact hpointee (some .const) s₁ hkinds₁ hdepth₁
  · apply Reply.Gives.bind (gives_unaccepted (by rw [State.kind_eq hkinds]; rfl))
    rintro found s₁ rfl hkinds₁ hdepth₁
    apply Reply.Gives.bind (gives_accepted (hkinds₁.trans hkinds) (by decide))
    rintro found s₂ rfl hkinds₂ hdepth₂
    exact hpointee (some .mut) s₂ hkinds₂ (by omega)

theorem traitObjectType (hg : ReadsInner g setting depth inner) {b : Bound}
    (hb : b.Spelled inner ks) (hs : s.kinds = .keyword .dynKw :: (ks ++ rest))
    (hdepth : s.depth = depth) (hrest : EndsType rest) :
    (traitObjectType g setting s).Gives rest depth
      fun k => relabel .bare k = relabel .bare (TypeKind.traitObject [b]) := by
  obtain ⟨hkinds, hdepth'⟩ := State.kinds_advance hs
  have hparen : s.advance.kind.isSymbol .leftParen = false := by
    cases hb with
    | @intro parts _ _ _ hparts _ =>
      obtain ⟨first, more, rfl⟩ := List.exists_cons_of_ne_nil hparts
      rw [State.kind_eq hkinds]
      rfl
  rw [Parser.traitObjectType, advance_bind]
  apply Reply.Gives.bind (gives_unaccepted hparen)
  rintro found s₁ rfl hkinds₁ hdepth₁
  apply Reply.Gives.bind (hg.bound b ks s₁ rest hb (hkinds₁.trans hkinds) (by omega) hrest)
  intro b' s₂ hb' hkinds₂ hdepth₂
  exact ⟨by simpa using hb', hkinds₂, hdepth₂⟩

theorem traitObjectsType (hg : ReadsInner g setting depth inner) {bs : List Bound}
    (hbs : PlusSeparated (Bound.Spelled inner) bs ks)
    (hs : s.kinds = .keyword .dynKw :: .symbol .leftParen :: (ks ++ .symbol .rightParen :: rest))
    (hdepth : s.depth = depth) : (Parser.traitObjectType g setting s).Gives rest depth
      fun k => relabel .bare k = relabel .bare (TypeKind.traitObject bs) := by
  obtain ⟨hkinds, hdepth'⟩ := State.kinds_advance hs
  rw [Parser.traitObjectType, advance_bind]
  apply Reply.Gives.bind (gives_accepted hkinds rfl)
  rintro found s₁ rfl hkinds₁ hdepth₁
  apply Reply.Gives.bind (hg.bounds hbs hkinds₁ (by omega) (by simp [EndsType.cons_iff]) (by simp))
  intro bs' s₂ hbs' hkinds₂ hdepth₂
  apply Reply.Gives.bind (gives_require hkinds₂ rfl)
  intro _ s₃ _ hkinds₃ hdepth₃
  exact ⟨by simpa using hbs', hkinds₃, hdepth₃.trans hdepth₂⟩

/-! ## Types -/

/-- Nothing, elements with a comma behind the first one, or a type that is only grouped. -/
theorem parenType_unit (start : Nat)
    (hs : s.kinds = .symbol .leftParen :: .symbol .rightParen :: rest) (hdepth : s.depth = depth) :
    (parenType g start setting s).Gives rest depth
      fun u => relabel .bare u = relabel .bare (⟨0, .empty 0, .unit⟩ : TypeExpr) := by
  obtain ⟨hkinds, hdepth'⟩ := State.kinds_advance hs
  rw [parenType, advance_bind]
  apply Reply.Gives.bind (gives_accepted hkinds rfl)
  rintro found s₁ rfl hkinds₁ hdepth₁
  exact ⟨rfl, hkinds₁, hdepth₁.trans (hdepth'.trans hdepth)⟩

/-- Behind the first type in parentheses. -/
theorem parenType (hg : ReadsInner g setting depth inner) {t u : TypeExpr} {next : TokenKind}
    {ks' : List TokenKind} (start : Nat) (ht : inner t ks)
    (hs : s.kinds = .symbol .leftParen :: (ks ++ next :: ks')) (hdepth : s.depth = depth)
    (hnext : EndsType (next :: ks'))
    (h : ∀ t' s', relabel .bare t' = relabel .bare t → s'.kinds = next :: ks' → s'.depth = depth →
      ((do
        if ← accept .comma then
          let more ← commaList .rightParen g.type
          node start fun id span => ⟨id, span, .tuple (t' :: more)⟩
        else
          expect .rightParen
          pure t' : Parser TypeExpr) setting s').Gives rest depth
            fun u' => relabel .bare u' = relabel .bare u) :
    (parenType g start setting s).Gives rest depth fun u' => relabel .bare u' = relabel .bare u := by
  obtain ⟨hkinds, hdepth'⟩ := State.kinds_advance hs
  have hopen : s.advance.kind.isSymbol .rightParen = false := by
    obtain ⟨k, ks'', rfl, hk⟩ := hg.starts_ne .rightParen rfl t ks ht
    rw [← Bool.not_eq_true, State.kind_eq hkinds]
    exact fun h => hk (TokenKind.eq_of_isSymbol h)
  rw [Parser.parenType, advance_bind]
  apply Reply.Gives.bind (gives_unaccepted hopen)
  rintro found s₁ rfl hkinds₁ hdepth₁
  apply Reply.Gives.bind (hg.reads t ks s₁ _ ht (hkinds₁.trans hkinds) (by omega) hnext)
  intro t' s₂ ht' hkinds₂ hdepth₂
  exact h t' s₂ ht' hkinds₂ hdepth₂

end ReadsInner

/-- A type of the kind that is read. -/
theorem gives_typeNode {start : Nat} {kind : Parser TypeKind} {k : TypeKind} (id : NodeId)
    (span : Span)
    (h : (kind setting s).Gives rest depth fun k' => relabel .bare k' = relabel .bare k) :
    ((do
      let k ← kind
      node start fun id span => ⟨id, span, k⟩ : Parser TypeExpr) setting s).Gives rest depth
      fun u => relabel .bare u = relabel .bare (⟨id, span, k⟩ : TypeExpr) := by
  apply Reply.Gives.bind h
  intro k' s' hk' hkinds hdepth
  exact ⟨by simpa using hk', hkinds, hdepth⟩

/-- A rule reads what spells a type, if the readings for what is within do. -/
theorem ReadsInner.typeRule (hg : ReadsInner g setting depth inner) :
    (typeRule g).Reads setting depth (TypeExpr.SpelledOver inner) := by
  intro t ks s rest ht hs hdepth hrest
  cases ht with
  | @paren t ks ht =>
    rw [List.cons_append, List.append_assoc] at hs
    rw [Parser.typeRule, start_bind, kind_bind, State.kind_eq hs]
    refine hg.parenType _ ht hs hdepth (by simp [EndsType.cons_iff]) fun t' s' ht' hkinds hdepth' => ?_
    apply Reply.Gives.bind (gives_unaccepted (by rw [State.kind_eq hkinds]; rfl))
    rintro found s₂ rfl hkinds₂ hdepth₂
    apply Reply.Gives.bind (gives_require (hkinds₂.trans hkinds) rfl)
    intro _ s₃ _ hkinds₃ hdepth₃
    exact ⟨ht', hkinds₃, by omega⟩
  | @plain id span kind ks hkind =>
    cases hkind with
    | @named parts args ks hparts hargs =>
      have hfirst : ∃ name, s.kind = .ident name := by
        obtain ⟨first, more, rfl⟩ := List.exists_cons_of_ne_nil hparts
        exact ⟨first, State.kind_eq hs⟩
      obtain ⟨name, hname⟩ := hfirst
      rw [Parser.typeRule, start_bind, kind_bind, hname]
      exact gives_typeNode id span (hg.namedType hparts hargs hs hdepth hrest)
    | unit =>
      rw [Parser.typeRule, start_bind, kind_bind, State.kind_eq hs]
      exact parenType_unit _ hs hdepth
    | @tuple t ts ks ks' ht hts =>
      simp only [List.cons_append, List.append_assoc] at hs
      rw [Parser.typeRule, start_bind, kind_bind, State.kind_eq hs]
      refine hg.parenType _ ht hs hdepth (by simp [EndsType.cons_iff])
        fun t' s' ht' hkinds hdepth' => ?_
      apply Reply.Gives.bind (gives_accepted hkinds rfl)
      rintro found s₂ rfl hkinds₂ hdepth₂
      apply Reply.Gives.bind (gives_commaList hg.reads (hg.starts_ne _ rfl) (.inr rfl) hts hkinds₂
        (by omega))
      intro ts' s₃ hts' hkinds₃ hdepth₃
      exact ⟨by simpa using ⟨ht', hts'⟩, hkinds₃, hdepth₃⟩
    | @array t length ks ht =>
      rw [Parser.typeRule, start_bind, kind_bind, State.kind_eq hs]
      exact gives_typeNode id span (hg.bracketType (some length) ht (by simpa using hs) hdepth)
    | @slice t ks ht =>
      rw [Parser.typeRule, start_bind, kind_bind, State.kind_eq hs]
      exact gives_typeNode id span (hg.bracketType none ht (by simpa using hs) hdepth)
    | @function params ret ks ks' hparams hret =>
      rw [Parser.typeRule, start_bind, kind_bind, State.kind_eq hs]
      exact gives_typeNode id span
        (hg.functionType hparams hret (by simpa using hs) hdepth hrest)
    | @pointer mutability t ks hmut ht =>
      rw [Parser.typeRule, start_bind, kind_bind, State.kind_eq hs]
      exact gives_typeNode id span (hg.pointerType hmut ht (by simpa using hs) hdepth hrest)
    | @traitObject b ks hb =>
      rw [Parser.typeRule, start_bind, kind_bind, State.kind_eq hs]
      exact gives_typeNode id span (hg.traitObjectType hb hs hdepth hrest)
    | @traitObjects bs ks hbs =>
      rw [Parser.typeRule, start_bind, kind_bind, State.kind_eq hs]
      exact gives_typeNode id span (hg.traitObjectsType hbs (by simpa using hs) hdepth)

end Parser

end ActorFrontend
