import ActorFrontend.Proofs.Course.Types
import ActorFrontend.Proofs.PatternText.Spelling
import ActorFrontend.Proofs.TypeText.Reading

/-!
# Reading what spells a pattern

A rule reads a pattern from any of its spellings, if the readings for what is within do, and if nothing
follows that could go on with the pattern.
-/

namespace ActorFrontend

variable {setting : Setting} {s : State} {k : TokenKind} {ks rest : List TokenKind} {depth n : Nat}

/-! ## What ends a pattern -/

/-- No token follows that could go on with a pattern, a bar aside. -/
def EndsAlone (rest : List TokenKind) : Prop :=
  ∀ k, rest.head? = some k →
    k ≠ .symbol .colonColon ∧ k ≠ .symbol .leftParen ∧ k ≠ .symbol .leftBrace

/-- No token follows that could go on with a pattern. -/
def EndsPattern (rest : List TokenKind) : Prop :=
  EndsAlone rest ∧ rest.head? ≠ some (.symbol .pipe)

theorem EndsAlone.symbol {symbol : Symbol} (hcolons : symbol ≠ .colonColon)
    (hparen : symbol ≠ .leftParen) (hbrace : symbol ≠ .leftBrace) (ks : List TokenKind) :
    EndsAlone (.symbol symbol :: ks) := by
  intro k hk
  obtain rfl := Option.some.inj hk
  exact ⟨fun h => hcolons (TokenKind.symbol.inj h), fun h => hparen (TokenKind.symbol.inj h),
    fun h => hbrace (TokenKind.symbol.inj h)⟩

theorem EndsPattern.nil : EndsPattern [] := ⟨nofun, nofun⟩

/-- What stands behind the patterns of a list. -/
theorem EndsPattern.symbol {symbol : Symbol}
    (h : symbol = .comma ∨ symbol = .rightParen ∨ symbol = .rightBrace) (ks : List TokenKind) :
    EndsPattern (.symbol symbol :: ks) := by
  constructor
  · obtain rfl | rfl | rfl := h
    all_goals exact .symbol (by decide) (by decide) (by decide) ks
  · obtain rfl | rfl | rfl := h
    all_goals exact nofun

theorem EndsAlone.isSymbol_eq_false {symbol : Symbol} (h : EndsAlone rest) (hs : s.kinds = rest)
    (hsymbol : symbol = .leftParen ∨ symbol = .leftBrace) : s.kind.isSymbol symbol = false := by
  rw [← Bool.not_eq_true, State.isSymbol_kind_iff, hs]
  intro hhead
  obtain ⟨-, hparen, hbrace⟩ := h _ hhead
  obtain rfl | rfl := hsymbol
  · exact hparen rfl
  · exact hbrace rfl

theorem EndsAlone.head?_ne (h : EndsAlone rest) : rest.head? ≠ some (.symbol .colonColon) :=
  fun hhead => (h _ hhead).1 rfl

/-- The tokens that a pattern can start with. -/
def TokenKind.startsPattern : TokenKind → Bool
  | .ident _ | .int _ | .float _ | .string _ | .bool _ | .keyword .noneKw => true
  | .symbol .minus | .symbol .leftParen => true
  | _ => false

theorem Literal.startsPattern_token (l : Literal) : l.token.startsPattern = true := by
  cases l <;> rfl

theorem startsNamed_cons {path : List String} (h : startsNamed path = true) :
    ∃ first more, path = first :: more ∧ first ≠ "_" := by
  cases path with
  | nil => cases h
  | cons first more => exact ⟨first, more, rfl, bne_iff_ne.1 h⟩

namespace Parser

/-! ## Single tokens -/

theorem gives_literalNode {literal : LiteralNode} (hs : s.kinds = literal.value.token :: ks) :
    (literalNode setting s).Gives ks s.depth
      fun l => relabel Renaming.bare l = relabel Renaming.bare literal := by
  have hvalue : literal? literal.value.token = some literal.value := by
    cases literal.value <;> rfl
  have hread : (valueOf literal? .pattern setting s).Gives ks s.depth
      fun value => value = literal.value := by
    rw [valueOf_eq, State.kind_eq hs, hvalue]
    exact ⟨rfl, State.kinds_advance hs⟩
  rw [literalNode, start_bind]
  apply Reply.Gives.bind hread
  intro value s' hvalue hkinds hdepth
  subst hvalue
  exact ⟨rfl, hkinds, hdepth⟩

/-- A pattern of the kind that is read. -/
theorem gives_patternNode {start : Nat} {kind : Parser PatternKind} {k : PatternKind} (id : NodeId)
    (span : Span)
    (h : (kind setting s).Gives rest depth fun k' => relabel .bare k' = relabel .bare k) :
    ((do
      let k ← kind
      node start fun id span => ⟨id, span, k⟩ : Parser Pattern) setting s).Gives rest depth
      fun q => relabel .bare q = relabel .bare (⟨id, span, k⟩ : Pattern) := by
  apply Reply.Gives.bind h
  intro k' s' hk' hkinds hdepth
  exact ⟨by simpa using hk', hkinds, hdepth⟩

variable {g : Rules} {inner : Pattern → List TokenKind → Prop}

/-- The readings for what is within read what spells it, and that starts like a pattern. -/
structure ReadsPatterns (g : Rules) (setting : Setting) (depth : Nat)
    (inner : Pattern → List TokenKind → Prop) : Prop where
  reads : g.pattern.ReadsUpTo EndsPattern setting depth inner
  starts : ∀ p ks, inner p ks → ∃ k ks', ks = k :: ks' ∧ k.startsPattern = true

namespace ReadsPatterns

theorem starts_ne (hg : ReadsPatterns g setting depth inner) (p : Pattern) (ks : List TokenKind)
    (hp : inner p ks) : ∃ k ks', ks = k :: ks' ∧ k ≠ .symbol .rightParen := by
  obtain ⟨k, ks', hks, hk⟩ := hg.starts p ks hp
  refine ⟨k, ks', hks, fun h => ?_⟩
  subst h
  cases hk

/-! ## Lists -/

/-- Patterns with commas between them and the parenthesis that closes them. -/
theorem commaList (hg : ReadsPatterns g setting depth inner) {ps : List Pattern}
    (hps : CommaSeparated inner ps ks) (hs : s.kinds = ks ++ .symbol .rightParen :: rest)
    (hdepth : s.depth = depth) : (commaList .rightParen g.pattern setting s).Gives rest depth
      fun ps' => relabel .bare ps' = relabel .bare ps := by
  have hends (symbol : Symbol) (ks : List TokenKind) (h : symbol = .comma ∨ symbol = .rightParen) :
      EndsPattern (.symbol symbol :: ks) := .symbol (h.imp_right .inl) ks
  exact gives_commaListUpTo hg.reads hg.starts_ne rfl hends hps hs hdepth

/-- A field ends before a comma and before the closing brace. -/
def EndsField (rest : List TokenKind) : Prop :=
  ∃ symbol ks, rest = .symbol symbol :: ks ∧ (symbol = .comma ∨ symbol = .rightBrace)

theorem fieldPattern (hg : ReadsPatterns g setting depth inner) :
    (fieldPattern g).ReadsUpTo EndsField setting depth (FieldPattern.Spelled inner) := by
  intro f ks s rest hf hs hdepth hrest
  obtain ⟨symbol, after, hafter, hsymbol⟩ := hrest
  subst hafter
  rw [Parser.fieldPattern, start_bind]
  cases hf with
  | @short name span =>
    apply Reply.Gives.bind (gives_name hs)
    intro name' s₁ hname hkinds₁ hdepth₁
    subst hname
    have hcolon : s₁.kind.isSymbol .colon = false := by
      rw [State.kind_eq hkinds₁]
      obtain rfl | rfl := hsymbol <;> rfl
    have hpattern : (optional (accept .colon) g.pattern setting s₁).Gives
        (.symbol symbol :: after) depth fun found => found = none := by
      apply Reply.Gives.bind (gives_unaccepted hcolon)
      intro found s₂ hfound hkinds₂ hdepth₂
      subst hfound
      exact ⟨rfl, hkinds₂.trans hkinds₁, by omega⟩
    apply Reply.Gives.bind hpattern
    intro found s₂ hfound hkinds₂ hdepth₂
    subst hfound
    exact ⟨rfl, hkinds₂, hdepth₂⟩
  | @long name p span ks hp =>
    apply Reply.Gives.bind (gives_name hs)
    intro name' s₁ hname hkinds₁ hdepth₁
    subst hname
    have hpattern : (optional (accept .colon) g.pattern setting s₁).Gives
        (.symbol symbol :: after) depth
        fun found => ∃ q, found = some q ∧ relabel .bare q = relabel .bare p := by
      apply Reply.Gives.bind (gives_accepted hkinds₁ rfl)
      intro found s₂ hfound hkinds₂ hdepth₂
      subst hfound
      have hends : EndsPattern (.symbol symbol :: after) := .symbol (hsymbol.imp_right .inr) after
      apply Reply.Gives.bind (hg.reads p ks s₂ _ hp hkinds₂ (by omega) hends)
      intro q s₃ hq hkinds₃ hdepth₃
      exact ⟨⟨q, rfl, hq⟩, hkinds₃, hdepth₃⟩
    apply Reply.Gives.bind hpattern
    intro found s₂ hfound hkinds₂ hdepth₂
    obtain ⟨q, hfound, hq⟩ := hfound
    subst hfound
    exact ⟨by simpa using hq, hkinds₂, hdepth₂⟩

/-- Fields with commas between them and the brace that closes them. -/
theorem fieldPatterns (hg : ReadsPatterns g setting depth inner) {fields : List FieldPattern}
    (hfields : CommaSeparated (FieldPattern.Spelled inner) fields ks)
    (hs : s.kinds = ks ++ .symbol .rightBrace :: rest) (hdepth : s.depth = depth) :
    (Parser.commaList .rightBrace (Parser.fieldPattern g) setting s).Gives rest depth
      fun fields' => relabel .bare fields' = relabel .bare fields := by
  have hfirst (f : FieldPattern) (ks : List TokenKind) (hf : f.Spelled inner ks) :
      ∃ k ks', ks = k :: ks' ∧ k ≠ .symbol .rightBrace := by
    cases hf with
    | short => exact ⟨_, _, rfl, nofun⟩
    | long _ => exact ⟨_, _, rfl, nofun⟩
  have hends (symbol : Symbol) (ks : List TokenKind) (h : symbol = .comma ∨ symbol = .rightBrace) :
      EndsField (.symbol symbol :: ks) := ⟨symbol, ks, rfl, h⟩
  exact gives_commaListUpTo hg.fieldPattern hfirst rfl hends hfields hs hdepth

/-! ## Kinds of patterns -/

/-- What a path is where nothing follows that could go on with it. -/
def kindOfPath : List String → PatternKind
  | [name] => .ident name
  | path => .path path

theorem pathPattern {path : List String} (hpath : startsNamed path = true) (hrest : EndsAlone rest)
    (hs : s.kinds = pathTokens path ++ rest) (hdepth : s.depth = depth) :
    (pathPattern g setting s).Gives rest depth
      fun k => relabel .bare k = relabel .bare (kindOfPath path) := by
  obtain ⟨first, more, rfl, -⟩ := startsNamed_cons hpath
  apply Reply.Gives.bind (gives_path (List.cons_ne_nil _ _) hs hrest.head?_ne)
  intro found s₁ hfound hkinds₁ hdepth₁
  subst hfound
  apply Reply.Gives.bind (gives_unaccepted (hrest.isSymbol_eq_false hkinds₁ (.inl rfl)))
  intro found' s₂ hfound hkinds₂ hdepth₂
  subst hfound
  have hbrace : s₂.kind.isSymbol .leftBrace = false :=
    hrest.isSymbol_eq_false (hkinds₂.trans hkinds₁) (.inr rfl)
  show ((sees .leftBrace >>= fun found => if found = true then _ else _) setting s₂).Gives _ _ _
  rw [sees, query_bind, hbrace]
  cases more with
  | nil => exact ⟨rfl, hkinds₂.trans hkinds₁, by omega⟩
  | cons second more => exact ⟨rfl, hkinds₂.trans hkinds₁, by omega⟩

theorem constructorPattern (hg : ReadsPatterns g setting depth inner) {path : List String}
    {args : List Pattern} (hpath : startsNamed path = true) (hargs : CommaSeparated inner args ks)
    (hs : s.kinds = pathTokens path ++ .symbol .leftParen :: (ks ++ .symbol .rightParen :: rest))
    (hdepth : s.depth = depth) : (Parser.pathPattern g setting s).Gives rest depth
      fun k => relabel .bare k = relabel .bare (PatternKind.constructor path args) := by
  obtain ⟨first, more, hcons, -⟩ := startsNamed_cons hpath
  apply Reply.Gives.bind (gives_path (hcons ▸ List.cons_ne_nil _ _) hs (by simp))
  intro found s₁ hfound hkinds₁ hdepth₁
  subst hfound
  apply Reply.Gives.bind (gives_accepted hkinds₁ rfl)
  intro found' s₂ hfound hkinds₂ hdepth₂
  subst hfound
  apply Reply.Gives.bind (hg.commaList hargs hkinds₂ (by omega))
  intro args' s₃ hargs' hkinds₃ hdepth₃
  exact ⟨by simpa using hargs', hkinds₃, hdepth₃⟩

theorem structPattern (hg : ReadsPatterns g setting depth inner) {path : List String}
    {fields : List FieldPattern} (hpath : startsNamed path = true)
    (hfields : CommaSeparated (FieldPattern.Spelled inner) fields ks)
    (hs : s.kinds = pathTokens path ++ .symbol .leftBrace :: (ks ++ .symbol .rightBrace :: rest))
    (hdepth : s.depth = depth) : (Parser.pathPattern g setting s).Gives rest depth
      fun k => relabel .bare k = relabel .bare (PatternKind.struct path fields) := by
  obtain ⟨first, more, hcons, -⟩ := startsNamed_cons hpath
  apply Reply.Gives.bind (gives_path (hcons ▸ List.cons_ne_nil _ _) hs (by simp))
  intro found s₁ hfound hkinds₁ hdepth₁
  subst hfound
  apply Reply.Gives.bind (gives_unaccepted (by rw [State.kind_eq hkinds₁]; rfl))
  intro found' s₂ hfound hkinds₂ hdepth₂
  subst hfound
  have hbrace : s₂.kind.isSymbol .leftBrace = true := by
    rw [State.kind_eq (hkinds₂.trans hkinds₁)]
    rfl
  show ((sees .leftBrace >>= fun found => if found = true then _ else _) setting s₂).Gives _ _ _
  rw [sees, query_bind, hbrace]
  apply Reply.Gives.bind (gives_require (hkinds₂.trans hkinds₁) rfl)
  intro _ s₃ _ hkinds₃ hdepth₃
  apply Reply.Gives.bind (hg.fieldPatterns hfields hkinds₃ (by omega))
  intro fields' s₄ hfields' hkinds₄ hdepth₄
  exact ⟨by simpa using hfields', hkinds₄, hdepth₄⟩

theorem negatedPattern {id : NodeId} {span : Span} {number : LiteralNode} (start : Nat)
    (hs : s.kinds = .symbol .minus :: number.value.token :: rest) (hdepth : s.depth = depth) :
    (negatedPattern start setting s).Gives rest depth
      fun k => relabel .bare k = relabel .bare (PatternKind.negated id span number) := by
  obtain ⟨hkinds, hdepth'⟩ := State.kinds_advance hs
  rw [Parser.negatedPattern, advance_bind]
  apply Reply.Gives.bind (gives_literalNode hkinds)
  intro l s₁ hl hkinds₁ hdepth₁
  have hdepth₁ : s₁.depth = depth := by omega
  exact ⟨by simpa using hl, hkinds₁, hdepth₁⟩

/-! ## Parentheses -/

/-- Nothing in parentheses. -/
theorem parenPattern_unit (start : Nat)
    (hs : s.kinds = .symbol .leftParen :: .symbol .rightParen :: rest) (hdepth : s.depth = depth) :
    (parenPattern g start setting s).Gives rest depth
      fun q => relabel .bare q = relabel .bare (⟨0, .empty 0, .tuple []⟩ : Pattern) := by
  obtain ⟨hkinds, hdepth'⟩ := State.kinds_advance hs
  rw [parenPattern, advance_bind]
  apply Reply.Gives.bind (gives_accepted hkinds rfl)
  intro found s₁ hfound hkinds₁ hdepth₁
  subst hfound
  exact ⟨rfl, hkinds₁, hdepth₁.trans (hdepth'.trans hdepth)⟩

/-- Behind the first pattern in parentheses. -/
def parenTail (g : Rules) (start : Nat) (first : Pattern) : Parser Pattern := do
  if ← accept .comma then
    let more ← Parser.commaList .rightParen g.pattern
    node start fun id span => ⟨id, span, .tuple (first :: more)⟩
  else
    expect .rightParen
    pure first

/-- Behind the parenthesis that opens, where a pattern follows. -/
theorem parenPattern (hg : ReadsPatterns g setting depth inner) {p q : Pattern}
    {next : TokenKind} {ks' : List TokenKind} (start : Nat) (hp : inner p ks)
    (hs : s.kinds = .symbol .leftParen :: (ks ++ next :: ks')) (hdepth : s.depth = depth)
    (hnext : EndsPattern (next :: ks'))
    (h : ∀ p' s', relabel .bare p' = relabel .bare p → s'.kinds = next :: ks' → s'.depth = depth →
      (parenTail g start p' setting s').Gives rest depth
        fun q' => relabel .bare q' = relabel .bare q) :
    (parenPattern g start setting s).Gives rest depth fun q' => relabel .bare q' = relabel .bare q := by
  obtain ⟨hkinds, hdepth'⟩ := State.kinds_advance hs
  have hopen : s.advance.kind.isSymbol .rightParen = false := by
    obtain ⟨k, ks'', rfl, hk⟩ := hg.starts_ne p ks hp
    rw [← Bool.not_eq_true, State.kind_eq hkinds]
    exact fun h => hk (TokenKind.eq_of_isSymbol h)
  rw [Parser.parenPattern, advance_bind]
  apply Reply.Gives.bind (gives_unaccepted hopen)
  intro found s₁ hfound hkinds₁ hdepth₁
  subst hfound
  apply Reply.Gives.bind (hg.reads p ks s₁ _ hp (hkinds₁.trans hkinds) (by omega) hnext)
  intro p' s₂ hp' hkinds₂ hdepth₂
  exact h p' s₂ hp' hkinds₂ hdepth₂

/-- A pattern that is only grouped. -/
theorem parenPattern_group (hg : ReadsPatterns g setting depth inner) {p : Pattern} (start : Nat)
    (hp : inner p ks)
    (hs : s.kinds = .symbol .leftParen :: (ks ++ .symbol .rightParen :: rest))
    (hdepth : s.depth = depth) : (Parser.parenPattern g start setting s).Gives rest depth
      fun q => relabel .bare q = relabel .bare p := by
  refine hg.parenPattern start hp hs hdepth (.symbol (.inr (.inl rfl)) rest) ?_
  intro p' s₁ hp' hkinds₁ hdepth₁
  apply Reply.Gives.bind (gives_unaccepted (by rw [State.kind_eq hkinds₁]; rfl))
  intro found s₂ hfound hkinds₂ hdepth₂
  subst hfound
  apply Reply.Gives.bind (gives_require (hkinds₂.trans hkinds₁) rfl)
  intro _ s₃ _ hkinds₃ hdepth₃
  exact ⟨hp', hkinds₃, by omega⟩

/-- A tuple, a comma behind its first element. -/
theorem parenPattern_tuple (hg : ReadsPatterns g setting depth inner) {id : NodeId} {span : Span}
    {p : Pattern} {ps : List Pattern} {ks' : List TokenKind} (start : Nat) (hp : inner p ks)
    (hps : CommaSeparated inner ps ks')
    (hs : s.kinds = .symbol .leftParen ::
      (ks ++ .symbol .comma :: (ks' ++ .symbol .rightParen :: rest)))
    (hdepth : s.depth = depth) : (Parser.parenPattern g start setting s).Gives rest depth
      fun q => relabel .bare q = relabel .bare (⟨id, span, .tuple (p :: ps)⟩ : Pattern) := by
  refine hg.parenPattern start hp hs hdepth (.symbol (.inl rfl) _) ?_
  intro p' s₁ hp' hkinds₁ hdepth₁
  apply Reply.Gives.bind (gives_accepted hkinds₁ rfl)
  intro found s₂ hfound hkinds₂ hdepth₂
  subst hfound
  apply Reply.Gives.bind (hg.commaList hps hkinds₂ (by omega))
  intro ps' s₃ hps' hkinds₃ hdepth₃
  exact ⟨by simpa using ⟨hp', hps'⟩, hkinds₃, hdepth₃⟩

/-! ## Patterns -/

/-- A name other than the underscore starts a path. -/
theorem singlePattern_of_path {path : List String} {k : PatternKind} (id : NodeId) (span : Span)
    (hpath : startsNamed path = true) (hs : s.kinds = pathTokens path ++ ks)
    (h : (Parser.pathPattern g setting s).Gives rest depth
      fun k' => relabel .bare k' = relabel .bare k) :
    (singlePattern g setting s).Gives rest depth
      fun q => relabel .bare q = relabel .bare (⟨id, span, k⟩ : Pattern) := by
  obtain ⟨first, more, rfl, hfirst⟩ := startsNamed_cons hpath
  have hkind : s.kind = .ident first := State.kind_eq hs
  rw [singlePattern, start_bind, kind_bind]
  generalize s.kind = kind at hkind
  split
  case h_1 => exact absurd (TokenKind.ident.inj hkind).symm hfirst
  case h_2 => exact gives_patternNode id span h
  case h_10 _ hnone _ _ _ _ _ _ _ => exact absurd hkind (hnone first)
  -- no other token is a name
  all_goals cases hkind

/-- What spells a pattern alone is read as a single one. -/
theorem singlePattern (hg : ReadsPatterns g setting depth inner) :
    (singlePattern g).ReadsUpTo EndsAlone setting depth (Pattern.SpelledAlone inner) := by
  intro p ks s rest hp hs hdepth hrest
  cases hp with
  | @paren p ks hp =>
    rw [List.cons_append, List.append_assoc] at hs
    rw [Parser.singlePattern, start_bind, kind_bind, State.kind_eq hs]
    exact hg.parenPattern_group _ hp hs hdepth
  | @plain id span kind ks hkind =>
    cases hkind with
    | wildcard =>
      rw [Parser.singlePattern, start_bind, kind_bind, State.kind_eq hs]
      refine gives_patternNode id span ?_
      obtain ⟨hkinds, hdepth'⟩ := State.kinds_advance hs
      rw [advance_bind]
      exact ⟨rfl, hkinds, hdepth'.trans hdepth⟩
    | @ident name hname =>
      have hnamed : startsNamed [name] = true := bne_iff_ne.2 hname
      exact singlePattern_of_path id span hnamed hs (pathPattern hnamed hrest hs hdepth)
    | @path path hpath hlong =>
      refine singlePattern_of_path id span hpath hs ?_
      have hkind : kindOfPath path = .path path := by
        match path, hlong with
        | _ :: _ :: _, _ => rfl
      rw [← hkind]
      exact pathPattern hpath hrest hs hdepth
    | @literal literal =>
      have hread : ((do pure (.literal (← literalNode)) : Parser PatternKind) setting s).Gives rest
          depth fun k => relabel .bare k = relabel .bare (PatternKind.literal literal) := by
        apply Reply.Gives.bind (gives_literalNode hs)
        intro l s₁ hl hkinds₁ hdepth₁
        have hdepth₁ : s₁.depth = depth := hdepth₁.trans hdepth
        exact ⟨by simpa using hl, hkinds₁, hdepth₁⟩
      rw [Parser.singlePattern, start_bind, kind_bind, State.kind_eq hs]
      cases hvalue : literal.value <;> exact gives_patternNode id span hread
    | @negated id' span' number hnumber =>
      have hpeek : s.peek 1 = number.value.token := State.peek_eq (by rw [hs]; rfl)
      rw [Parser.singlePattern, start_bind, kind_bind, State.kind_eq hs]
      show ((query _ >>= _) setting s).Gives _ _ _
      rw [query_bind, hpeek, hnumber]
      exact gives_patternNode id span (negatedPattern _ hs hdepth)
    | unit =>
      rw [Parser.singlePattern, start_bind, kind_bind, State.kind_eq hs]
      exact parenPattern_unit _ hs hdepth
    | @tuple p ps ks ks' hp hps =>
      simp only [List.cons_append, List.append_assoc] at hs
      rw [Parser.singlePattern, start_bind, kind_bind, State.kind_eq hs]
      exact hg.parenPattern_tuple _ hp hps hs hdepth
    | @struct path fields ks hpath hfields =>
      simp only [List.cons_append, List.append_assoc] at hs
      exact singlePattern_of_path id span hpath hs (hg.structPattern hpath hfields hs hdepth)
    | @constructor path args ks hpath hargs =>
      simp only [List.cons_append, List.append_assoc] at hs
      exact singlePattern_of_path id span hpath hs (hg.constructorPattern hpath hargs hs hdepth)

/-! ## Alternatives -/

theorem relabel_alternatives (r : Renaming) (p : Pattern) :
    alternatives (relabel r p) = relabel r (alternatives p) := by
  obtain ⟨id, span, kind⟩ := p
  cases kind <;> simp [alternatives]

/-- A group is read as a pattern of its own first. -/
theorem exists_spelledAlone {ps : List Pattern} (h : AlternativeSpelled inner ps ks) :
    ∃ p : Pattern, p.SpelledAlone inner ks ∧ alternatives p = ps := by
  cases h with
  | @one p ks hp hone =>
    refine ⟨p, hp, ?_⟩
    obtain ⟨id, span, kind⟩ := p
    cases kind with
    | or _ => cases hone
    | _ => rfl
  | group hps => exact ⟨_, .paren hps, rfl⟩

/-- One alternative or a group of them. -/
theorem alternative (hg : ReadsPatterns g setting depth inner) {ps : List Pattern}
    (hps : AlternativeSpelled inner ps ks) (hs : s.kinds = ks ++ rest) (hdepth : s.depth = depth)
    (hrest : EndsAlone rest) : (Parser.singlePattern g setting s).Gives rest depth
      fun p => relabel .bare (alternatives p) = relabel .bare ps := by
  obtain ⟨p, hp, hps⟩ := exists_spelledAlone hps
  refine (hg.singlePattern p ks s rest hp hs hdepth hrest).imp ?_ fun _ h => h
  intro p' s' h
  have hp' : relabel .bare p' = relabel .bare p := h.1
  refine ⟨?_, h.2⟩
  show relabel .bare (alternatives p') = relabel .bare ps
  rw [← relabel_alternatives, hp', relabel_alternatives, hps]

/-- Behind the first alternative each turn reads a bar and the next one. -/
theorem turns_alternatives (hg : ReadsPatterns g setting depth inner) {qs : List Pattern}
    (hqs : AlternativesSpelled inner qs ks) (hrest : EndsPattern rest) :
    Turns (alternativeTurn g) setting depth (relabel .bare) (.symbol .pipe :: (ks ++ rest))
      (relabel .bare qs) rest := by
  have hturn {ps : List Pattern} {ks after : List TokenKind} (hps : AlternativeSpelled inner ps ks)
      (hafter : EndsAlone after) (s : State) (hs : s.kinds = .symbol .pipe :: (ks ++ after))
      (hdepth : s.depth = depth) : (alternativeTurn g setting s).Gives after depth
        fun r => r.1 = true ∧ r.2.map (relabel .bare) = relabel .bare ps := by
    apply Reply.Gives.bind (gives_accepted hs rfl)
    intro found s₁ hfound hkinds₁ hdepth₁
    subst hfound
    apply Reply.Gives.bind (hg.alternative hps hkinds₁ (hdepth₁.trans hdepth) hafter)
    intro p s₂ hp hkinds₂ hdepth₂
    exact ⟨⟨rfl, hp⟩, hkinds₂, hdepth₂⟩
  have hlength (ks after : List TokenKind) :
      after.length < (TokenKind.symbol .pipe :: (ks ++ after)).length := by
    rw [List.length_cons, List.length_append]
    omega
  induction hqs with
  | @last ps ks hps =>
    rw [← List.append_nil (relabel .bare ps)]
    refine .again (hturn hps hrest.1) (hlength ks rest) (.last fun s hs hdepth => ?_)
    have hpipe : s.kind.isSymbol .pipe = false := by
      rw [← Bool.not_eq_true, State.isSymbol_kind_iff, hs]
      exact hrest.2
    apply Reply.Gives.bind (gives_unaccepted hpipe)
    intro found s₁ hfound hkinds₁ hdepth₁
    subst hfound
    exact ⟨⟨rfl, rfl⟩, hkinds₁.trans hs, hdepth₁.trans hdepth⟩
  | @cons ps qs ks ks' hps _ ih =>
    rw [relabel_append, List.append_assoc]
    have hafter : EndsAlone (.symbol .pipe :: (ks' ++ rest)) :=
      .symbol (by decide) (by decide) (by decide) _
    exact .again (hturn hps hafter) (hlength ks _) ih

/-- A rule reads what spells a pattern, if the readings for what is within do. -/
theorem patternRule (hg : ReadsPatterns g setting depth inner) :
    (patternRule g).ReadsUpTo EndsPattern setting depth (Pattern.SpelledOver inner) := by
  intro p ks s rest hp hs hdepth hrest
  rw [Parser.patternRule, start_bind]
  cases hp with
  | @alone p ks hp =>
    apply Reply.Gives.bind (hg.singlePattern p ks s rest hp hs hdepth hrest.1)
    intro p' s₁ hp' hkinds₁ hdepth₁
    have hpipe : s₁.kind.isSymbol .pipe = false := by
      rw [← Bool.not_eq_true, State.isSymbol_kind_iff, hkinds₁]
      exact hrest.2
    rw [sees, query_bind, hpipe]
    exact ⟨hp', hkinds₁, hdepth₁⟩
  | @or id span ps qs ks ks' hps hqs =>
    rw [List.append_assoc] at hs
    have hafter : EndsAlone (.symbol .pipe :: (ks' ++ rest)) :=
      .symbol (by decide) (by decide) (by decide) _
    apply Reply.Gives.bind (hg.alternative hps hs hdepth hafter)
    intro first s₁ hfirst hkinds₁ hdepth₁
    have hpipe : s₁.kind.isSymbol .pipe = true := by
      rw [State.kind_eq hkinds₁]
      rfl
    rw [sees, query_bind, hpipe]
    apply Reply.Gives.bind ((hg.turns_alternatives hqs hrest).gives hkinds₁ hdepth₁)
    intro more s₂ hmore hkinds₂ hdepth₂
    have hall : relabel .bare (alternatives first ++ more) = relabel .bare (ps ++ qs) := by
      rw [relabel_append, relabel_append, hfirst]
      exact congrArg _ hmore
    exact ⟨by simpa using hall, hkinds₂, hdepth₂⟩

end ReadsPatterns

end Parser

end ActorFrontend
