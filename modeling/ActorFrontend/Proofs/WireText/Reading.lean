import ActorFrontend.Proofs.Alike.Items
import ActorFrontend.Proofs.TypeText.Session
import ActorFrontend.Proofs.WireText.Parts

/-!
# Reading wire declarations

A wire declaration is read back from its tokens, member by member.  A default value is read up to the
parenthesis that closes it; behind that stands another attribute or the semicolon of the field.
-/

namespace ActorFrontend

variable {α β : Type} {setting : Setting} {s t : State} {lexemes rest : List Lexeme} {lexeme : Lexeme}

/-- On the outermost level, and without an error so far, these tokens are still to be read. -/
structure State.Stands (s : State) (rest : List Lexeme) : Prop where
  rest : s.rest = rest
  errors : s.errors = []
  running : s.halted = false
  context : s.context = .anything
  depth : s.depth = 0

namespace State.Stands

theorem kinds (h : s.Stands lexemes) : s.kinds = kindsOf lexemes := by
  rw [State.kinds, h.rest]
  rfl

theorem kind (h : s.Stands (lexeme :: rest)) : s.kind = lexeme.token.kind := State.kind_eq h.kinds

theorem advance (h : s.Stands (lexeme :: rest)) : s.advance.Stands rest := by
  have hadvance : s.advance = { s with rest, previousEnd := lexeme.token.span.stop } := by
    unfold State.advance
    rw [h.rest]
  rw [hadvance]
  exact ⟨rfl, h.errors, h.running, h.context, h.depth⟩

/-- What is kept by a reading that records nothing. -/
theorem kept (h : s.Stands (lexemes ++ rest)) (hkept : s.Kept true t) (herrors : t.errors = [])
    (hrest : t.rest = rest) : t.Stands rest :=
  ⟨hrest, herrors, (hkept.unspent (herrors.trans h.errors.symm)).trans h.running,
    hkept.context.trans h.context, hkept.depth.trans h.depth⟩

end State.Stands

/-- The answer is a value; these tokens are left then, and no error has been recorded. -/
def Reply.Arrives (rest : List Lexeme) (holds : α → Prop) (r : Reply α) : Prop :=
  r.Ends (fun a t => holds a ∧ t.Stands rest) fun _ => False

namespace Reply.Arrives

variable {holds : α → Prop} {holds' : β → Prop} {rest' : List Lexeme}

theorem bind {p : Parser α} {q : α → Parser β} (hp : (p setting s).Arrives rest holds)
    (hq : ∀ a t, holds a → t.Stands rest → (q a setting t).Arrives rest' holds') :
    ((p >>= q) setting s).Arrives rest' holds' :=
  Ends.bind hp fun a t h => hq a t h.1 h.2

theorem exists_eq {r : Reply α} (h : r.Arrives rest holds) :
    ∃ a t, r = .ok a t ∧ holds a ∧ t.Stands rest := by
  cases r with
  | ok a t => exact ⟨a, t, rfl, h⟩
  | fail e t => exact h.elim

/-- What the kinds of the tokens tell, if nothing is recorded. -/
theorem of_gives {p : Parser α} (hkeeps : p.Keeps false) (hs : s.Stands (lexemes ++ rest))
    (h : (p setting s).Gives (kindsOf rest) s.depth holds) : (p setting s).Arrives rest holds := by
  obtain ⟨a, t, hreply, ha, hkinds, -⟩ := h.exists_eq
  have hkept := hkeeps.kept hreply
  have hsuffix : t.rest <:+ lexemes ++ rest := hs.rest ▸ hkept.rest
  have hlength : t.rest.length = rest.length := by
    rw [State.kinds_length, hkinds, kindsOf, List.length_map]
  have hrest : t.rest = rest :=
    (List.suffix_of_suffix_length_le hsuffix ⟨lexemes, rfl⟩ (Nat.le_of_eq hlength)).eq_of_length hlength
  rw [hreply]
  exact ⟨ha, hs.kept (hkept.louder nofun) ((hkept.silent rfl).trans hs.errors) hrest⟩

end Reply.Arrives

/-! ## What ends an attribute -/

/-- What may stand behind an attribute. -/
def EndsAttr (rest : List Lexeme) : Prop := EndsGroup (kindsOf rest)

theorem EndsAttr.head?_ne {symbol : Symbol} (h : EndsAttr rest) (hsymbol : symbol ≠ .semicolon) :
    (kindsOf rest).head? ≠ some (.symbol symbol) := by
  unfold EndsAttr at h
  generalize kindsOf rest = ks at h ⊢
  cases h with
  | name => simp
  | semicolon => simpa using hsymbol.symm

/-- An attribute starts with a word. -/
theorem WireAttr.Spelled.endsAttr {attr : WireAttr} (h : attr.Spelled lexemes) :
    EndsAttr (lexemes ++ rest) := by
  have hname {word : Lexeme} {name : String} (hword : word.token.kind = .ident name)
      (more : List Lexeme) : EndsAttr (word :: more) := by
    rw [EndsAttr, kindsOf_cons, hword]
    exact .name name _
  cases h with
  | optional hword => exact hname hword _
  | deprecated hword => exact hname hword _
  | default hword => exact hname hword _
  | reserved hkinds =>
    rw [EndsAttr, kindsOf_append, hkinds]
    exact .name _ _

namespace Parser

variable {holds : α → Prop} {test : TokenKind → Bool}

/-! ## Single tokens -/

theorem arrives_require {wanted : Expected} (hs : s.Stands (lexeme :: rest))
    (htest : test lexeme.token.kind = true) :
    (require test wanted setting s).Arrives rest fun _ => True := by
  rw [require_eq, hs.kind, htest]
  exact ⟨trivial, hs.advance⟩

theorem arrives_valueOf {value? : TokenKind → Option α} {wanted : Expected} {a : α}
    (hs : s.Stands (lexeme :: rest)) (hvalue : value? lexeme.token.kind = some a) :
    (valueOf value? wanted setting s).Arrives rest fun found => found = a := by
  rw [valueOf_eq, hs.kind, hvalue]
  exact ⟨rfl, hs.advance⟩

theorem arrives_name {name : String} (hs : s.Stands (lexeme :: rest))
    (hname : lexeme.token.kind = .ident name) :
    (Parser.name setting s).Arrives rest fun found => found = name :=
  arrives_valueOf hs (by rw [hname])

theorem arrives_ifAccepted {yes no : Parser α} {rest' : List Lexeme} (hs : s.Stands (lexeme :: rest))
    (htest : test lexeme.token.kind = true)
    (hyes : ∀ t : State, t.Stands rest → (yes setting t).Arrives rest' holds) :
    ((do if ← acceptIf test then yes else no) setting s).Arrives rest' holds := by
  rw [acceptIf_bind, kind_bind, hs.kind, htest]
  exact hyes s.advance hs.advance

theorem arrives_ifUnaccepted {yes no : Parser α} (htest : test s.kind = false)
    (hno : (no setting s).Arrives rest holds) :
    ((do if ← acceptIf test then yes else no) setting s).Arrives rest holds := by
  rw [acceptIf_bind, kind_bind, htest]
  exact hno

/-- A value that holds its span. -/
theorem arrives_part {start : Nat} {make : Span → α} (hs : s.Stands rest) (h : ∀ span, holds (make span)) :
    ((do pure (make (← spanFrom start))) setting s).Arrives rest holds :=
  ⟨h _, hs⟩

/-! ## Repetitions -/

/-- Turns that read some things one after the other, and a last one that finds nothing more. -/
theorem arrives_collect {step : Parser (Bool × List α)} {view : α → β}
    {spelled : α → List Lexeme → Prop} (follows : List Lexeme → Prop)
    (hprogresses : Progresses (collectTurn step)) (hlast : follows rest)
    (hend : ∀ s : State, s.Stands rest → (step setting s).Arrives rest fun r => r = (false, []))
    (hfollows : ∀ a lexemes rest, spelled a lexemes → follows rest → follows (lexemes ++ rest))
    (hturn : ∀ a lexemes rest (s : State), spelled a lexemes → follows rest →
      s.Stands (lexemes ++ rest) → (step setting s).Arrives rest
        fun r => r.1 = true ∧ r.2.map view = [view a])
    {as : List α} (has : InARow spelled as lexemes) (hs : s.Stands (lexemes ++ rest)) :
    (collect step setting s).Arrives rest fun found => found.map view = as.map view := by
  have hrow : follows (lexemes ++ rest) ∧ ∀ (turns : List (List α)) (s : State),
      s.Stands (lexemes ++ rest) → (loop (collectTurn step) turns setting s).Arrives rest
        fun turns' => turns'.reverse.flatten.map view =
          turns.reverse.flatten.map view ++ as.map view := by
    clear hs
    induction has with
    | nil =>
      refine ⟨hlast, fun turns s hs => ?_⟩
      obtain ⟨r, t, hreply, rfl, ht⟩ := (hend s hs).exists_eq
      rw [loop_eq hprogresses, collectTurn_eq hreply]
      exact ⟨by simp, ht⟩
    | @cons a as lexemes lexemes' ha _ ih =>
      obtain ⟨hmore, ih⟩ := ih
      refine ⟨?_, fun turns s hs => ?_⟩
      · rw [List.append_assoc]
        exact hfollows a lexemes _ ha hmore
      · rw [List.append_assoc] at hs
        obtain ⟨⟨again, found⟩, t, hreply, ⟨hagain, hfound⟩, ht⟩ :=
          (hturn a lexemes _ s ha hmore hs).exists_eq
        have hagain : again = true := hagain
        subst hagain
        rw [loop_eq hprogresses, collectTurn_eq hreply]
        refine (ih (found :: turns) t ht).imp (fun turns' t hturns => ?_) fun _ h => h
        refine ⟨hturns.1.trans ?_, hturns.2⟩
        have hfound : found.map view = [view a] := hfound
        simp [hfound]
  apply Reply.Arrives.bind (hrow.2 [] s hs)
  intro turns t hturns ht
  exact ⟨by simpa using hturns, ht⟩

/-! ## Attributes -/

section

variable {levels n : Nat}

theorem arrives_tagList {tags : List UInt64} (h : TagsSpelled tags (kindsOf lexemes))
    (hs : s.Stands (lexemes ++ rest)) :
    (tagList setting s).Arrives rest fun found => found = tags := by
  have halike : Alike (⟨true, true, true⟩ : Likeness) false false none .unread .behind
      (Like ⟨true, true, true⟩)
      tagList tagList := alike_tagList rfl
  refine .of_gives halike.keepAlike.left hs (gives_tagList h ?_)
  rw [hs.kinds, kindsOf_append]

theorem arrives_wireAttr (hlevels : Limits.standard.maxDepth ≤ levels)
    (hlimits : Limits.standard.maxDepth ≤ setting.limits.maxDepth) {attr : WireAttr}
    (hattr : attr.Spelled lexemes) (hrest : EndsAttr rest) (hs : s.Stands (lexemes ++ rest)) :
    (wireAttr (.within levels) setting s).Arrives rest
      fun found => relabel .bare found = some (relabel .bare attr) := by
  have hother {word : Lexeme} {name other : String} {more : List Lexeme} (hs : s.Stands (word :: more))
      (hword : word.token.kind = .ident name) (hne : name ≠ other) : s.kind.isWord other = false := by
    rw [hs.kind, hword]
    simpa [TokenKind.isWord] using hne
  cases hattr with
  | optional hword =>
    exact arrives_ifAccepted hs (by rw [hword]; rfl) fun t ht => ⟨rfl, ht⟩
  | deprecated hword =>
    refine arrives_ifUnaccepted (hother hs hword (by decide)) ?_
    exact arrives_ifAccepted hs (by rw [hword]; rfl) fun t ht => ⟨rfl, ht⟩
  | @default value word left right lexemes hword hleft hvalue hright =>
    refine arrives_ifUnaccepted (hother hs hword (by decide)) ?_
    refine arrives_ifUnaccepted (hother hs hword (by decide)) ?_
    refine arrives_ifAccepted hs (by rw [hword]; rfl) fun t ht => ?_
    apply Reply.Arrives.bind (arrives_require ht (by rw [hleft]; rfl))
    intro _ t₁ _ ht₁
    have ht₁ : t₁.Stands (lexemes ++ right :: rest) := by simpa using ht₁
    obtain ⟨e, t₂, hexpr, he, hrest₂, herrors₂⟩ := hvalue.reads ht₁.rest hright hrest hlevels
      (by rw [ht₁.depth]; exact hlimits) ht₁.context ht₁.errors ht₁.running
    have hkept : t₁.Kept true t₂ := ((Rules.carry_within levels).expr 0 t₁.kind).keeps.kept hexpr
    rw [bind_ok hexpr]
    apply Reply.Arrives.bind (arrives_require (ht₁.kept hkept herrors₂ hrest₂) (by rw [hright]; rfl))
    intro _ t₃ _ ht₃
    exact ⟨congrArg (fun e => some (WireAttr.default e)) he, ht₃⟩
  | @reserved tags _ ks hkinds htags =>
    obtain ⟨word, lexemes', rfl, hword, rfl⟩ := List.map_eq_cons_iff.1 hkinds
    refine arrives_ifUnaccepted (hother hs hword (by decide)) ?_
    refine arrives_ifUnaccepted (hother hs hword (by decide)) ?_
    refine arrives_ifUnaccepted (hother hs hword (by decide)) ?_
    refine arrives_ifAccepted hs (by rw [hword]; rfl) fun t ht => ?_
    apply Reply.Arrives.bind (arrives_tagList htags ht)
    rintro found t₁ rfl ht₁
    exact ⟨rfl, ht₁⟩

/-- Before the semicolon no more attributes are found. -/
theorem arrives_noAttr {g : Rules} (hs : s.Stands (lexeme :: rest))
    (hsemicolon : lexeme.token.kind = .symbol .semicolon) :
    (attrTurn g setting s).Arrives (lexeme :: rest) fun r => r = (false, []) := by
  have hword (word : String) : s.kind.isWord word = false := by
    rw [hs.kind, hsemicolon]
    rfl
  have hattr : (wireAttr g setting s).Arrives (lexeme :: rest) fun found => found = none :=
    arrives_ifUnaccepted (hword _) <| arrives_ifUnaccepted (hword _) <|
      arrives_ifUnaccepted (hword _) <| arrives_ifUnaccepted (hword _) ⟨rfl, hs⟩
  apply Reply.Arrives.bind hattr
  rintro _ t rfl ht
  exact ⟨rfl, ht⟩

theorem arrives_attrs (hlevels : Limits.standard.maxDepth ≤ levels)
    (hlimits : Limits.standard.maxDepth ≤ setting.limits.maxDepth) {attrs : List WireAttr}
    (hattrs : InARow WireAttr.Spelled attrs lexemes) (hs : s.Stands (lexemes ++ lexeme :: rest))
    (hsemicolon : lexeme.token.kind = .symbol .semicolon) (hrest : EndsAttr (lexeme :: rest)) :
    (collect (attrTurn (.within levels)) setting s).Arrives (lexeme :: rest)
      fun found => relabel .bare found = relabel .bare attrs := by
  have hprogresses := progresses (follows_collectTurn (follows_attrTurn (Rules.follow_within levels)))
  refine arrives_collect EndsAttr hprogresses hrest (fun s hs => arrives_noAttr hs hsemicolon)
    (fun attr lexemes rest h _ => h.endsAttr) (fun attr lexemes rest s hattr hrest hs => ?_) hattrs hs
  apply Reply.Arrives.bind (arrives_wireAttr hlevels hlimits hattr hrest hs)
  intro found t hfound ht
  cases found with
  | none => cases hfound
  | some found => exact ⟨⟨rfl, congrArg (fun a => [a]) (Option.some.inj hfound)⟩, ht⟩

/-! ## Fields -/

theorem arrives_wireType {type : WireType} (h : type.Spelled (kindsOf lexemes))
    (hs : s.Stands (lexemes ++ rest))
    (hrest : (kindsOf rest).head? ≠ some (.symbol .leftBracket)) :
    (wireType setting s).Arrives rest fun found => found = type := by
  have halike : Alike (⟨true, true, true⟩ : Likeness) false false none .unread .unread (· = ·)
      wireType wireType :=
    alike_wireType rfl
  refine .of_gives halike.keepAlike.left hs (gives_wireType h ?_ hrest)
  rw [hs.kinds, kindsOf_append]

theorem arrives_tag {tag : Option UInt64} (h : kindsOf lexemes = tagTokens tag)
    (hs : s.Stands (lexemes ++ rest)) (hrest : EndsAttr rest) :
    (optional (accept .atSign) integer setting s).Arrives rest fun found => found = tag := by
  cases tag with
  | none =>
    obtain rfl : lexemes = [] := List.map_eq_nil_iff.1 h
    refine arrives_ifUnaccepted ?_ ⟨rfl, hs⟩
    rw [← Bool.not_eq_true, State.isSymbol_kind_iff, hs.kinds]
    exact hrest.head?_ne nofun
  | some tag =>
    obtain ⟨sign, _, rfl, hsign, h⟩ := List.map_eq_cons_iff.1 h
    obtain ⟨number, _, rfl, hnumber, h⟩ := List.map_eq_cons_iff.1 h
    obtain rfl := List.map_eq_nil_iff.1 h
    refine arrives_ifAccepted hs (by rw [hsign]; rfl) fun t ht => ?_
    apply Reply.Arrives.bind (arrives_valueOf ht (by rw [hnumber]))
    rintro found t' rfl ht'
    exact ⟨rfl, ht'⟩

/-- Behind a field stands its semicolon. -/
theorem arrives_wireField (hlevels : Limits.standard.maxDepth ≤ levels)
    (hlimits : Limits.standard.maxDepth ≤ setting.limits.maxDepth) {field : WireField}
    (hfield : field.Spelled lexemes) (hs : s.Stands (lexemes ++ lexeme :: rest))
    (hsemicolon : lexeme.token.kind = .symbol .semicolon) (hrest : EndsAttr (lexeme :: rest)) :
    (wireField (.within levels) setting s).Arrives (lexeme :: rest)
      fun found => relabel .bare found = relabel .bare field := by
  obtain @⟨name, type, tag, attrs, span, head, lexemes, ks, hhead, htype, hattrs⟩ := hfield
  obtain ⟨word, _, rfl, hname, hhead⟩ := List.map_eq_cons_iff.1 hhead
  obtain ⟨colon, _, rfl, hcolon, hhead⟩ := List.map_eq_cons_iff.1 hhead
  obtain ⟨types, tags, rfl, rfl, htag⟩ := List.map_eq_append_iff.1 hhead
  have hbehind : EndsAttr (lexemes ++ lexeme :: rest) := by
    cases hattrs with
    | nil => exact hrest
    | cons hattr _ =>
      rw [List.append_assoc]
      exact hattr.endsAttr
  have hbracket : (kindsOf (tags ++ (lexemes ++ lexeme :: rest))).head? ≠ some (.symbol .leftBracket) := by
    have htag : kindsOf tags = tagTokens tag := htag
    rw [kindsOf_append, htag]
    cases tag with
    | none => exact hbehind.head?_ne nofun
    | some tag => simp [tagTokens]
  rw [wireField, start_bind]
  apply Reply.Arrives.bind (arrives_name hs hname)
  rintro found s₁ rfl hs₁
  apply Reply.Arrives.bind (arrives_require hs₁ (by rw [hcolon]; rfl))
  intro _ s₂ _ hs₂
  have hs₂ : s₂.Stands (types ++ (tags ++ (lexemes ++ lexeme :: rest))) := by simpa using hs₂
  apply Reply.Arrives.bind (arrives_wireType htype hs₂ hbracket)
  rintro found s₃ rfl hs₃
  apply Reply.Arrives.bind (arrives_tag htag hs₃ hbehind)
  rintro found s₄ rfl hs₄
  apply Reply.Arrives.bind (arrives_attrs hlevels hlimits hattrs hs₄ hsemicolon hrest)
  intro attrs' s₅ hattrs' hs₅
  exact arrives_part hs₅ fun span =>
    congrArg (fun attrs => (⟨_, _, _, attrs, .empty 0⟩ : WireField)) hattrs'

/-! ## Members -/

theorem arrives_variant (hn : n ≤ levels) (hlevels : levels ≤ setting.limits.maxDepth) {v : Variant}
    (hv : v.Spelled n (kindsOf lexemes)) (hs : s.Stands (lexemes ++ lexeme :: rest))
    (hsemicolon : lexeme.token.kind = .symbol .semicolon) :
    (variant (.within levels) setting s).Arrives (lexeme :: rest)
      fun found => relabel .bare found = relabel .bare v := by
  have hinner : ReadsInner (.within levels) setting s.depth (TypeExpr.Spelled n) :=
    ⟨Rules.reads_within hn (by rw [hs.depth, Nat.zero_add]; exact hlevels), fun t ks h => h.starts⟩
  have halike : Alike (⟨true, true, true⟩ : Likeness) false false none .unread .firm
      (Like ⟨true, true, true⟩)
      (variant (.within levels)) (variant (.within levels)) :=
    alike_variant (Rules.alike_within levels) rfl
  refine .of_gives halike.keepAlike.left hs ?_
  rw [kindsOf_cons, hsemicolon]
  refine gives_variant hinner hv ?_ rfl
  rw [hs.kinds, kindsOf_append, kindsOf_cons, hsemicolon]

/-- What a member is, its first two tokens tell. -/
theorem wireMember_eq (g : Rules) {name : String} {k : TokenKind} {ks : List TokenKind}
    (hs : s.kinds = .ident name :: k :: ks) :
    wireMember g setting s =
      if (name == "reserved" && k.isSymbol .leftParen) = true then reservedTags setting s
      else if k.isSymbol .colon = true then (do pure (WireMember.field (← wireField g))) setting s
      else (do pure (WireMember.variant (← variant g))) setting s := by
  have hsecond : s.peek 1 = k := State.peek_eq (by rw [hs]; rfl)
  have hword : (s.kind.isWord "reserved" && (s.peek 1).isSymbol .leftParen) =
      (name == "reserved" && k.isSymbol .leftParen) := by
    rw [State.kind_eq hs, hsecond]
    rfl
  rw [wireMember, query_bind, hword]
  cases name == "reserved" && k.isSymbol .leftParen with
  | true => rfl
  | false =>
    show (query (fun s => (s.peek 1).isSymbol .colon) >>= _) setting s = _
    rw [query_bind, hsecond]
    cases k.isSymbol .colon <;> rfl

/-- Behind a member stands its semicolon. -/
theorem arrives_wireMember (hn : n ≤ levels) (hlevels : levels ≤ setting.limits.maxDepth)
    (hstandard : Limits.standard.maxDepth ≤ levels) {m : WireMember} (hm : m.Spelled n lexemes)
    (hs : s.Stands (lexemes ++ lexeme :: rest)) (hsemicolon : lexeme.token.kind = .symbol .semicolon)
    (hrest : EndsAttr (lexeme :: rest)) :
    (wireMember (.within levels) setting s).Arrives (lexeme :: rest)
      fun found => relabel .bare found = relabel .bare m := by
  have hkinds : s.kinds = kindsOf lexemes ++ .symbol .semicolon :: kindsOf rest := by
    rw [hs.kinds, kindsOf_append, kindsOf_cons, hsemicolon]
  cases hm with
  | field hfield =>
    have hfirst : ∃ name ks, s.kinds = .ident name :: .symbol .colon :: ks := by
      obtain @⟨name, type, tag, attrs, span, head, lexemes, ks, hhead, htype, hattrs⟩ := hfield
      exact ⟨name, _, by rw [hkinds, kindsOf_append, hhead]; rfl⟩
    obtain ⟨name, ks, hfirst⟩ := hfirst
    have hreserved : (name == "reserved" && (TokenKind.symbol .colon).isSymbol .leftParen) = false :=
      Bool.and_false _
    rw [wireMember_eq _ hfirst, hreserved]
    apply Reply.Arrives.bind (arrives_wireField hstandard (Nat.le_trans hstandard hlevels) hfield hs
      hsemicolon hrest)
    intro field t hfield ht
    exact ⟨congrArg WireMember.field hfield, ht⟩
  | variant hvariant =>
    obtain ⟨name, k, ks, hfirst, hreserved, hcolon⟩ := hvariant.starts (kindsOf rest)
    rw [wireMember_eq _ (hkinds.trans hfirst), hreserved, hcolon]
    apply Reply.Arrives.bind (arrives_variant hn hlevels hvariant hs hsemicolon)
    intro variant t hvariant ht
    exact ⟨congrArg WireMember.variant hvariant, ht⟩
  | @reserved tags span _ ks hword htags =>
    have hfirst : ∃ ks, s.kinds = .ident "reserved" :: .symbol .leftParen :: ks := by
      obtain ⟨_, _⟩ := htags
      exact ⟨_, by rw [hkinds, hword]; rfl⟩
    obtain ⟨ks', hfirst⟩ := hfirst
    obtain ⟨word, lexemes, rfl, -, rfl⟩ := List.map_eq_cons_iff.1 hword
    rw [wireMember_eq _ hfirst]
    show (reservedTags setting s).Arrives _ _
    rw [reservedTags, start_bind, advance_bind]
    apply Reply.Arrives.bind (arrives_tagList htags hs.advance)
    rintro found t rfl ht
    exact arrives_part ht fun span => rfl

/-- A member and its semicolon; no number stands behind them. -/
theorem arrives_memberTurn (hn : n ≤ levels) (hlevels : levels ≤ setting.limits.maxDepth)
    (hstandard : Limits.standard.maxDepth ≤ levels) {m : WireMember}
    (hm : WithSemicolon (WireMember.Spelled n) m lexemes)
    (hrest : ∀ value, (kindsOf rest).head? ≠ some (.int value)) (hs : s.Stands (lexemes ++ rest)) :
    (separatedTurn (wireMember (.within levels)) setting s).Arrives rest
      fun r => r.1 = true ∧ r.2.map (relabel .bare) = [relabel .bare m] := by
  obtain @⟨lexemes, semicolon, hm, hsemicolon⟩ := hm
  have hs : s.Stands (lexemes ++ semicolon :: rest) := by simpa using hs
  have hopen : (s.kind.isSymbol .rightBrace || s.atEnd) = false := by
    obtain ⟨name, ks, hkinds⟩ := hm.starts
    have hkind : s.kind = .ident name := State.kind_eq (by rw [hs.kinds, kindsOf_append, hkinds]; rfl)
    rw [hkind, State.atEnd, hs.rest]
    simp [TokenKind.isSymbol]
  have hends : EndsAttr (semicolon :: rest) := by
    rw [EndsAttr, kindsOf_cons, hsemicolon]
    exact .semicolon hrest
  rw [separatedTurn, atBodyEnd, query_bind, hopen]
  apply Reply.Arrives.bind (arrives_wireMember hn hlevels hstandard hm hs hsemicolon hends)
  intro found t hfound ht
  have hseparator : (memberSeparator setting t).Arrives rest fun _ => True := by
    refine arrives_ifUnaccepted (by rw [ht.kind, hsemicolon]; rfl) ?_
    rw [accept, acceptIf_bind, kind_bind, ht.kind, hsemicolon]
    exact ⟨trivial, ht.advance⟩
  apply Reply.Arrives.bind hseparator
  intro _ t' _ ht'
  exact ⟨⟨rfl, congrArg (fun m => [m]) hfound⟩, ht'⟩

end

end Parser

end ActorFrontend
