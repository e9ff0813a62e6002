import ActorFrontend.Grammar.Items
import ActorFrontend.Proofs.Bracketed.Arguments
import ActorFrontend.Proofs.TypeText.Spelling

/-!
# How wire declarations are spelled

Which tokens spell a wire declaration.  What stands for a default value is a text of its own, so its
tokens count with their texts; of all other tokens only the kinds do.
-/

namespace ActorFrontend

variable {α τ : Type}

/-- The kinds of tokens. -/
def kindsOf (lexemes : List Lexeme) : List TokenKind := lexemes.map fun lexeme => lexeme.token.kind

@[simp] theorem kindsOf_cons (lexeme : Lexeme) (lexemes : List Lexeme) :
    kindsOf (lexeme :: lexemes) = lexeme.token.kind :: kindsOf lexemes := rfl

@[simp] theorem kindsOf_append (lexemes lexemes' : List Lexeme) :
    kindsOf (lexemes ++ lexemes') = kindsOf lexemes ++ kindsOf lexemes' := List.map_append

/-- What spells some things one after the other. -/
inductive InARow (spelled : α → List τ → Prop) : List α → List τ → Prop where
  | nil : InARow spelled [] []
  | cons {a : α} {as : List α} {ts ts' : List τ} (ha : spelled a ts) (has : InARow spelled as ts') :
      InARow spelled (a :: as) (ts ++ ts')

/-! ## Types and tags -/

/-- The tokens spell the type of a field on the wire. -/
inductive WireType.Spelled : WireType → List TokenKind → Prop where
  | primitive {name : String} (hname : name ∈ Parser.wirePrimitives) :
      Spelled (.primitive name) [.ident name]
  | named {name : String} (hname : name ∉ Parser.wirePrimitives) : Spelled (.named name) [.ident name]
  | list {elem : WireType} {ks : List TokenKind} (helem : elem.Spelled ks) :
      Spelled (.list elem) (.ident "list" :: .symbol .leftBracket :: (ks ++ [.symbol .rightBracket]))

/-- The tokens spell some tags in their parentheses. -/
inductive TagsSpelled : List UInt64 → List TokenKind → Prop where
  | intro {tags : List UInt64} {ks : List TokenKind} (hne : tags ≠ [])
      (htags : CommaSeparated (fun tag ks => ks = [.int tag]) tags ks) :
      TagsSpelled tags (.symbol .leftParen :: (ks ++ [.symbol .rightParen]))

/-- The tag of a field with its sign, if there is one. -/
def tagTokens : Option UInt64 → List TokenKind
  | none => []
  | some tag => [.symbol .atSign, .int tag]

/-! ## Fields on the wire -/

/-- The tokens spell the attribute. -/
inductive WireAttr.Spelled : WireAttr → List Lexeme → Prop where
  | optional {word : Lexeme} (hword : word.token.kind = .ident "optional") : Spelled .optional [word]
  | deprecated {word : Lexeme} (hword : word.token.kind = .ident "deprecated") : Spelled .deprecated [word]
  | default {value : Expr} {word left right : Lexeme} {lexemes : List Lexeme}
      (hword : word.token.kind = .ident "default") (hleft : left.token.kind = .symbol .leftParen)
      (hvalue : value.WrittenAs lexemes) (hright : right.token.kind = .symbol .rightParen) :
      Spelled (.default value) (word :: left :: (lexemes ++ [right]))
  | reserved {tags : List UInt64} {lexemes : List Lexeme} {ks : List TokenKind}
      (hkinds : kindsOf lexemes = .ident "reserved" :: ks) (htags : TagsSpelled tags ks) :
      Spelled (.reserved tags) lexemes

/-- The tokens spell the field: its name, its type and its tag, and then its attributes. -/
inductive WireField.Spelled : WireField → List Lexeme → Prop where
  | intro {name : String} {type : WireType} {tag : Option UInt64} {attrs : List WireAttr} {span : Span}
      {head lexemes : List Lexeme} {ks : List TokenKind}
      (hhead : kindsOf head = .ident name :: .symbol .colon :: (ks ++ tagTokens tag))
      (htype : type.Spelled ks) (hattrs : InARow WireAttr.Spelled attrs lexemes) :
      Spelled ⟨name, type, tag, attrs, span⟩ (head ++ lexemes)

/-! ## Variants -/

/-- What may stand between the fields of a variant. -/
inductive SeparatorTokens : List TokenKind → Prop where
  | none : SeparatorTokens []
  | comma : SeparatorTokens [.symbol .comma]
  | semicolon : SeparatorTokens [.symbol .semicolon]

/-- The tokens spell the field of a variant and what separates it from the next one. -/
inductive FieldDecl.Spelled (n : Nat) : FieldDecl → List TokenKind → Prop where
  | intro {isVar : Bool} {name : String} {type : TypeExpr} {span : Span} {ks separator : List TokenKind}
      (htype : type.Spelled n ks) (hseparator : SeparatorTokens separator) :
      Spelled n ⟨isVar, name, type, span⟩
        ((if isVar then [.keyword .varKw] else []) ++ .ident name :: .symbol .colon :: (ks ++ separator))

/-- The tokens spell the variant.  The name `reserved` before a parenthesis would be taken for the word. -/
inductive Variant.Spelled (n : Nat) : Variant → List TokenKind → Prop where
  | unit {name : String} {span : Span} : Spelled n ⟨name, .unit, span⟩ [.ident name]
  | tuple {name : String} {types : List TypeExpr} {span : Span} {ks : List TokenKind}
      (hname : name ≠ "reserved") (htypes : CommaSeparated (TypeExpr.Spelled n) types ks) :
      Spelled n ⟨name, .tuple types, span⟩
        (.ident name :: .symbol .leftParen :: (ks ++ [.symbol .rightParen]))
  | struct {name : String} {fields : List FieldDecl} {span : Span} {ks : List TokenKind}
      (hfields : InARow (FieldDecl.Spelled n) fields ks) :
      Spelled n ⟨name, .struct fields, span⟩
        (.ident name :: .symbol .leftBrace :: (ks ++ [.symbol .rightBrace]))

/-! ## Declarations -/

/-- The tokens spell the member. -/
inductive WireMember.Spelled (n : Nat) : WireMember → List Lexeme → Prop where
  | field {field : WireField} {lexemes : List Lexeme} (hfield : field.Spelled lexemes) :
      Spelled n (.field field) lexemes
  | variant {variant : Variant} {lexemes : List Lexeme} (hvariant : variant.Spelled n (kindsOf lexemes)) :
      Spelled n (.variant variant) lexemes
  | reserved {tags : List UInt64} {span : Span} {lexemes : List Lexeme} {ks : List TokenKind}
      (hkinds : kindsOf lexemes = .ident "reserved" :: ks) (htags : TagsSpelled tags ks) :
      Spelled n (.reserved tags span) lexemes

/-- A variant starts with a name, and it is taken neither for a list of reserved tags nor for a field. -/
theorem Variant.Spelled.starts {n : Nat} {v : Variant} {ks : List TokenKind} (h : v.Spelled n ks)
    (more : List TokenKind) :
    ∃ name k ks', ks ++ .symbol .semicolon :: more = .ident name :: k :: ks' ∧
      (name == "reserved" && k.isSymbol .leftParen) = false ∧ k.isSymbol .colon = false := by
  cases h with
  | unit => exact ⟨_, _, _, rfl, Bool.and_false _, rfl⟩
  | tuple hname => exact ⟨_, _, _, rfl, by simp [hname], rfl⟩
  | struct => exact ⟨_, _, _, rfl, Bool.and_false _, rfl⟩

/-- A member starts with a name. -/
theorem WireMember.Spelled.starts {n : Nat} {m : WireMember} {lexemes : List Lexeme}
    (h : m.Spelled n lexemes) :
    ∃ name ks, kindsOf lexemes = .ident name :: ks := by
  cases h with
  | field hfield =>
    obtain @⟨name, type, tag, attrs, span, head, lexemes, ks, hhead, htype, hattrs⟩ := hfield
    exact ⟨name, _, by rw [kindsOf_append, hhead]; rfl⟩
  | variant hvariant =>
    generalize kindsOf lexemes = ks at hvariant
    cases hvariant <;> exact ⟨_, _, rfl⟩
  | reserved hkinds => exact ⟨_, _, hkinds⟩

/-- What spells something and the semicolon behind it. -/
inductive WithSemicolon (spelled : α → List Lexeme → Prop) : α → List Lexeme → Prop where
  | intro {a : α} {lexemes : List Lexeme} {semicolon : Lexeme} (ha : spelled a lexemes)
      (hsemicolon : semicolon.token.kind = .symbol .semicolon) :
      WithSemicolon spelled a (lexemes ++ [semicolon])

/-- The keyword for the form of a declaration. -/
def WireKind.keyword : WireKind → Keyword
  | .struct => .structKw
  | .enum => .enumKw

/-- The tokens spell the declaration, the types in its variants on so many nesting levels. -/
inductive WireDecl.Spelled (n : Nat) : WireDecl → List Lexeme → Prop where
  | intro {kind : WireKind} {name : String} {members : List WireMember} {head lexemes : List Lexeme}
      {right : Lexeme}
      (hhead : kindsOf head = [.keyword .wireKw, .keyword kind.keyword, .ident name, .symbol .leftBrace])
      (hmembers : InARow (WithSemicolon (WireMember.Spelled n)) members lexemes)
      (hright : right.token.kind = .symbol .rightBrace) :
      Spelled n ⟨kind, name, members⟩ (head ++ lexemes ++ [right])

/-- A declaration starts with the keyword. -/
theorem WireDecl.Spelled.starts {n : Nat} {d : WireDecl} {lexemes : List Lexeme}
    (hd : d.Spelled n lexemes) :
    ∃ wire lexemes', lexemes = wire :: lexemes' ∧ wire.token.kind = .keyword .wireKw := by
  obtain @⟨kind, name, members, head, lexemes, right, hhead, hmembers, hright⟩ := hd
  obtain ⟨wire, head, rfl, hwire, -⟩ := List.map_eq_cons_iff.1 hhead
  exact ⟨wire, _, rfl, hwire⟩

/-! ## What can be spelled -/

/-- Whether names that stand for primitive types do so in this type, and no others. -/
def WireType.isPrintable : WireType → Bool
  | .primitive name => Parser.wirePrimitives.contains name
  | .named name => !Parser.wirePrimitives.contains name
  | .list elem => elem.isPrintable

/-- A default value is what some text is read as, and a list of tags is not empty. -/
def WireAttr.IsPrintable : WireAttr → Prop
  | .default value => ∃ text e, parseExpression text = .ok e ∧ relabel .bare e = relabel .bare value
  | .reserved tags => tags ≠ []
  | .optional | .deprecated => True

def WireField.IsPrintable (f : WireField) : Prop :=
  f.type.isPrintable = true ∧ ∀ attr ∈ f.attrs, attr.IsPrintable

/-- The types in a variant can be printed on so many levels. -/
def Variant.IsPrintable (n : Nat) (v : Variant) : Prop :=
  match v.kind with
  | .unit => True
  | .tuple types =>
      v.name ≠ "reserved" ∧ ∀ t ∈ types, t.isPrintable = true ∧ Shell.depthOf t.shells ≤ n
  | .struct fields => ∀ f ∈ fields, f.type.isPrintable = true ∧ Shell.depthOf f.type.shells ≤ n

def WireMember.IsPrintable (n : Nat) : WireMember → Prop
  | .field f => f.IsPrintable
  | .variant v => v.IsPrintable n
  | .reserved tags _ => tags ≠ []

def WireDecl.IsPrintable (n : Nat) (d : WireDecl) : Prop := ∀ m ∈ d.members, m.IsPrintable n

/-- A token of this kind, wherever it stands. -/
def Lexeme.ofKind (k : TokenKind) : Lexeme := ⟨⟨k, "", .empty 0⟩, false⟩

@[simp] theorem Lexeme.kind_ofKind (k : TokenKind) : (ofKind k).token.kind = k := rfl

@[simp] theorem kindsOf_map_ofKind (ks : List TokenKind) : kindsOf (ks.map .ofKind) = ks := by
  induction ks with
  | nil => rfl
  | cons k ks ih => exact congrArg (k :: ·) ih

theorem CommaSeparated.exists_of_forall {spelled : α → List TokenKind → Prop} {as : List α}
    (h : ∀ a ∈ as, ∃ ks, spelled a ks) : ∃ ks, CommaSeparated spelled as ks := by
  induction as with
  | nil => exact ⟨[], .nil⟩
  | cons a as ih =>
    obtain ⟨⟨ks, hks⟩, has⟩ := List.forall_mem_cons.1 h
    obtain ⟨ks', hks'⟩ := ih has
    exact ⟨_, .cons hks hks'⟩

theorem InARow.exists_of_forall {spelled : α → List τ → Prop} {as : List α}
    (h : ∀ a ∈ as, ∃ ts, spelled a ts) : ∃ ts, InARow spelled as ts := by
  induction as with
  | nil => exact ⟨[], .nil⟩
  | cons a as ih =>
    obtain ⟨⟨ts, hts⟩, has⟩ := List.forall_mem_cons.1 h
    obtain ⟨ts', hts'⟩ := ih has
    exact ⟨_, .cons hts hts'⟩

theorem WireType.exists_spelled {type : WireType} (h : type.isPrintable = true) :
    ∃ ks, type.Spelled ks := by
  induction type with
  | primitive name => exact ⟨_, .primitive (by simpa [isPrintable] using h)⟩
  | named name => exact ⟨_, .named (by simpa [isPrintable] using h)⟩
  | list elem ih =>
    obtain ⟨ks, hks⟩ := ih h
    exact ⟨_, .list hks⟩

theorem TagsSpelled.exists_of_ne_nil {tags : List UInt64} (hne : tags ≠ []) :
    ∃ ks, TagsSpelled tags ks := by
  have htags : ∃ ks, CommaSeparated (fun tag ks => ks = [.int tag]) tags ks :=
    CommaSeparated.exists_of_forall fun tag _ => ⟨_, rfl⟩
  obtain ⟨ks, hks⟩ := htags
  exact ⟨_, .intro hne hks⟩

theorem WireAttr.exists_spelled {attr : WireAttr} (h : attr.IsPrintable) :
    ∃ lexemes, attr.Spelled lexemes := by
  cases attr with
  | optional => exact ⟨_, .optional (Lexeme.kind_ofKind _)⟩
  | deprecated => exact ⟨_, .deprecated (Lexeme.kind_ofKind _)⟩
  | default value =>
    obtain ⟨text, e, hparse, he⟩ := h
    have hvalue : value.WrittenAs (Lexeme.significant false (tokenize text).tokens) :=
      ⟨text, e, hparse, he, .refl _⟩
    exact ⟨_, .default (Lexeme.kind_ofKind _) (Lexeme.kind_ofKind _) hvalue (Lexeme.kind_ofKind _)⟩
  | reserved tags =>
    obtain ⟨ks, hks⟩ := TagsSpelled.exists_of_ne_nil h
    exact ⟨_, .reserved (kindsOf_map_ofKind _) hks⟩

theorem WireField.exists_spelled {field : WireField} (h : field.IsPrintable) :
    ∃ lexemes, field.Spelled lexemes := by
  obtain ⟨name, type, tag, attrs, span⟩ := field
  obtain ⟨htype, hattrs⟩ := h
  obtain ⟨ks, hks⟩ := WireType.exists_spelled htype
  obtain ⟨lexemes, hlexemes⟩ :=
    InARow.exists_of_forall fun attr ha => WireAttr.exists_spelled (hattrs attr ha)
  exact ⟨_, .intro (kindsOf_map_ofKind _) hks hlexemes⟩

theorem Variant.exists_spelled {n : Nat} {v : Variant} (h : v.IsPrintable n) :
    ∃ ks, v.Spelled n ks := by
  obtain ⟨name, kind, span⟩ := v
  cases kind with
  | unit => exact ⟨_, .unit⟩
  | tuple types =>
    obtain ⟨hname, htypes⟩ := h
    obtain ⟨ks, hks⟩ := CommaSeparated.exists_of_forall fun t ht =>
      ⟨_, TypeExpr.spelled_tokens (htypes t ht).1 (htypes t ht).2⟩
    exact ⟨_, .tuple hname hks⟩
  | struct fields =>
    have hks : ∃ ks, InARow (FieldDecl.Spelled n) fields ks := by
      refine InARow.exists_of_forall fun f hf => ?_
      obtain ⟨htype, hlevels⟩ := h f hf
      exact ⟨_, .intro (TypeExpr.spelled_tokens htype hlevels) .none⟩
    obtain ⟨ks, hks⟩ := hks
    exact ⟨_, .struct hks⟩

theorem WireMember.exists_spelled {n : Nat} {m : WireMember} (h : m.IsPrintable n) :
    ∃ lexemes, m.Spelled n lexemes := by
  cases m with
  | field field =>
    obtain ⟨lexemes, hlexemes⟩ := WireField.exists_spelled h
    exact ⟨lexemes, .field hlexemes⟩
  | variant v =>
    obtain ⟨ks, hks⟩ := Variant.exists_spelled h
    exact ⟨ks.map .ofKind, .variant (by rwa [kindsOf_map_ofKind])⟩
  | reserved tags span =>
    obtain ⟨ks, hks⟩ := TagsSpelled.exists_of_ne_nil h
    exact ⟨_, .reserved (kindsOf_map_ofKind _) hks⟩

theorem WireDecl.exists_spelled {n : Nat} {d : WireDecl} (h : d.IsPrintable n) :
    ∃ lexemes, d.Spelled n lexemes := by
  obtain ⟨kind, name, members⟩ := d
  have hmembers : ∃ lexemes, InARow (WithSemicolon (WireMember.Spelled n)) members lexemes := by
    refine InARow.exists_of_forall fun m hm => ?_
    obtain ⟨lexemes, hlexemes⟩ := WireMember.exists_spelled (h m hm)
    exact ⟨_, .intro hlexemes (Lexeme.kind_ofKind _)⟩
  obtain ⟨lexemes, hlexemes⟩ := hmembers
  exact ⟨_, .intro (kindsOf_map_ofKind _) hlexemes (Lexeme.kind_ofKind _)⟩

end ActorFrontend
