import ActorFrontend.Grammar.Items
import ActorFrontend.Proofs.Course.Statements

/-!
# The courses of declarations

Declarations and the members of their bodies.
-/

namespace ActorFrontend.Parser

variable {loud : Bool} {setting : Setting} {α σ : Type} {s : State} {n : Nat} {g : Rules}

/-! ## Bodies -/

theorem consumes_membersIn {part : σ → Parser σ} (hpart : ∀ a, (part a).Consumes true) (a : σ) :
    (membersIn part a).Consumes true := by
  intro setting s n
  apply Stretch.refl.step (follows_expect_leftBrace _ _ _)
  intro _ s h
  apply h.bind (mayConsume_bodyParts a (.inr rfl) hpart)
  intro a s h
  apply h.step (follows_expect_rightBrace _ _ _)
  intro _ s h
  exact h.done fun _ => rfl

theorem consumes_members {member : Parser α} (hmember : member.Consumes true) :
    (members member).Consumes true := by
  intro setting s n
  apply Stretch.refl.bind (consumes_membersIn (consumes_found hmember) [])
  intro found s h
  exact h.done fun _ => rfl

theorem mayConsume_memberSeparator : memberSeparator.MayConsume loud := by
  intro setting s n
  refine Stretch.refl.ifAccept ⟨rfl, rfl, rfl⟩ (fun h => h.done nofun) ?_
  apply Stretch.refl.bind (follows_acceptIf ⟨rfl, rfl, rfl⟩)
  intro _ s h
  exact h.done nofun

/-- One member and the separator after it, unless the body ends here. -/
def separatedTurn (member : Parser α) : Parser (Bool × List α) := do
  if ← atBodyEnd then
    pure (false, [])
  else
    let next ← member
    memberSeparator
    pure (true, [next])

theorem follows_separatedTurn {member : Parser α} (hmember : member.Consumes loud) :
    (separatedTurn member).Follows loud Prod.fst := by
  intro setting s n
  apply Stretch.query
  split
  · exact Stretch.refl.done nofun
  · apply Stretch.refl.bind hmember
    intro next s h
    apply h.bind mayConsume_memberSeparator
    intro _ s h
    exact h.done fun _ => rfl

theorem consumes_separatedMembers {member : Parser α} (hmember : member.Consumes loud) :
    (separatedMembers member).Consumes loud := by
  intro setting s n
  apply Stretch.refl.step (follows_expect_leftBrace _ _ _)
  intro _ s h
  apply h.bind (mayConsume_collect (follows_separatedTurn hmember))
  intro found s h
  apply h.step (follows_expect_rightBrace _ _ _)
  intro _ s h
  exact h.done fun _ => rfl

/-! ## Visibility, imports, constants -/

theorem kind_advance (s : State) : s.advance.kind = s.peek 1 := by
  cases hrest : s.rest with
  | nil => simp [State.advance, State.kind, State.peek, hrest]
  | cons lexeme rest => cases rest <;> simp [State.advance, State.kind, State.peek, hrest]

theorem peek_advance (s : State) (k : Nat) : s.advance.peek k = s.peek (k + 1) := by
  cases hrest : s.rest with
  | nil => simp [State.advance, State.peek, hrest]
  | cons lexeme rest => simp [State.advance, State.peek, hrest]

/-- A restriction is a word between parentheses. -/
theorem kinds_of_restriction {vis : Visibility} (h : restriction? s = some vis) :
    s.kind = .symbol .leftParen ∧ (s.peek 1).isName = true ∧ s.peek 2 = .symbol .rightParen := by
  unfold restriction? at h
  split at h
  case isTrue hparens =>
    obtain ⟨hleft, hright⟩ := Bool.and_eq_true_iff.1 hparens
    refine ⟨TokenKind.eq_of_isSymbol hleft, ?_, TokenKind.eq_of_isSymbol hright⟩
    unfold restrictedVisibility? at h
    split at h
    case h_1 hword => rw [hword]; rfl
    case h_2 hword => rw [hword]; rfl
    case h_3 => contradiction
  case isFalse => contradiction

theorem mayConsume_visibility : visibility.MayConsume loud := by
  intro setting s n
  refine Stretch.refl.ifAccept ⟨rfl, rfl, rfl⟩ (fun h => ?_) (Stretch.refl.done nofun)
  apply Stretch.query
  cases hvis : restriction? s.advance with
  | none => exact h.done nofun
  | some vis =>
    obtain ⟨hleft, hword, hright⟩ := kinds_of_restriction hvis
    have hplain : Plain TokenKind.isName := ⟨rfl, rfl, rfl⟩
    apply h.past hleft rfl nofun
    intro h
    rw [← kind_advance] at hword
    apply h.past rfl (hplain.isBrace_eq_false hword) (hplain.ne_endOfFile hword)
    intro h
    rw [← peek_advance, ← kind_advance] at hright
    apply h.past hright rfl nofun
    intro h
    exact h.done nofun

theorem consumes_importStep : importStep.Consumes loud := by
  intro setting s n
  apply Stretch.kind
  intro kind hkind
  split
  · exact Stretch.refl.past hkind rfl nofun fun h => h.done fun _ => rfl
  · -- the names stand in braces
    have h : Stretch loud setting s n true s.advance (n + 1) :=
      Stretch.refl.token (.opening hkind) (by simp [hkind])
    apply Stretch.step h (consumes_name setting s.advance (n + 1))
    intro first s h
    apply h.step (follows_commaTail consumes_name.mayConsume fun s =>
      follows_expect_rightBrace _ s _)
    intro more s h
    exact h.done fun _ => rfl
  · apply Stretch.refl.bind consumes_name
    intro name s h
    exact h.done fun _ => rfl

/-- A separator, and what follows it in the path of an import. -/
def importTurn (found : List String × ImportSpec) : Parser (Bool × List String × ImportSpec) := do
  if ← accept .colonColon then
    match ← importStep with
    | .part name => pure (true, name :: found.1, found.2)
    | .spec spec => pure (false, found.1, spec)
  else
    pure (false, found.1, found.2)

theorem follows_importTurn (found : List String × ImportSpec) :
    (importTurn found).Follows loud Prod.fst := by
  intro setting s n
  refine Stretch.refl.ifAccept ⟨rfl, rfl, rfl⟩ (fun h => ?_) (Stretch.refl.done nofun)
  apply h.bind consumes_importStep
  intro step s h
  cases step with
  | part name => exact h.done fun _ => rfl
  | spec spec => exact h.done nofun

theorem consumes_importDecl : importDecl.Consumes true := by
  intro setting s n
  apply Stretch.refl.bind (consumes_expectKeyword _)
  intro _ s h
  apply h.bind consumes_name
  intro first s h
  apply h.bind (mayConsume_loop follows_importTurn _)
  rintro ⟨parts, spec⟩ s h
  apply h.bind mayConsume_semicolon
  intro _ s h
  exact h.done fun _ => rfl

theorem consumes_constDecl (hg : g.Follow) : (constDecl g).Consumes true := by
  intro setting s n
  apply Stretch.refl.bind (consumes_expectKeyword _)
  intro _ s h
  apply h.bind consumes_name
  intro name s h
  apply h.bind (consumes_expect ⟨rfl, rfl, rfl⟩)
  intro _ s h
  apply h.bind hg.type.louder
  intro type s h
  apply h.bind (consumes_expect ⟨rfl, rfl, rfl⟩)
  intro _ s h
  apply h.bind (hg.expr 0)
  intro value s h
  apply h.bind mayConsume_semicolon
  intro _ s h
  exact h.done fun _ => rfl

/-! ## Structs, aliases and enums -/

theorem consumes_fieldDecl (hg : g.type.Consumes loud) : (fieldDecl g).Consumes loud := by
  intro setting s n
  apply Stretch.start
  apply Stretch.refl.bind (follows_acceptIf ⟨rfl, rfl, rfl⟩)
  intro isVar s h
  apply h.weaken.bind consumes_name
  intro name s h
  apply h.bind (consumes_expect ⟨rfl, rfl, rfl⟩)
  intro _ s h
  apply h.bind hg
  intro type s h
  exact h.part fun _ _ => rfl

theorem consumes_fieldDecls (hg : g.type.Consumes loud) : (fieldDecls g).Consumes loud :=
  consumes_separatedMembers (consumes_fieldDecl hg)

theorem consumes_structRest (hg : g.type.Consumes loud) : (structRest g).Consumes loud := by
  intro setting s n
  apply Stretch.refl.bind consumes_name
  intro name s h
  apply h.bind (mayConsume_typeParams hg)
  intro typeParams s h
  apply h.bind (mayConsume_whereClause hg)
  intro whereClause s h
  apply h.bind (consumes_fieldDecls hg)
  intro fields s h
  exact h.done fun _ => rfl

theorem consumes_typeDecl (hg : g.Follow) : (typeDecl g).Consumes true := by
  intro setting s n
  apply Stretch.refl.bind (consumes_expectKeyword _)
  intro _ s h
  apply Stretch.query
  split
  · apply h.bind (consumes_structRest hg.type.louder)
    intro decl s h
    exact h.done fun _ => rfl
  · apply h.bind consumes_name
    intro name s h
    apply h.bind (mayConsume_typeParams hg.type.louder)
    intro typeParams s h
    refine h.ifAccept ⟨rfl, rfl, rfl⟩ (fun h => ?_) (h.failed rfl)
    apply h.bind hg.type.louder
    intro type s h
    apply h.bind mayConsume_semicolon
    intro _ s h
    exact h.done fun _ => rfl

theorem follows_structDecl (hg : g.type.Consumes loud) (hs : s.kind = .keyword .structKw) :
    (structDecl g setting s).Follows loud setting s n (fun _ => true) n :=
  Stretch.refl.past hs rfl nofun fun h => h.last (consumes_structRest hg) fun _ _ => rfl

theorem mayConsume_variantKind (hg : g.type.Consumes loud) :
    (variantKind g).MayConsume loud := by
  intro setting s n
  refine Stretch.refl.ifAccept ⟨rfl, rfl, rfl⟩ (fun h => ?_) ?_
  · apply h.bind (consumes_commaList hg.mayConsume ⟨rfl, rfl, rfl⟩)
    intro types s h
    exact h.done nofun
  · apply Stretch.query
    split
    · apply Stretch.refl.bind (consumes_fieldDecls hg)
      intro fields s h
      exact h.done nofun
    · exact Stretch.refl.done nofun

theorem consumes_variant (hg : g.type.Consumes loud) : (variant g).Consumes loud := by
  intro setting s n
  apply Stretch.start
  apply Stretch.refl.bind consumes_name
  intro name s h
  apply h.bind (mayConsume_variantKind hg)
  intro kind s h
  exact h.part fun _ _ => rfl

theorem consumes_enumDecl (hg : g.type.Consumes loud) : (enumDecl g).Consumes loud := by
  intro setting s n
  apply Stretch.refl.bind (consumes_expectKeyword _)
  intro _ s h
  apply h.bind consumes_name
  intro name s h
  apply h.bind (mayConsume_typeParams hg)
  intro typeParams s h
  apply h.bind (mayConsume_whereClause hg)
  intro whereClause s h
  apply h.bind (consumes_separatedMembers (consumes_variant hg))
  intro variants s h
  exact h.done fun _ => rfl

/-! ## Wire types -/

theorem mayConsume_closeLists (depth : Nat) (type : WireType) :
    (closeLists depth type).MayConsume loud := by
  induction depth generalizing type with
  | zero => exact fun _ _ _ => Stretch.refl
  | succ depth ih =>
    intro setting s n
    apply Stretch.refl.bind (consumes_expect ⟨rfl, rfl, rfl⟩)
    intro _ s h
    exact h.last (ih _) nofun

/-- A name, and the bracket after it if it is that of a list. -/
def wireTypeTurn (found : Nat × String) : Parser (Bool × Nat × String) := do
  let name ← valueOf (fun | .ident name => some name | _ => none) .wireType
  if ← query fun s => name == "list" && s.kind.isSymbol .leftBracket then
    advance
    pure (true, found.1 + 1, name)
  else
    pure (false, found.1, name)

/-- Every turn reads a name, the last one too. -/
theorem consumes_wireTypeTurn (found : Nat × String) : (wireTypeTurn found).Consumes loud := by
  intro setting s n
  apply Stretch.refl.bind (consumes_valueOf ⟨rfl, rfl, rfl⟩ _)
  intro name s h
  apply Stretch.query
  split
  case isTrue hlist =>
    have hkind := TokenKind.eq_of_isSymbol (Bool.and_eq_true_iff.1 hlist).2
    exact h.past hkind rfl nofun fun h => h.done fun _ => rfl
  case isFalse => exact h.done fun _ => rfl

theorem mayConsume_wireType : wireType.MayConsume loud := by
  intro setting s n
  apply Stretch.refl.bind (mayConsume_loop consumes_wireTypeTurn _)
  rintro ⟨depth, base⟩ s h
  exact h.last (mayConsume_closeLists depth _) nofun

theorem consumes_tagList : tagList.Consumes loud := by
  intro setting s n
  apply Stretch.refl.bind (consumes_expect ⟨rfl, rfl, rfl⟩)
  intro _ s h
  apply h.bind consumes_integer
  intro first s h
  apply h.bind (consumes_commaTail consumes_integer.mayConsume ⟨rfl, rfl, rfl⟩)
  intro more s h
  exact h.done fun _ => rfl

/-- Every attribute starts with a word of its own. -/
theorem follows_wireAttr (hg : g.Follow) : (wireAttr g).Follows true Option.isSome := by
  intro setting s n
  have h : Stretch true setting s n false s n := .refl
  refine h.ifAccept ⟨rfl, rfl, rfl⟩ (fun h => h.done fun _ => rfl) ?_
  refine h.ifAccept ⟨rfl, rfl, rfl⟩ (fun h => h.done fun _ => rfl) ?_
  refine h.ifAccept ⟨rfl, rfl, rfl⟩ (fun h => ?_) ?_
  · apply h.bind (consumes_expect ⟨rfl, rfl, rfl⟩)
    intro _ s h
    apply h.bind (hg.expr 0)
    intro value s h
    apply h.bind (consumes_expect ⟨rfl, rfl, rfl⟩)
    intro _ s h
    exact h.done fun _ => rfl
  refine h.ifAccept ⟨rfl, rfl, rfl⟩ (fun h => ?_) (h.done nofun)
  apply h.bind consumes_tagList
  intro tags s h
  exact h.done fun _ => rfl

/-- One attribute, if there is one more. -/
def attrTurn (g : Rules) : Parser (Bool × List WireAttr) := do
  match ← wireAttr g with
  | some attr => pure (true, [attr])
  | none => pure (false, [])

theorem follows_attrTurn (hg : g.Follow) : (attrTurn g).Follows true Prod.fst := by
  intro setting s n
  apply Stretch.refl.bind (follows_wireAttr hg)
  intro attr s h
  cases attr with
  | some attr => exact h.done fun _ => rfl
  | none => exact h.done nofun

theorem consumes_wireField (hg : g.Follow) : (wireField g).Consumes true := by
  intro setting s n
  apply Stretch.start
  apply Stretch.refl.bind consumes_name
  intro name s h
  apply h.bind (consumes_expect ⟨rfl, rfl, rfl⟩)
  intro _ s h
  apply h.bind mayConsume_wireType
  intro type s h
  apply h.bind (mayConsume_optional (follows_acceptIf ⟨rfl, rfl, rfl⟩) consumes_integer)
  intro tag s h
  apply h.bind (mayConsume_collect (follows_attrTurn hg))
  intro attrs s h
  exact h.part fun _ _ => rfl

theorem follows_reservedTags (hs : s.kind.isWord "reserved" = true) :
    (reservedTags setting s).Follows loud setting s n (fun _ => true) n := by
  have hplain : Plain (·.isWord "reserved") := ⟨rfl, rfl, rfl⟩
  apply Stretch.start
  apply Stretch.refl.past rfl (hplain.isBrace_eq_false hs) (hplain.ne_endOfFile hs)
  intro h
  apply h.bind consumes_tagList
  intro tags s h
  exact h.part fun _ _ => rfl

theorem consumes_wireMember (hg : g.Follow) : (wireMember g).Consumes true := by
  intro setting s n
  apply Stretch.query
  split
  case isTrue hkind => exact follows_reservedTags (Bool.and_eq_true_iff.1 hkind).1
  case isFalse =>
    apply Stretch.query
    split
    · apply Stretch.refl.bind (consumes_wireField hg)
      intro field s h
      exact h.done fun _ => rfl
    · apply Stretch.refl.bind (consumes_variant hg.type.louder)
      intro variant s h
      exact h.done fun _ => rfl

theorem consumes_wireKind : wireKind.Consumes loud := by
  intro setting s n
  refine Stretch.refl.ifAccept ⟨rfl, rfl, rfl⟩ (fun h => h.done fun _ => rfl) ?_
  exact Stretch.refl.ifAccept ⟨rfl, rfl, rfl⟩ (fun h => h.done fun _ => rfl)
    (Stretch.refl.failed rfl)

theorem consumes_wireDecl (hg : g.Follow) : (wireDecl g).Consumes true := by
  intro setting s n
  apply Stretch.refl.bind (consumes_expectKeyword _)
  intro _ s h
  apply h.bind consumes_wireKind
  intro kind s h
  apply h.bind consumes_name
  intro name s h
  apply h.bind (consumes_separatedMembers (consumes_wireMember hg))
  intro members s h
  exact h.done fun _ => rfl

/-! ## Functions -/

theorem consumes_param (hg : g.type.Consumes loud) : (param g).Consumes loud := by
  intro setting s n
  apply Stretch.start
  refine Stretch.refl.ifAccept ⟨rfl, rfl, rfl⟩ (fun h => ?_) ?_
  · apply h.bind (mayConsume_typeAfterColon hg)
    intro type s h
    exact h.part fun _ _ => rfl
  · apply Stretch.refl.bind consumes_name
    intro name s h
    apply h.bind (consumes_expect ⟨rfl, rfl, rfl⟩)
    intro _ s h
    apply h.bind hg
    intro type s h
    exact h.part fun _ _ => rfl

theorem consumes_params (hg : g.type.Consumes loud) : (params g).Consumes loud := by
  intro setting s n
  apply Stretch.refl.bind (consumes_expect ⟨rfl, rfl, rfl⟩)
  intro _ s h
  exact h.last (consumes_commaList (consumes_param hg).mayConsume ⟨rfl, rfl, rfl⟩) fun _ _ => rfl

/-- One parameter and the comma after it, or the dots that end the list. -/
def variadicTurn (g : Rules) (found : List Param × Bool) :
    Parser (Bool × List Param × Bool) := do
  if ← sees .rightParen then
    pure (false, found.1, false)
  else if ← accept .dotDotDot then
    pure (false, found.1, true)
  else
    let next ← param g
    pure (← accept .comma, next :: found.1, false)

theorem follows_variadicTurn (hg : g.type.Consumes loud) (found : List Param × Bool) :
    (variadicTurn g found).Follows loud Prod.fst := by
  intro setting s n
  apply Stretch.query
  split
  · exact Stretch.refl.done nofun
  · refine Stretch.refl.ifAccept ⟨rfl, rfl, rfl⟩ (fun h => h.done nofun) ?_
    apply Stretch.refl.bind (consumes_param hg)
    intro next s h
    apply h.bind (follows_acceptIf ⟨rfl, rfl, rfl⟩)
    intro again s h
    exact h.done fun _ => rfl

theorem consumes_variadicParams (hg : g.type.Consumes loud) :
    (variadicParams g).Consumes loud := by
  intro setting s n
  apply Stretch.refl.bind (consumes_expect ⟨rfl, rfl, rfl⟩)
  intro _ s h
  apply h.bind (mayConsume_loop (follows_variadicTurn hg) _)
  rintro ⟨params, variadic⟩ s h
  apply h.bind (consumes_expect ⟨rfl, rfl, rfl⟩)
  intro _ s h
  exact h.done fun _ => rfl

theorem mayConsume_fnBody (hg : g.Follow) (rule : BodyRule) : (fnBody g rule).MayConsume true := by
  intro setting s n
  apply Stretch.query
  split
  case isTrue hkind =>
    have hkind := TokenKind.eq_of_isSymbol (Bool.and_eq_true_iff.1 hkind).2
    exact Stretch.refl.past hkind rfl nofun fun h => h.done nofun
  case isFalse =>
    apply Stretch.refl.bind hg.block
    intro body s h
    exact h.done nofun

theorem mayConsume_fnResult (hg : g.type.Consumes loud) (flavor : FnFlavor) :
    (fnResult g flavor).MayConsume loud := by
  intro setting s n
  apply Stretch.refl.bind (mayConsume_resultType hg)
  intro ret s h
  split
  · exact h.failed rfl
  · exact h.done nofun

theorem consumes_fnRest (hg : g.Follow) (start : Nat) (flavor : FnFlavor) (rule : BodyRule) :
    (fnRest g start flavor rule).Consumes true := by
  intro setting s n
  apply Stretch.refl.bind consumes_name
  intro name s h
  apply h.bind (mayConsume_typeParams hg.type.louder)
  intro typeParams s h
  apply h.bind (consumes_params hg.type.louder)
  intro params s h
  apply h.bind (mayConsume_fnResult hg.type.louder flavor)
  intro ret s h
  apply h.bind (mayConsume_whereClause hg.type.louder)
  intro whereClause s h
  apply h.bind (mayConsume_fnBody hg rule)
  intro body s h
  apply h.bind (mayConsume_spanFrom _)
  intro span s h
  exact h.done fun _ => rfl

theorem consumes_fnDecl (hg : g.Follow) (rule : BodyRule) : (fnDecl g rule).Consumes true := by
  intro setting s n
  apply Stretch.start
  apply Stretch.refl.bind (follows_acceptIf ⟨rfl, rfl, rfl⟩)
  intro isAsync s h
  apply h.weaken.bind (follows_acceptIf ⟨rfl, rfl, rfl⟩)
  intro isGen s h
  apply h.weaken.bind (consumes_expectKeyword _)
  intro _ s h
  exact h.last (consumes_fnRest hg _ _ rule) fun _ _ => rfl

theorem consumes_externFn (hg : g.type.Consumes true) : (externFn g).Consumes true := by
  intro setting s n
  apply Stretch.start
  apply Stretch.refl.bind (consumes_expectKeyword _)
  intro _ s h
  apply h.bind consumes_name
  intro name s h
  apply h.bind (consumes_variadicParams hg)
  rintro ⟨params, dots⟩ s h
  apply h.bind (mayConsume_resultType hg)
  intro ret s h
  apply h.bind (follows_acceptIf ⟨rfl, rfl, rfl⟩)
  intro moreDots s h
  apply h.bind mayConsume_semicolon
  intro _ s h
  exact h.part fun _ _ => rfl

theorem consumes_externBlock (hg : g.type.Consumes true) : (externBlock g).Consumes true := by
  intro setting s n
  apply Stretch.refl.bind (consumes_expectKeyword _)
  intro _ s h
  apply h.bind consumes_string
  intro abi s h
  apply h.bind (consumes_members (consumes_externFn hg))
  intro fns s h
  exact h.done fun _ => rfl

/-! ## Traits and implementations -/

theorem follows_traitType (hg : g.type.Consumes true) (hs : s.kind.isKeyword .typeKw = true) :
    (traitType g setting s).Follows true setting s n (fun _ => true) n := by
  have hplain : Plain (·.isKeyword .typeKw) := ⟨rfl, rfl, rfl⟩
  apply Stretch.start
  apply Stretch.refl.past rfl (hplain.isBrace_eq_false hs) (hplain.ne_endOfFile hs)
  intro h
  apply h.bind consumes_name
  intro name s h
  apply h.bind (mayConsume_boundsAfterColon hg)
  intro bounds s h
  apply h.bind (mayConsume_optional (follows_acceptIf ⟨rfl, rfl, rfl⟩) hg)
  intro default s h
  apply h.bind mayConsume_semicolon
  intro _ s h
  exact h.part fun _ _ => rfl

theorem consumes_traitItem (hg : g.Follow) : (traitItem g).Consumes true := by
  intro setting s n
  apply Stretch.query
  split
  case isTrue hkind => exact follows_traitType hg.type.louder hkind
  case isFalse =>
    apply Stretch.refl.bind (consumes_fnDecl hg .optional)
    intro decl s h
    exact h.done fun _ => rfl

theorem consumes_traitDecl (hg : g.Follow) : (traitDecl g).Consumes true := by
  intro setting s n
  apply Stretch.refl.bind (consumes_expectKeyword _)
  intro _ s h
  apply h.bind consumes_name
  intro name s h
  apply h.bind (mayConsume_typeParams hg.type.louder)
  intro typeParams s h
  apply h.bind (mayConsume_boundsAfterColon hg.type.louder)
  intro supertraits s h
  apply h.bind (mayConsume_whereClause hg.type.louder)
  intro whereClause s h
  apply h.bind (consumes_members (consumes_traitItem hg))
  intro items s h
  exact h.done fun _ => rfl

theorem follows_implType (hg : g.type.Consumes true) (hs : s.kind.isKeyword .typeKw = true) :
    (implType g setting s).Follows true setting s n (fun _ => true) n := by
  have hplain : Plain (·.isKeyword .typeKw) := ⟨rfl, rfl, rfl⟩
  apply Stretch.start
  apply Stretch.refl.past rfl (hplain.isBrace_eq_false hs) (hplain.ne_endOfFile hs)
  intro h
  apply h.bind consumes_name
  intro name s h
  apply h.bind (consumes_expect ⟨rfl, rfl, rfl⟩)
  intro _ s h
  apply h.bind hg
  intro type s h
  apply h.bind mayConsume_semicolon
  intro _ s h
  exact h.part fun _ _ => rfl

theorem consumes_implItem (hg : g.Follow) : (implItem g).Consumes true := by
  intro setting s n
  apply Stretch.query
  split
  case isTrue hkind => exact follows_implType hg.type.louder hkind
  case isFalse =>
    apply Stretch.refl.bind (consumes_fnDecl hg .required)
    intro decl s h
    exact h.done fun _ => rfl

theorem mayConsume_traitOf (type : TypeExpr) : (traitOf type).MayConsume loud := by
  intro setting s n
  obtain ⟨id, span, kind⟩ := type
  cases kind with
  | named path args => exact Stretch.refl.done nofun
  | _ => exact Stretch.refl.failed rfl

theorem consumes_implHead (hg : g.type.Consumes loud) : (implHead g).Consumes loud := by
  intro setting s n
  apply Stretch.refl.bind hg
  intro first s h
  refine h.ifAccept ⟨rfl, rfl, rfl⟩ (fun h => ?_) (h.done fun _ => rfl)
  apply h.bind (mayConsume_traitOf first)
  intro traitRef s h
  apply h.bind hg
  intro selfType s h
  exact h.done fun _ => rfl

theorem consumes_implDecl (hg : g.Follow) : (implDecl g).Consumes true := by
  intro setting s n
  apply Stretch.refl.bind (consumes_expectKeyword _)
  intro _ s h
  apply h.bind (mayConsume_typeParams hg.type.louder)
  intro typeParams s h
  apply h.bind (consumes_implHead hg.type.louder)
  rintro ⟨traitRef, selfType⟩ s h
  apply h.bind (mayConsume_whereClause hg.type.louder)
  intro whereClause s h
  apply h.bind (consumes_members (consumes_implItem hg))
  intro items s h
  exact h.done fun _ => rfl

/-! ## Actors -/

theorem consumes_overflowPolicy : overflowPolicy.Consumes loud := by
  intro setting s n
  refine Stretch.refl.ifAccept ⟨rfl, rfl, rfl⟩ (fun h => ?_) ?_
  · apply h.bind (consumes_expect ⟨rfl, rfl, rfl⟩)
    intro _ s h
    apply h.bind consumes_name
    intro reducer s h
    apply h.bind (consumes_expect ⟨rfl, rfl, rfl⟩)
    intro _ s h
    apply h.bind (mayConsume_optional (follows_acceptIf ⟨rfl, rfl, rfl⟩)
      (consumes_valueOf ⟨rfl, rfl, rfl⟩ _))
    intro fallback s h
    exact h.done fun _ => rfl
  · apply Stretch.refl.bind (consumes_valueOf ⟨rfl, rfl, rfl⟩ _)
    intro policy s h
    exact h.done fun _ => rfl

theorem consumes_mailboxDecl : mailboxDecl.Consumes true := by
  intro setting s n
  apply Stretch.start
  apply Stretch.refl.bind (consumes_expectKeyword _)
  intro _ s h
  apply h.bind consumes_integer
  intro capacity s h
  apply h.bind (mayConsume_optional (follows_acceptIf ⟨rfl, rfl, rfl⟩) consumes_overflowPolicy)
  intro overflow s h
  apply h.bind mayConsume_semicolon
  intro _ s h
  exact h.part fun _ _ => rfl

theorem follows_actorField (hg : g.Follow) (hbrace : s.kind.isBrace = false)
    (hne : s.kind ≠ .endOfFile) :
    (actorField g setting s).Follows true setting s n (fun _ => true) n := by
  apply Stretch.start
  apply Stretch.query
  apply Stretch.refl.past rfl hbrace hne
  intro h
  apply h.bind consumes_name
  intro name s h
  apply h.bind (consumes_expect ⟨rfl, rfl, rfl⟩)
  intro _ s h
  apply h.bind hg.type.louder
  intro type s h
  apply h.bind (mayConsume_optional (follows_acceptIf ⟨rfl, rfl, rfl⟩) (hg.expr 0))
  intro init s h
  apply h.bind mayConsume_semicolon
  intro _ s h
  exact h.part fun _ _ => rfl

theorem follows_receiveFn (hg : g.Follow) (hs : s.kind = .ident "receive") :
    (receiveFn g setting s).Follows true setting s n (fun _ => true) n := by
  apply Stretch.start
  apply Stretch.refl.past hs rfl nofun
  intro h
  apply h.bind (follows_acceptIf ⟨rfl, rfl, rfl⟩)
  intro isGen s h
  apply h.bind (consumes_expectKeyword _)
  intro _ s h
  apply h.bind (consumes_fnRest hg _ _ .required)
  intro decl s h
  exact h.done fun _ => rfl

theorem consumes_actorMember (hg : g.Follow) : (actorMember g).Consumes true := by
  intro setting s n
  have hmethod : ((do pure (.method (← fnDecl g .required)) : Parser ActorMember) setting s).Follows
      true setting s n (fun _ => true) n := by
    apply Stretch.refl.bind (consumes_fnDecl hg .required)
    intro decl s h
    exact h.done fun _ => rfl
  apply Stretch.kind
  intro kind hkind
  split
  · exact follows_actorField hg (by rw [hkind]; rfl) (by simp [hkind])
  · exact follows_actorField hg (by rw [hkind]; rfl) (by simp [hkind])
  · apply Stretch.refl.bind consumes_mailboxDecl
    intro decl s h
    exact h.done fun _ => rfl
  · exact follows_receiveFn hg hkind
  · exact hmethod
  · exact hmethod
  · exact hmethod
  · exact Stretch.refl.failed rfl

theorem follows_actorInit (hg : g.Follow) (hs : s.kind.isWord "init" = true) :
    (actorInit g setting s).Follows true setting s n (fun _ => true) n := by
  have hplain : Plain (·.isWord "init") := ⟨rfl, rfl, rfl⟩
  apply Stretch.start
  apply Stretch.refl.past rfl (hplain.isBrace_eq_false hs) (hplain.ne_endOfFile hs)
  intro h
  apply h.bind (consumes_params hg.type.louder)
  intro params s h
  apply h.bind hg.block
  intro body s h
  exact h.part fun _ _ => rfl

theorem consumes_actorPart (hg : g.Follow) (found : Option ActorInit × List ActorMember) :
    (actorPart g found).Consumes true := by
  intro setting s n
  apply Stretch.query
  split
  case isTrue hkind =>
    apply Stretch.span
    apply Stretch.refl.step (follows_actorInit hg (Bool.and_eq_true_iff.1 hkind).1)
    intro decl s h
    obtain ⟨init, members⟩ := found
    cases init with
    | none => exact h.done fun _ => rfl
    | some first =>
      apply h.bind (mayConsume_record_duplicate _ _)
      intro _ s h
      exact h.done fun _ => rfl
  case isFalse =>
    apply Stretch.refl.bind (consumes_actorMember hg)
    intro next s h
    exact h.done fun _ => rfl

theorem consumes_actorDecl (hg : g.Follow) : (actorDecl g).Consumes true := by
  intro setting s n
  apply Stretch.refl.bind (consumes_expectKeyword _)
  intro _ s h
  apply h.bind consumes_name
  intro name s h
  apply h.bind (mayConsume_typeParams hg.type.louder)
  intro typeParams s h
  apply h.bind (mayConsume_boundsAfterColon hg.type.louder)
  intro bounds s h
  apply h.bind (mayConsume_whereClause hg.type.louder)
  intro whereClause s h
  apply h.bind (consumes_membersIn (consumes_actorPart hg) _)
  rintro ⟨init, members⟩ s h
  exact h.done fun _ => rfl

/-! ## Supervisors -/

theorem consumes_namedArg {ofName? : String → Option α} {wanted : Expected} :
    (namedArg ofName? wanted).Consumes loud := by
  intro setting s n
  apply Stretch.refl.bind (consumes_expect ⟨rfl, rfl, rfl⟩)
  intro _ s h
  apply h.bind (consumes_valueOf ⟨rfl, rfl, rfl⟩ _)
  intro value s h
  apply h.bind (consumes_expect ⟨rfl, rfl, rfl⟩)
  intro _ s h
  exact h.done fun _ => rfl

theorem consumes_restartBudget : restartBudget.Consumes loud := by
  intro setting s n
  apply Stretch.refl.bind (consumes_expect ⟨rfl, rfl, rfl⟩)
  intro _ s h
  apply h.bind consumes_integer
  intro maxRestarts s h
  apply h.bind (consumes_expect ⟨rfl, rfl, rfl⟩)
  intro _ s h
  apply h.bind consumes_duration
  intro window s h
  apply h.bind (consumes_expect ⟨rfl, rfl, rfl⟩)
  intro _ s h
  exact h.done fun _ => rfl

theorem consumes_restartSpec : restartSpec.Consumes loud := by
  intro setting s n
  apply Stretch.refl.bind consumes_namedArg
  intro policy s h
  apply h.bind (mayConsume_optional (follows_acceptIf ⟨rfl, rfl, rfl⟩) consumes_restartBudget)
  intro budget s h
  apply h.bind (mayConsume_optional (follows_acceptIf ⟨rfl, rfl, rfl⟩) consumes_namedArg)
  intro strategy s h
  exact h.done fun _ => rfl

theorem consumes_childSpec : childSpec.Consumes true := by
  intro setting s n
  apply Stretch.start
  apply Stretch.refl.bind (consumes_expectWord _)
  intro _ s h
  apply h.bind consumes_name
  intro name s h
  apply h.bind (consumes_expect ⟨rfl, rfl, rfl⟩)
  intro _ s h
  apply h.bind consumes_name
  intro actor s h
  apply h.bind (mayConsume_optional (follows_acceptIf ⟨rfl, rfl, rfl⟩) consumes_restartSpec)
  intro restart s h
  apply h.bind mayConsume_semicolon
  intro _ s h
  exact h.part fun _ _ => rfl

theorem consumes_supervisorField (hg : g.Follow) : (supervisorField g).Consumes true := by
  intro setting s n
  apply Stretch.start
  apply Stretch.refl.bind consumes_name
  intro name s h
  apply h.bind (consumes_expect ⟨rfl, rfl, rfl⟩)
  intro _ s h
  apply h.bind (hg.expr 0)
  intro value s h
  apply h.bind (mayConsume_spanFrom _)
  intro span s h
  apply h.bind mayConsume_memberSeparator
  intro _ s h
  exact h.done fun _ => rfl

theorem consumes_supervisorMember (hg : g.Follow) : (supervisorMember g).Consumes true := by
  intro setting s n
  apply Stretch.query
  split
  · apply Stretch.refl.bind consumes_childSpec
    intro child s h
    exact h.done fun _ => rfl
  · exact consumes_supervisorField hg setting s n

theorem consumes_supervisorDecl (hg : g.Follow) : (supervisorDecl g).Consumes true := by
  intro setting s n
  apply Stretch.refl.bind (consumes_expectKeyword _)
  intro _ s h
  apply h.bind consumes_name
  intro name s h
  apply h.bind (consumes_members (consumes_supervisorMember hg))
  intro members s h
  exact h.done fun _ => rfl

/-! ## Declarations -/

theorem consumes_itemKind (hg : g.Follow) : (itemKind g).Consumes true := by
  intro setting s n
  have hmade : ∀ {β : Type} {p : Parser β} (make : β → ItemKind),
      (p setting s).Follows true setting s n (fun _ => true) n →
      ((do pure (make (← p))) setting s).Follows true setting s n (fun _ => true) n :=
    fun make hp => Stretch.refl.step hp fun _ _ h => h.done fun _ => rfl
  apply Stretch.kind
  intro kind hkind
  split
  · exact hmade _ (consumes_importDecl setting s n)
  · exact hmade _ (consumes_constDecl hg setting s n)
  · exact consumes_typeDecl hg setting s n
  · exact hmade _ (follows_structDecl hg.type.louder hkind)
  · exact hmade _ (consumes_enumDecl hg.type.louder setting s n)
  · exact hmade _ (consumes_wireDecl hg setting s n)
  · exact hmade _ (consumes_traitDecl hg setting s n)
  · exact hmade _ (consumes_implDecl hg setting s n)
  · exact hmade _ (consumes_fnDecl hg _ setting s n)
  · exact hmade _ (consumes_fnDecl hg _ setting s n)
  · exact hmade _ (consumes_fnDecl hg _ setting s n)
  · exact hmade _ (consumes_externBlock hg.type.louder setting s n)
  · exact hmade _ (consumes_actorDecl hg setting s n)
  · exact hmade _ (consumes_supervisorDecl hg setting s n)
  · exact Stretch.refl.failed rfl

theorem consumes_item (hg : g.Follow) : (item g).Consumes true := by
  intro setting s n
  apply Stretch.start
  apply Stretch.refl.bind mayConsume_visibility
  intro vis s h
  apply h.bind (consumes_itemKind hg)
  intro kind s h
  exact h.node fun _ _ => rfl

end ActorFrontend.Parser
