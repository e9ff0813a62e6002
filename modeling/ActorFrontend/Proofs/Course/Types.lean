import ActorFrontend.Grammar.Patterns
import ActorFrontend.Grammar.Types
import ActorFrontend.Proofs.Course.Combinators

/-!
# The courses of types and patterns

Types and patterns record no errors: whatever goes wrong in one breaks it off.
-/

namespace ActorFrontend

/-- What nests reads a token at least, and only expressions and blocks record errors. -/
structure Rules.Follow (g : Rules) : Prop where
  type : g.type.Consumes false
  pattern : g.pattern.Consumes false
  expr : ∀ minPower, (g.expr minPower).Consumes true
  block : g.block.Consumes true
  blockLike : g.blockLike.Consumes true

namespace Parser

variable {loud : Bool} {setting : Setting} {s : State} {n : Nat} {g : Rules}

/-! ## Types -/

theorem mayConsume_typeArgs (hg : g.type.Consumes loud) : (typeArgs g).MayConsume loud :=
  mayConsume_listIf (follows_acceptIf ⟨rfl, rfl, rfl⟩)
    (consumes_commaList hg.mayConsume ⟨rfl, rfl, rfl⟩)

theorem consumes_bound (hg : g.type.Consumes loud) : (bound g).Consumes loud := by
  intro setting s n
  apply Stretch.start
  apply Stretch.refl.bind consumes_path
  intro path s h
  apply h.bind (mayConsume_typeArgs hg)
  intro args s h
  exact h.part fun _ _ => rfl

/-- A plus sign and the next bound. -/
def boundTurn (g : Rules) : Parser (Bool × List Bound) := do
  if ← accept .plus then
    let next ← bound g
    pure (true, [next])
  else
    pure (false, [])

theorem follows_boundTurn (hg : g.type.Consumes loud) : (boundTurn g).Follows loud Prod.fst := by
  intro setting s n
  refine Stretch.refl.ifAccept ⟨rfl, rfl, rfl⟩ (fun h => ?_) (Stretch.refl.done nofun)
  apply h.bind (consumes_bound hg)
  intro next s h
  exact h.done fun _ => rfl

theorem consumes_bounds (hg : g.type.Consumes loud) : (bounds g).Consumes loud := by
  intro setting s n
  apply Stretch.refl.bind (consumes_bound hg)
  intro first s h
  apply h.bind (mayConsume_collect (follows_boundTurn hg))
  intro more s h
  exact h.done fun _ => rfl

theorem mayConsume_boundsAfterColon (hg : g.type.Consumes loud) :
    (boundsAfterColon g).MayConsume loud :=
  mayConsume_listIf (follows_acceptIf ⟨rfl, rfl, rfl⟩) (consumes_bounds hg)

theorem mayConsume_typeAfterColon (hg : g.type.Consumes loud) :
    (typeAfterColon g).MayConsume loud :=
  mayConsume_optional (follows_acceptIf ⟨rfl, rfl, rfl⟩) hg

theorem mayConsume_resultType (hg : g.type.Consumes loud) : (resultType g).MayConsume loud :=
  mayConsume_optional (follows_acceptIf ⟨rfl, rfl, rfl⟩) hg

theorem consumes_typeParam (hg : g.type.Consumes loud) : (typeParam g).Consumes loud := by
  intro setting s n
  apply Stretch.start
  apply Stretch.refl.bind consumes_name
  intro name s h
  apply h.bind (mayConsume_boundsAfterColon hg)
  intro bounds s h
  exact h.part fun _ _ => rfl

theorem mayConsume_typeParams (hg : g.type.Consumes loud) : (typeParams g).MayConsume loud :=
  mayConsume_listIf (follows_acceptIf ⟨rfl, rfl, rfl⟩)
    (consumes_commaList (consumes_typeParam hg).mayConsume ⟨rfl, rfl, rfl⟩)

theorem consumes_wherePredicate (hg : g.type.Consumes loud) :
    (wherePredicate g).Consumes loud := by
  intro setting s n
  apply Stretch.start
  apply Stretch.refl.bind hg
  intro type s h
  apply h.bind (consumes_expect ⟨rfl, rfl, rfl⟩)
  intro _ s h
  apply h.bind (consumes_bounds hg)
  intro bounds s h
  exact h.part fun _ _ => rfl

/-- A predicate of a `where` clause and the comma after it. -/
def whereTurn (g : Rules) : Parser (Bool × List WherePredicate) := do
  let predicate ← wherePredicate g
  if ← accept .comma then
    pure (!(← sees .leftBrace), [predicate])
  else
    pure (false, [predicate])

theorem follows_whereTurn (hg : g.type.Consumes loud) : (whereTurn g).Follows loud Prod.fst := by
  intro setting s n
  apply Stretch.refl.bind (consumes_wherePredicate hg)
  intro predicate s h
  refine h.ifAccept ⟨rfl, rfl, rfl⟩ (fun h => ?_) (h.done nofun)
  apply Stretch.query
  exact h.done fun _ => rfl

theorem mayConsume_whereClause (hg : g.type.Consumes loud) : (whereClause g).MayConsume loud :=
  mayConsume_listIf (follows_acceptIf ⟨rfl, rfl, rfl⟩) (mayConsume_collect (follows_whereTurn hg))

theorem follows_parenType (hg : g.type.Consumes loud) (start : Nat)
    (hs : s.kind = .symbol .leftParen) :
    (parenType g start setting s).Follows loud setting s n (fun _ => true) n := by
  apply Stretch.refl.past hs rfl nofun
  intro h
  apply h.ifAccept ⟨rfl, rfl, rfl⟩
  · intro h
    exact h.node fun _ _ => rfl
  · apply h.bind hg
    intro first s h
    apply h.ifAccept ⟨rfl, rfl, rfl⟩
    · intro h
      apply h.bind (consumes_commaList hg.mayConsume ⟨rfl, rfl, rfl⟩)
      intro more s h
      exact h.node fun _ _ => rfl
    · apply h.bind (consumes_expect ⟨rfl, rfl, rfl⟩)
      intro _ s h
      exact h.done fun _ => rfl

theorem follows_bracketType (hg : g.type.Consumes loud) (hs : s.kind = .symbol .leftBracket) :
    (bracketType g setting s).Follows loud setting s n (fun _ => true) n := by
  apply Stretch.refl.past hs rfl nofun
  intro h
  apply h.bind hg
  intro elem s h
  apply h.bind (mayConsume_optional (follows_acceptIf ⟨rfl, rfl, rfl⟩) consumes_integer)
  intro length s h
  apply h.bind (consumes_expect ⟨rfl, rfl, rfl⟩)
  intro _ s h
  cases length with
  | some length => exact h.done fun _ => rfl
  | none => exact h.done fun _ => rfl

theorem follows_functionType (hg : g.type.Consumes loud) (hs : s.kind = .keyword .fnKw) :
    (functionType g setting s).Follows loud setting s n (fun _ => true) n := by
  apply Stretch.refl.past hs rfl nofun
  intro h
  apply h.bind (consumes_expect ⟨rfl, rfl, rfl⟩)
  intro _ s h
  apply h.bind (consumes_commaList hg.mayConsume ⟨rfl, rfl, rfl⟩)
  intro params s h
  apply h.bind (mayConsume_resultType hg)
  intro ret s h
  exact h.done fun _ => rfl

theorem follows_pointerType (hg : g.type.Consumes loud) (hs : s.kind = .symbol .star) :
    (pointerType g setting s).Follows loud setting s n (fun _ => true) n := by
  apply Stretch.refl.past hs rfl nofun
  intro h
  apply h.ifAccept ⟨rfl, rfl, rfl⟩
  · intro h
    exact h.bind hg fun _ s h => h.done fun _ => rfl
  · apply h.ifAccept ⟨rfl, rfl, rfl⟩
    · intro h
      exact h.bind hg fun _ s h => h.done fun _ => rfl
    · exact h.bind hg fun _ s h => h.done fun _ => rfl

theorem follows_traitObjectType (hg : g.type.Consumes loud) (hs : s.kind = .keyword .dynKw) :
    (traitObjectType g setting s).Follows loud setting s n (fun _ => true) n := by
  apply Stretch.refl.past hs rfl nofun
  intro h
  apply h.ifAccept ⟨rfl, rfl, rfl⟩
  · intro h
    apply h.bind (consumes_bounds hg)
    intro bounds s h
    apply h.bind (consumes_expect ⟨rfl, rfl, rfl⟩)
    intro _ s h
    exact h.done fun _ => rfl
  · apply h.bind (consumes_bound hg)
    intro only s h
    exact h.done fun _ => rfl

theorem consumes_namedType (hg : g.type.Consumes loud) : (namedType g).Consumes loud := by
  intro setting s n
  apply Stretch.refl.bind consumes_path
  intro path s h
  apply h.bind (mayConsume_typeArgs hg)
  intro args s h
  exact h.done fun _ => rfl

theorem consumes_typeRule (hg : g.type.Consumes loud) : (typeRule g).Consumes loud := by
  intro setting s n
  have hfinish : ∀ kind : Parser TypeKind,
      (kind setting s).Follows loud setting s n (fun _ => true) n →
      ((do
        let kind ← kind
        node (s.span setting).start fun id span => (⟨id, span, kind⟩ : TypeExpr)) setting
        s).Follows loud setting s n (fun _ => true) n := by
    intro kind hkind
    apply Stretch.refl.step hkind
    intro kind s h
    exact h.node fun _ _ => rfl
  apply Stretch.start
  apply Stretch.kind
  intro kind hkind
  split
  · exact hfinish _ (consumes_namedType hg setting s n)
  · exact follows_parenType hg _ hkind
  · exact hfinish _ (follows_bracketType hg hkind)
  · exact hfinish _ (follows_functionType hg hkind)
  · exact hfinish _ (follows_pointerType hg hkind)
  · exact hfinish _ (follows_traitObjectType hg hkind)
  · exact Stretch.refl.failed rfl

/-! ## Patterns -/

theorem consumes_literalNode : literalNode.Consumes loud := by
  intro setting s n
  apply Stretch.start
  apply Stretch.refl.bind (consumes_valueOf ⟨rfl, rfl, rfl⟩ _)
  intro value s h
  exact h.node fun _ _ => rfl

theorem consumes_fieldPattern (hg : g.pattern.Consumes loud) :
    (fieldPattern g).Consumes loud := by
  intro setting s n
  apply Stretch.start
  apply Stretch.refl.bind consumes_name
  intro name s h
  apply h.bind (mayConsume_optional (follows_acceptIf ⟨rfl, rfl, rfl⟩) hg)
  intro pattern s h
  exact h.part fun _ _ => rfl

theorem consumes_pathPattern (hg : g.pattern.Consumes loud) : (pathPattern g).Consumes loud := by
  intro setting s n
  apply Stretch.refl.bind consumes_path
  intro path s h
  apply h.ifAccept ⟨rfl, rfl, rfl⟩
  · intro h
    apply h.bind (consumes_commaList hg.mayConsume ⟨rfl, rfl, rfl⟩)
    intro args s h
    exact h.done fun _ => rfl
  · apply Stretch.query
    split
    · apply h.step (follows_expect_leftBrace _ _ _)
      intro _ s h
      apply h.step (follows_commaList (consumes_fieldPattern hg).mayConsume fun s =>
        follows_expect_rightBrace _ s _)
      intro fields s h
      exact h.done fun _ => rfl
    · split
      · exact h.done fun _ => rfl
      · exact h.done fun _ => rfl

theorem follows_parenPattern (hg : g.pattern.Consumes loud) (start : Nat)
    (hs : s.kind = .symbol .leftParen) :
    (parenPattern g start setting s).Follows loud setting s n (fun _ => true) n := by
  apply Stretch.refl.past hs rfl nofun
  intro h
  apply h.ifAccept ⟨rfl, rfl, rfl⟩
  · intro h
    exact h.node fun _ _ => rfl
  · apply h.bind hg
    intro first s h
    apply h.ifAccept ⟨rfl, rfl, rfl⟩
    · intro h
      apply h.bind (consumes_commaList hg.mayConsume ⟨rfl, rfl, rfl⟩)
      intro more s h
      exact h.node fun _ _ => rfl
    · apply h.bind (consumes_expect ⟨rfl, rfl, rfl⟩)
      intro _ s h
      exact h.done fun _ => rfl

theorem follows_negatedPattern (start : Nat) (hs : s.kind = .symbol .minus) :
    (negatedPattern start setting s).Follows loud setting s n (fun _ => true) n := by
  apply Stretch.refl.past hs rfl nofun
  intro h
  apply h.bind consumes_literalNode
  intro number s h
  exact h.node fun _ _ => rfl

theorem consumes_singlePattern (hg : g.pattern.Consumes loud) :
    (singlePattern g).Consumes loud := by
  intro setting s n
  have hfinish : ∀ kind : Parser PatternKind,
      (kind setting s).Follows loud setting s n (fun _ => true) n →
      ((do
        let kind ← kind
        node (s.span setting).start fun id span => (⟨id, span, kind⟩ : Pattern)) setting
        s).Follows loud setting s n (fun _ => true) n := by
    intro kind hkind
    apply Stretch.refl.step hkind
    intro kind s h
    exact h.node fun _ _ => rfl
  have hliteral : ((do pure (.literal (← literalNode)) : Parser PatternKind) setting s).Follows
      loud setting s n (fun _ => true) n := by
    apply Stretch.refl.bind consumes_literalNode
    intro literal s h
    exact h.done fun _ => rfl
  apply Stretch.start
  apply Stretch.kind
  intro kind hkind
  split
  case h_1 =>
    exact hfinish _ (Stretch.refl.past hkind rfl nofun fun h => h.done fun _ => rfl)
  case h_2 => exact hfinish _ (consumes_pathPattern hg setting s n)
  case h_8 =>
    apply Stretch.query
    split
    · exact hfinish _ (follows_negatedPattern _ hkind)
    · exact Stretch.refl.failed rfl
  case h_9 => exact follows_parenPattern hg _ hkind
  case h_10 => exact Stretch.refl.failed rfl
  -- literals
  all_goals exact hfinish _ hliteral

/-- A bar and the next alternative. -/
def alternativeTurn (g : Rules) : Parser (Bool × List Pattern) := do
  if ← accept .pipe then
    let next ← singlePattern g
    pure (true, alternatives next)
  else
    pure (false, [])

theorem follows_alternativeTurn (hg : g.pattern.Consumes loud) :
    (alternativeTurn g).Follows loud Prod.fst := by
  intro setting s n
  refine Stretch.refl.ifAccept ⟨rfl, rfl, rfl⟩ (fun h => ?_) (Stretch.refl.done nofun)
  apply h.bind (consumes_singlePattern hg)
  intro next s h
  exact h.done fun _ => rfl

theorem consumes_patternRule (hg : g.pattern.Consumes loud) : (patternRule g).Consumes loud := by
  intro setting s n
  apply Stretch.start
  apply Stretch.refl.bind (consumes_singlePattern hg)
  intro first s h
  apply Stretch.query
  split
  · apply h.bind (mayConsume_collect (follows_alternativeTurn hg))
    intro more s h
    exact h.node fun _ _ => rfl
  · exact h.done fun _ => rfl

end Parser

end ActorFrontend
