import ActorFrontend.Grammar.Types
import ActorFrontend.Proofs.Placement.Combinators

/-!
# What the readings of types lay
-/

namespace ActorFrontend.Parser

variable {source : List Char} {setting : Setting} {s : State} {g : Rules}

theorem lays_typeArgs (hg : g.Lay source) : (typeArgs g).Lays source false outlines :=
  lays_listIf (passes_acceptIf rfl) (lays_commaList hg.type _)

/-! ## Bounds -/

theorem lays_bound (hg : g.Lay source) : (bound g).Lays source true outlines := by
  intro setting s hs
  apply Trail.start
  apply (Trail.refl hs).pass passes_path
  intro path s h
  apply h.bind (lays_typeArgs hg)
  intro args s h
  exact h.part fun span => by simp [outlines, Bound.outline]

theorem lays_bounds (hg : g.Lay source) : (bounds g).Lays source true outlines := by
  intro setting s hs
  apply (Trail.refl hs).bind (lays_bound hg)
  intro first s h
  refine h.bind (lays_collect outlines fun setting s hs => ?_) fun more s h => ?_
  · have h := Trail.refl hs
    refine h.ifAccept rfl (fun h => ?_) (h.done rfl)
    apply h.bind (lays_bound hg)
    intro next s h
    exact h.weaken.done (by simp)
  · exact h.done rfl

theorem lays_boundsAfterColon (hg : g.Lay source) :
    (boundsAfterColon g).Lays source false outlines :=
  lays_listIf (passes_acceptIf rfl) (lays_bounds hg)

theorem lays_typeAfterColon (hg : g.Lay source) : (typeAfterColon g).Lays source false outlines :=
  lays_optional (passes_acceptIf rfl) hg.type

theorem lays_resultType (hg : g.Lay source) : (resultType g).Lays source false outlines :=
  lays_optional (passes_acceptIf rfl) hg.type

theorem lays_typeParam (hg : g.Lay source) : (typeParam g).Lays source true outlines := by
  intro setting s hs
  apply Trail.start
  apply (Trail.refl hs).pass passes_name
  intro name s h
  apply h.bind (lays_boundsAfterColon hg)
  intro bounds s h
  exact h.part fun span => rfl

theorem lays_typeParams (hg : g.Lay source) : (typeParams g).Lays source false outlines :=
  lays_listIf (passes_acceptIf rfl) (lays_commaList (lays_typeParam hg) _)

theorem lays_wherePredicate (hg : g.Lay source) :
    (wherePredicate g).Lays source true outlines := by
  intro setting s hs
  apply Trail.start
  apply (Trail.refl hs).bind hg.type
  intro type s h
  apply h.pass (passes_expect _)
  intro _ s h
  apply h.bind (lays_bounds hg)
  intro bounds s h
  exact h.part fun span => rfl

theorem lays_whereClause (hg : g.Lay source) : (whereClause g).Lays source false outlines := by
  refine lays_listIf (passes_acceptIf rfl) (lays_collect outlines fun setting s hs => ?_)
  apply (Trail.refl hs).bind (lays_wherePredicate hg)
  intro predicate s h
  apply h.ifAccept rfl _ (h.weaken.done (by simp))
  intro h
  apply Trail.query
  exact h.weaken.done (by simp)

/-! ## Types -/

theorem lays_parenType (hg : g.Lay source) (hs : s.Located source setting) :
    (parenType g (s.span setting).start setting s).Lays source setting s true
      fun t os => outlines t = os := by
  apply (Trail.refl hs).advance.ifAccept rfl
  · intro h
    exact h.node fun id span => rfl
  · apply (Trail.refl hs).advance.bind hg.type
    intro first s h
    apply h.ifAccept rfl
    · intro h
      apply h.bind (lays_commaList hg.type _)
      intro more s h
      exact h.node fun id span => by simp [outlines, TypeExpr.outline]
    · apply h.pass (passes_expect _)
      intro _ s h
      exact h.done rfl

theorem lays_bracketType (hg : g.Lay source) :
    (bracketType g).Lays source true TypeKind.parts := by
  intro setting s hs
  apply (Trail.refl hs).advance.bind hg.type
  intro elem s h
  apply h.pass (passes_optional (passes_acceptIf rfl) passes_integer)
  intro length s h
  apply h.pass (passes_expect _)
  intro _ s h
  split
  · exact h.done rfl
  · exact h.done rfl

theorem lays_functionType (hg : g.Lay source) :
    (functionType g).Lays source true TypeKind.parts := by
  intro setting s hs
  apply (Trail.refl hs).advance.pass (passes_expect _)
  intro _ s h
  apply h.bind (lays_commaList hg.type _)
  intro params s h
  apply h.bind (lays_resultType hg)
  intro ret s h
  exact h.done (by cases ret <;> simp [outlines])

theorem lays_pointerType (hg : g.Lay source) :
    (pointerType g).Lays source true TypeKind.parts := by
  intro setting s hs
  have hpointee : ∀ mutability s', Trail source setting s false s' [] →
      ((do pure (.pointer mutability (← g.type)) : Parser TypeKind) setting s').Lays source
        setting s true fun k os => k.parts = os := by
    intro mutability s' h
    apply h.bind hg.type
    intro pointee s' h
    exact h.done rfl
  have h := (Trail.refl hs).advance
  apply h.ifAccept rfl (fun h => hpointee _ _ h.weaken)
  exact h.ifAccept rfl (fun h => hpointee _ _ h.weaken) (hpointee _ _ h)

theorem lays_traitObjectType (hg : g.Lay source) :
    (traitObjectType g).Lays source true TypeKind.parts := by
  intro setting s hs
  have h := (Trail.refl hs).advance
  apply h.ifAccept rfl
  · intro h
    apply h.bind (lays_bounds hg)
    intro bounds s h
    apply h.pass (passes_expect _)
    intro _ s h
    exact h.done (by simp [outlines])
  · apply h.bind (lays_bound hg)
    intro only s h
    exact h.done rfl

theorem lays_namedType (hg : g.Lay source) : (namedType g).Lays source true TypeKind.parts := by
  intro setting s hs
  apply (Trail.refl hs).pass passes_path
  intro path s h
  apply h.bind (lays_typeArgs hg)
  intro args s h
  exact h.done (by simp [outlines])

theorem lays_typeRule (hg : g.Lay source) : (typeRule g).Lays source true outlines := by
  intro setting s hs
  have hfinish : ∀ kind : Parser TypeKind, kind.Lays source true TypeKind.parts →
      ((do
        let kind ← kind
        node (s.span setting).start fun id span => (⟨id, span, kind⟩ : TypeExpr)) setting s).Lays
        source setting s true fun t os => outlines t = os := by
    intro kind hkind
    apply (Trail.refl hs).bind hkind
    intro kind s h
    exact h.node fun id span => rfl
  apply Trail.start
  apply Trail.kind
  intro kind _
  split
  · exact hfinish _ (lays_namedType hg)
  -- brackets make no node around a single type
  · exact lays_parenType hg hs
  · exact hfinish _ (lays_bracketType hg)
  · exact hfinish _ (lays_functionType hg)
  · exact hfinish _ (lays_pointerType hg)
  · exact hfinish _ (lays_traitObjectType hg)
  · exact (Trail.refl hs).failed rfl

end ActorFrontend.Parser
