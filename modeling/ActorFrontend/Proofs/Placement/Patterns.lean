import ActorFrontend.Grammar.Patterns
import ActorFrontend.Proofs.Placement.Combinators

/-!
# What the readings of patterns lay
-/

namespace ActorFrontend.Parser

variable {source : List Char} {setting : Setting} {s : State} {g : Rules}

theorem lays_literalNode : literalNode.Lays source true outlines := by
  intro setting s hs
  apply Trail.start
  apply (Trail.refl hs).pass (passes_valueOf rfl _)
  intro value s h
  exact h.node fun id span => rfl

theorem lays_fieldPattern (hg : g.Lay source) : (fieldPattern g).Lays source true outlines := by
  intro setting s hs
  apply Trail.start
  apply (Trail.refl hs).pass passes_name
  intro name s h
  apply h.bind (lays_optional (passes_acceptIf rfl) hg.pattern)
  intro pattern s h
  exact h.part fun span => by cases pattern <;> simp [outlines, FieldPattern.outline]

theorem lays_pathPattern (hg : g.Lay source) :
    (pathPattern g).Lays source true PatternKind.parts := by
  intro setting s hs
  apply (Trail.refl hs).pass passes_path
  intro path s h
  apply h.ifAccept rfl
  · intro h
    apply h.bind (lays_commaList hg.pattern _)
    intro args s h
    exact h.done (by simp [outlines])
  · apply Trail.query
    split
    · apply h.pass (passes_expect _)
      intro _ s h
      apply h.bind (lays_commaList (lays_fieldPattern hg) _)
      intro fields s h
      exact h.done (by simp [outlines])
    · split
      · exact h.done rfl
      · exact h.done rfl

theorem lays_parenPattern (hg : g.Lay source) (hs : s.Located source setting) :
    (parenPattern g (s.span setting).start setting s).Lays source setting s true
      fun p os => outlines p = os := by
  apply (Trail.refl hs).advance.ifAccept rfl
  · intro h
    exact h.node fun id span => rfl
  · apply (Trail.refl hs).advance.bind hg.pattern
    intro first s h
    apply h.ifAccept rfl
    · intro h
      apply h.bind (lays_commaList hg.pattern _)
      intro more s h
      exact h.node fun id span => by simp [outlines, Pattern.outline]
    · apply h.pass (passes_expect _)
      intro _ s h
      exact h.done rfl

theorem lays_negatedPattern (hs : s.Located source setting) :
    (negatedPattern (s.span setting).start setting s).Lays source setting s true
      fun k os => k.parts = os := by
  apply (Trail.refl hs).advance.bind lays_literalNode
  intro number s h
  exact h.node fun id span => rfl

theorem lays_singlePattern (hg : g.Lay source) : (singlePattern g).Lays source true outlines := by
  intro setting s hs
  have h := Trail.refl hs
  have hfinish : ∀ kind : Parser PatternKind,
      (kind setting s).Lays source setting s true (fun k os => k.parts = os) →
      ((do
        let kind ← kind
        node (s.span setting).start fun id span => (⟨id, span, kind⟩ : Pattern)) setting s).Lays
        source setting s true fun p os => outlines p = os := by
    intro kind hkind
    apply hkind.bind
    intro kind s os hos h
    subst hos
    exact h.node fun id span => rfl
  have hliteral : ((do pure (.literal (← literalNode)) : Parser PatternKind) setting s).Lays source
      setting s true fun k os => k.parts = os := by
    apply h.bind lays_literalNode
    intro literal s h
    exact h.done rfl
  apply Trail.start
  apply Trail.kind
  intro kind hkind
  split
  case h_1 => exact hfinish _ (h.past (by simp [hkind]) fun h => h.done rfl)
  case h_2 => exact hfinish _ (lays_pathPattern hg setting s hs)
  case h_8 =>
    apply Trail.query
    split
    · exact hfinish _ (lays_negatedPattern hs)
    · exact h.failed rfl
  -- brackets make a node of their own, if any
  case h_9 => exact lays_parenPattern hg hs
  case h_10 => exact h.failed rfl
  -- literals
  all_goals exact hfinish _ hliteral

/-! ## Alternatives -/

/-- The alternatives that a pattern amounts to stand within it. -/
theorem laid_alternatives {lo hi first next : Nat} {os : List Outline} {p : Pattern}
    (h : Laid source lo hi first next (os ++ outlines p)) :
    Laid source lo hi first next (os ++ outlines (alternatives p)) := by
  obtain ⟨id, span, kind⟩ := p
  unfold alternatives
  split
  case h_1 inner hkind =>
    cases hkind
    have hparts : (Pattern.outline ⟨id, span, .or inner⟩).parts = outlines inner := by
      simp [Outline.parts, Pattern.outline]
    rw [← hparts]
    exact h.unfoldLast
  case h_2 => simpa using h

theorem lays_patternRule (hg : g.Lay source) : (patternRule g).Lays source true outlines := by
  intro setting s hs
  apply Trail.start
  apply (Trail.refl hs).bind (lays_singlePattern hg)
  intro first s h
  apply Trail.query
  split
  · have h := h.relaid fun _ _ _ _ => laid_alternatives
    refine h.bind (lays_collect outlines fun setting s hs => ?_) fun more s h => ?_
    · have h := Trail.refl hs
      refine h.ifAccept rfl (fun h => ?_) (h.done rfl)
      apply h.bind (lays_singlePattern hg)
      intro next s h
      exact (h.weaken.relaid fun _ _ _ _ => laid_alternatives).done rfl
    · exact h.node fun id span => by simp [outlines, Pattern.outline]
  · exact h.done rfl

end ActorFrontend.Parser
