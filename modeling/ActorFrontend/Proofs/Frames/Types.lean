import ActorFrontend.Proofs.Frames.Basic

/-!
# The frames of types and patterns
-/

namespace ActorFrontend.Parser

open Framed

variable {deepest : Nat} {g g' : Rules}

/-! ## Types -/

theorem framed_typeArgs (hg : g.Framed deepest g') : Framed deepest (typeArgs g) (typeArgs g') :=
  .listIf (.accept _) (.commaList _ hg.type)

theorem framed_bound (hg : g.Framed deepest g') : Framed deepest (bound g) (bound g') :=
  .bind .start fun start => .bind .path fun _ => .bind (framed_typeArgs hg) fun _ =>
    .map (.spanFrom start)

theorem framed_bounds (hg : g.Framed deepest g') : Framed deepest (bounds g) (bounds g') := by
  refine .bind (framed_bound hg) fun first => .map (.collect (.bind (.accept _) fun more => ?_))
  exact .ite (.map (framed_bound hg)) (.value _)

theorem framed_boundsAfterColon (hg : g.Framed deepest g') :
    Framed deepest (boundsAfterColon g) (boundsAfterColon g') :=
  .listIf (.accept _) (framed_bounds hg)

theorem framed_typeAfterColon (hg : g.Framed deepest g') :
    Framed deepest (typeAfterColon g) (typeAfterColon g') :=
  .optional (.accept _) hg.type

theorem framed_resultType (hg : g.Framed deepest g') :
    Framed deepest (resultType g) (resultType g') :=
  .optional (.accept _) hg.type

theorem framed_typeParam (hg : g.Framed deepest g') : Framed deepest (typeParam g) (typeParam g') :=
  .bind .start fun start => .bind .name fun _ => .bind (framed_boundsAfterColon hg) fun _ =>
    .map (.spanFrom start)

theorem framed_typeParams (hg : g.Framed deepest g') :
    Framed deepest (typeParams g) (typeParams g') :=
  .listIf (.accept _) (.commaList _ (framed_typeParam hg))

theorem framed_wherePredicate (hg : g.Framed deepest g') :
    Framed deepest (wherePredicate g) (wherePredicate g') :=
  .bind .start fun start => .bind hg.type fun _ => .bind (.expect _) fun _ =>
    .bind (framed_bounds hg) fun _ => .map (.spanFrom start)

theorem framed_whereClause (hg : g.Framed deepest g') :
    Framed deepest (whereClause g) (whereClause g') := by
  refine .listIf (.acceptKeyword _) (.collect ?_)
  refine .bind (framed_wherePredicate hg) fun predicate => .bind (.accept _) fun more => ?_
  exact .ite (.map (.query _)) (.value _)

theorem framed_parenType (hg : g.Framed deepest g') (start : Nat) :
    Framed deepest (parenType g start) (parenType g' start) := by
  refine .bind .advance fun _ => .bind (.accept _) fun empty => .ite (.node _ _) ?_
  refine .bind hg.type fun first => .bind (.accept _) fun several => .ite ?_ ?_
  · exact .bind (.commaList _ hg.type) fun _ => .node _ _
  · exact .map (.expect _)

theorem framed_bracketType (hg : g.Framed deepest g') :
    Framed deepest (bracketType g) (bracketType g') := by
  refine .bind .advance fun _ => .bind hg.type fun elem =>
    .bind (.optional (.accept _) .integer) fun length => .bind (.expect _) fun _ => ?_
  cases length <;> exact .value _

theorem framed_functionType (hg : g.Framed deepest g') :
    Framed deepest (functionType g) (functionType g') :=
  .bind .advance fun _ => .bind (.expect _) fun _ => .bind (.commaList _ hg.type) fun _ =>
    .map (framed_resultType hg)

theorem framed_pointerType (hg : g.Framed deepest g') :
    Framed deepest (pointerType g) (pointerType g') :=
  .bind .advance fun _ => .bind (.acceptKeyword _) fun _ => .ite (.map hg.type) <|
    .bind (.acceptWord _) fun _ => .ite (.map hg.type) (.map hg.type)

theorem framed_traitObjectType (hg : g.Framed deepest g') :
    Framed deepest (traitObjectType g) (traitObjectType g') := by
  refine .bind .advance fun _ => .bind (.accept _) fun several => .ite ?_ (.map (framed_bound hg))
  exact .bind (framed_bounds hg) fun _ => .map (.expect _)

theorem framed_namedType (hg : g.Framed deepest g') : Framed deepest (namedType g) (namedType g') :=
  .bind .path fun _ => .map (framed_typeArgs hg)

theorem framed_typeRule (hg : g.Framed deepest g') : Framed deepest (typeRule g) (typeRule g') := by
  refine .bind .start fun start => .bind .kind fun kind => ?_
  have hfinish {p p' : Parser TypeKind} (h : Framed deepest p p') :
      Framed deepest (p >>= fun kind => node start fun id span => (⟨id, span, kind⟩ : TypeExpr))
        (p' >>= fun kind => node start fun id span => (⟨id, span, kind⟩ : TypeExpr)) :=
    .bind h fun _ => .node _ _
  split
  · exact hfinish (framed_namedType hg)
  · exact framed_parenType hg start
  · exact hfinish (framed_bracketType hg)
  · exact hfinish (framed_functionType hg)
  · exact hfinish (framed_pointerType hg)
  · exact hfinish (framed_traitObjectType hg)
  · exact .expected _

/-! ## Patterns -/

theorem framed_literalNode : Framed deepest literalNode literalNode :=
  .bind .start fun _ => .bind (.valueOf _ _) fun _ => .node _ _

theorem framed_fieldPattern (hg : g.Framed deepest g') :
    Framed deepest (fieldPattern g) (fieldPattern g') :=
  .bind .start fun start => .bind .name fun _ =>
    .bind (.optional (.accept _) hg.pattern) fun _ => .map (.spanFrom start)

theorem framed_pathPattern (hg : g.Framed deepest g') :
    Framed deepest (pathPattern g) (pathPattern g') := by
  refine .bind .path fun path => .bind (.accept _) fun args => .ite ?_ ?_
  · exact .map (.commaList _ hg.pattern)
  · refine .bind (.query _) fun fields => .ite ?_ ?_
    · exact .bind (.expect _) fun _ => .map (.commaList _ (framed_fieldPattern hg))
    · split <;> exact .value _

theorem framed_parenPattern (hg : g.Framed deepest g') (start : Nat) :
    Framed deepest (parenPattern g start) (parenPattern g' start) := by
  refine .bind .advance fun _ => .bind (.accept _) fun empty => .ite (.node _ _) ?_
  refine .bind hg.pattern fun first => .bind (.accept _) fun several => .ite ?_ ?_
  · exact .bind (.commaList _ hg.pattern) fun _ => .node _ _
  · exact .map (.expect _)

theorem framed_negatedPattern (start : Nat) :
    Framed deepest (negatedPattern start) (negatedPattern start) :=
  .bind .advance fun _ => .bind framed_literalNode fun _ => .node _ _

theorem framed_singlePattern (hg : g.Framed deepest g') :
    Framed deepest (singlePattern g) (singlePattern g') := by
  refine .bind .start fun start => .bind .kind fun kind => ?_
  have hfinish {p p' : Parser PatternKind} (h : Framed deepest p p') :
      Framed deepest (p >>= fun kind => node start fun id span => (⟨id, span, kind⟩ : Pattern))
        (p' >>= fun kind => node start fun id span => (⟨id, span, kind⟩ : Pattern)) :=
    .bind h fun _ => .node _ _
  have hliteral : Framed deepest (do pure (.literal (← literalNode)) : Parser PatternKind)
      (do pure (.literal (← literalNode))) := .map framed_literalNode
  split
  · exact hfinish (.bind .advance fun _ => .value _)
  · exact hfinish (framed_pathPattern hg)
  iterate 5 exact hfinish hliteral
  · exact .bind (.query _) fun _ => .ite (hfinish (framed_negatedPattern start)) (.expected _)
  · exact framed_parenPattern hg start
  · exact .expected _

theorem framed_patternRule (hg : g.Framed deepest g') :
    Framed deepest (patternRule g) (patternRule g') := by
  refine .bind .start fun start => .bind (framed_singlePattern hg) fun first =>
    .bind (.query _) fun several => .ite ?_ (.value _)
  refine .bind (.collect (.bind (.accept _) fun more => ?_)) fun _ => .node _ _
  exact .ite (.map (framed_singlePattern hg)) (.value _)

end ActorFrontend.Parser
