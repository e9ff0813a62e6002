import ActorFrontend.Proofs.Alike.Types
import ActorFrontend.Proofs.Nesting.Makes

/-!
# What nests in types and patterns
-/

namespace ActorFrontend

variable {R : Regime} {n : Nat} {g : Rules} {loud : Bool}

/-- Readings whose shells have the property of the regime where so many levels are left. -/
structure Rules.Make (R : Regime) (n : Nat) (g : Rules) : Prop where
  type : Parser.Makes R false (R.Good n) g.type
  pattern : Parser.Makes R false (R.Good n) g.pattern
  expr : ∀ minPower, Parser.Makes R true (R.Good n) (g.expr minPower)
  block : Parser.Makes R true (R.Good n) g.block
  blockLike : Parser.Makes R true (R.Good n) g.blockLike
  splice : ∀ t tokens span, R.known t → t.HasSplice tokens span →
    Parser.Makes R true (fun e => R.Good n (StringPart.expr e)) (Parser.splice g tokens span)

theorem Rules.Make.succ (hg : g.Make R n) : g.Make R (n + 1) where
  type := hg.type.imp fun _ => Regime.All.succ
  pattern := hg.pattern.imp fun _ => Regime.All.succ
  expr minPower := (hg.expr minPower).imp fun _ => Regime.All.succ
  block := hg.block.imp fun _ => Regime.All.succ
  blockLike := hg.blockLike.imp fun _ => Regime.All.succ
  splice t tokens span ht hsplice := (hg.splice t tokens span ht hsplice).imp fun _ => Regime.All.succ

namespace Parser

open Makes

theorem keeps_path : path.Keeps loud := by
  have h : Alike (⟨true, true, true⟩ : Likeness) loud false none .unread .firm (· = ·)
      path path := alike_path rfl
  exact h.keepAlike.left

theorem keeps_literalNode : literalNode.Keeps loud := by
  have h : Alike (⟨true, true, true⟩ : Likeness) loud false none .unread .behind (Like ⟨true, true, true⟩)
      literalNode literalNode := alike_literalNode rfl
  exact h.keepAlike.left

/-! ## Types -/

theorem makes_typeArgs (hg : g.Make R n) : Makes R false (R.Good n) (typeArgs g) :=
  .listIf (keeps_acceptIf _) (.commaList hg.type)

theorem makes_bound (hg : g.Make R n) : Makes R false (R.Good n) (bound g) := by
  refine .start fun start => .pass keeps_path fun path => .bind (makes_typeArgs hg) fun args => ?_
  refine .spanFrom fun span => .value fun hargs => ?_
  simpa using hargs

theorem makes_bounds (hg : g.Make R n) : Makes R false (R.Good n) (bounds g) := by
  refine .bind (makes_bound hg) fun first => ?_
  refine .bind (.collect (n := n) (.acceptIf fun found => ?_)) fun more => ?_
  · split
    · exact .bind (makes_bound hg) fun next => .value Regime.good_single
    · exact .value Regime.all_nil
  · exact .value fun hmore hfirst => by simpa using ⟨hfirst, hmore⟩

theorem makes_boundsAfterColon (hg : g.Make R n) : Makes R false (R.Good n) (boundsAfterColon g) :=
  .listIf (keeps_acceptIf _) (makes_bounds hg)

theorem makes_typeAfterColon (hg : g.Make R n) : Makes R false (R.Good n) (typeAfterColon g) :=
  .optional (keeps_acceptIf _) hg.type

theorem makes_resultType (hg : g.Make R n) : Makes R false (R.Good n) (resultType g) :=
  .optional (keeps_acceptIf _) hg.type

theorem makes_typeParam (hg : g.Make R n) : Makes R false (R.Good n) (typeParam g) :=
  .start fun _ => .valueOf fun _ => .bind (makes_boundsAfterColon hg) fun _ => .spanFrom fun _ =>
    .value id

theorem makes_typeParams (hg : g.Make R n) : Makes R false (R.Good n) (typeParams g) :=
  .listIf (keeps_acceptIf _) (.commaList (makes_typeParam hg))

theorem makes_wherePredicate (hg : g.Make R n) : Makes R false (R.Good n) (wherePredicate g) := by
  refine .start fun start => .bind hg.type fun type => .require (.bind (makes_bounds hg) fun bounds => ?_)
  refine .spanFrom fun span => .value fun hbounds htype => ?_
  simp_all

theorem makes_whereClause (hg : g.Make R n) : Makes R false (R.Good n) (whereClause g) := by
  refine .listIf (keeps_acceptIf _) (.collect (.bind (makes_wherePredicate hg) fun predicate => ?_))
  refine .acceptIf fun found => ?_
  split
  · exact .query fun last => .value Regime.good_single
  · exact .value Regime.good_single

/-- A type around other parts is one level deeper than these. -/
theorem good_type {id : NodeId} {span : Span} {kind : TypeKind} (h : R.All n kind.shells) :
    R.Good (n + 1) (⟨id, span, kind⟩ : TypeExpr) := Regime.all_nest h

theorem makes_parenType (hg : g.Make R n) (start : Nat) :
    Makes R false (R.Good (n + 1)) (parenType g start) := by
  refine .advance (.acceptIf fun empty => ?_)
  split
  · exact .node fun id span => good_type Regime.all_nil
  · refine .bind hg.type fun first => .acceptIf fun several => ?_
    split
    · refine .bind (.commaList hg.type) fun more => .node fun id span hmore hfirst => good_type ?_
      simp_all
    · exact .require (.value Regime.All.succ)

theorem makes_bracketType (hg : g.Make R n) :
    Makes R false (fun kind : TypeKind => R.All n kind.shells) (bracketType g) := by
  have hlength : (optional (accept .semicolon) integer).Keeps false := by
    refine .bind (keeps_acceptIf _) fun found _ => ?_
    split
    · exact .bind (keeps_valueOf _ _) fun _ _ => .pure _
    · exact .pure _
  refine .advance (.bind hg.type fun elem => .pass hlength fun length => .require ?_)
  cases length with
  | some length => exact .value fun h => h
  | none => exact .value fun h => h

theorem makes_functionType (hg : g.Make R n) :
    Makes R false (fun kind : TypeKind => R.All n kind.shells) (functionType g) := by
  refine .advance (.require (.bind (.commaList hg.type) fun params => ?_))
  refine .bind (makes_resultType hg) fun ret => .value fun hret hparams => ?_
  cases ret <;> simp_all

theorem makes_pointerType (hg : g.Make R n) :
    Makes R false (fun kind : TypeKind => R.All n kind.shells) (pointerType g) := by
  refine .advance (.acceptIf fun isConst => ?_)
  split
  · exact .bind hg.type fun pointee => .value fun h => h
  · refine .acceptIf fun isMut => ?_
    split
    · exact .bind hg.type fun pointee => .value fun h => h
    · exact .bind hg.type fun pointee => .value fun h => h

theorem makes_traitObjectType (hg : g.Make R n) :
    Makes R false (fun kind : TypeKind => R.All n kind.shells) (traitObjectType g) := by
  refine .advance (.acceptIf fun several => ?_)
  split
  · refine .bind (makes_bounds hg) fun bounds => .require (.value fun h => ?_)
    simpa using h
  · refine .bind (makes_bound hg) fun only => .value fun h => ?_
    simpa using h

theorem makes_namedType (hg : g.Make R n) :
    Makes R false (fun kind : TypeKind => R.All n kind.shells) (namedType g) := by
  refine .pass keeps_path fun path => .bind (makes_typeArgs hg) fun args => .value fun h => ?_
  simpa using h

theorem makes_typeRule (hg : g.Make R n) : Makes R false (R.Good (n + 1)) (typeRule g) := by
  refine .start fun start => .kind fun kind => ?_
  have hfinish {p : Parser TypeKind}
      (h : Makes R false (fun kind : TypeKind => R.All n kind.shells) p) :
      Makes R false (R.Good (n + 1)) (p >>= fun kind => node start fun id span =>
        (⟨id, span, kind⟩ : TypeExpr)) :=
    .bind h fun kind => .node fun id span => good_type
  split
  · exact hfinish (makes_namedType hg)
  · exact makes_parenType hg start
  · exact hfinish (makes_bracketType hg)
  · exact hfinish (makes_functionType hg)
  · exact hfinish (makes_pointerType hg)
  · exact hfinish (makes_traitObjectType hg)
  · exact .expected _

/-! ## Patterns -/

theorem makes_fieldPattern (hg : g.Make R n) : Makes R false (R.Good n) (fieldPattern g) := by
  refine .start fun start => .valueOf fun name => ?_
  refine .bind (.optional (keeps_acceptIf _) hg.pattern) fun pattern => .spanFrom fun span => ?_
  refine .value fun h => ?_
  cases pattern with
  | none => exact Regime.all_nil
  | some p => simpa using h

theorem makes_pathPattern (hg : g.Make R n) :
    Makes R false (fun kind : PatternKind => R.All n kind.shells) (pathPattern g) := by
  refine .pass keeps_path fun path => .acceptIf fun args => ?_
  split
  · refine .bind (.commaList hg.pattern) fun elems => .value fun h => ?_
    simpa using h
  · refine .query fun fields => ?_
    split
    · refine .require (.bind (.commaList (makes_fieldPattern hg)) fun fields => .value fun h => ?_)
      simpa using h
    · split
      · exact .value Regime.all_nil
      · exact .value Regime.all_nil

/-- A tuple is one level deeper than its elements. -/
theorem good_tuplePattern {id : NodeId} {span : Span} {elems : List Pattern} (h : R.Good n elems) :
    R.Good (n + 1) (⟨id, span, .tuple elems⟩ : Pattern) := by
  have hnest : R.All (n + 1) [.nest (shells elems)] := Regime.all_nest h
  simpa using hnest

theorem makes_parenPattern (hg : g.Make R n) (start : Nat) :
    Makes R false (R.Good (n + 1)) (parenPattern g start) := by
  refine .advance (.acceptIf fun empty => ?_)
  split
  · exact .node fun id span => good_tuplePattern Regime.all_nil
  · refine .bind hg.pattern fun first => .acceptIf fun several => ?_
    split
    · refine .bind (.commaList hg.pattern) fun more => .node fun id span hmore hfirst => ?_
      exact good_tuplePattern (by simpa using ⟨hfirst, hmore⟩)
    · exact .require (.value Regime.All.succ)

theorem makes_singlePattern (hg : g.Make R n) : Makes R false (R.Good (n + 1)) (singlePattern g) := by
  refine .start fun start => .kind fun kind => ?_
  have hfinish {p : Parser PatternKind}
      (h : Makes R false (fun kind : PatternKind => R.All n kind.shells) p) :
      Makes R false (R.Good (n + 1)) (p >>= fun kind => node start fun id span =>
        (⟨id, span, kind⟩ : Pattern)) :=
    .bind h fun kind => .node fun id span hkind => Regime.All.succ hkind
  split
  · exact hfinish (.advance (.value Regime.all_nil))
  · exact hfinish (makes_pathPattern hg)
  iterate 5 exact hfinish (.pass keeps_literalNode fun literal => .value Regime.all_nil)
  · refine .query fun number => ?_
    split
    · exact hfinish (.advance (.pass keeps_literalNode fun number => .node fun id span => Regime.all_nil))
    · exact .expected _
  · exact makes_parenPattern hg start
  · exact .expected _

theorem good_alternatives {p : Pattern} (h : R.Good n p) : R.Good n (alternatives p) := by
  obtain ⟨id, span, kind⟩ := p
  unfold alternatives
  split
  case h_1 inner hkind =>
    obtain rfl : kind = .or inner := hkind
    simpa using h
  case h_2 => exact Regime.good_single h

theorem makes_patternRule (hg : g.Make R n) : Makes R false (R.Good (n + 1)) (patternRule g) := by
  refine .start fun start => .bind (makes_singlePattern hg) fun first => .query fun several => ?_
  split
  · refine .bind (.collect (n := n + 1) (.acceptIf fun found => ?_)) fun more => ?_
    · split
      · exact .bind (makes_singlePattern hg) fun next => .value good_alternatives
      · exact .value Regime.all_nil
    · refine .node fun id span hmore hfirst => ?_
      have hfirst := good_alternatives hfirst
      simp_all
  · exact .value id

end Parser

end ActorFrontend
