import ActorFrontend.Grammar.Statements
import ActorFrontend.Proofs.Forms.Combinators
import ActorFrontend.Proofs.Nesting.Types

/-!
# Types and patterns are sound
-/

namespace ActorFrontend

/-- Readings that form sound parts, and expressions that fit the context that they are read in. -/
structure Rules.Form (g : Rules) : Prop where
  type : Parser.Forms false (fun _ => ActorFrontend.Sound) g.type
  pattern : Parser.Forms false (fun _ => ActorFrontend.Sound) g.pattern
  expr : ∀ minPower, Parser.Forms true Context.Fits (g.expr minPower)
  block : Parser.Forms true (fun _ => ActorFrontend.Sound) g.block
  blockLike : Parser.Forms true (fun _ => ActorFrontend.Sound) g.blockLike
  endsInBlock : ∀ setting s e after, Parser.startsBlockLike s = true →
    g.blockLike setting s = .ok e after → e.isBlockLike = true

variable {g : Rules} {loud : Bool}

namespace Parser

open Forms
open Makes (keeps_acceptIf keeps_require keeps_valueOf)

theorem forms_path : Forms loud (fun _ path => path ≠ []) path := by
  refine ⟨keeps_path, fun setting s names after _ hreply => ?_⟩
  obtain ⟨first, s₁, -, hmore⟩ := bind_eq_ok_iff.1 hreply
  obtain ⟨more, s₂, -, hnames⟩ := bind_eq_ok_iff.1 hmore
  cases hnames
  exact List.cons_ne_nil first more

/-- A path that is no single name has two parts at least. -/
theorem two_le_of_ne_nil {path : List String} (h : path ≠ []) (hsingle : ∀ name, path ≠ [name]) :
    2 ≤ path.length := by
  match path with
  | [] => exact absurd rfl h
  | [name] => exact absurd rfl (hsingle name)
  | _ :: _ :: _ => simp

/-! ## Types -/

theorem forms_typeArgs (hg : g.Form) : Forms false (fun _ => Sound) (typeArgs g) :=
  .listIf (keeps_acceptIf _) (.list (.commaList hg.type))

theorem forms_bound (hg : g.Form) : Forms false (fun _ => Sound) (bound g) :=
  .start fun _ => .pass keeps_path fun _ => .bind (forms_typeArgs hg) fun _ => .spanFrom fun _ =>
    .value fun _ h => sound_bound.2 h

theorem forms_bounds (hg : g.Form) :
    Forms false (fun _ bounds => bounds ≠ [] ∧ Sound bounds) (bounds g) := by
  refine .bind (forms_bound hg) fun first => ?_
  refine .bind (.list (.collect (.acceptIf fun found => ?_))) fun more => ?_
  · split
    · exact .bind (forms_bound hg) fun next => .value fun _ => List.forall_mem_singleton.2
    · exact .value fun _ => nofun
  · exact .value fun _ hmore hfirst => ⟨List.cons_ne_nil first more, sound_cons.2 ⟨hfirst, hmore⟩⟩

theorem forms_boundsAfterColon (hg : g.Form) : Forms false (fun _ => Sound) (boundsAfterColon g) :=
  .listIf (keeps_acceptIf _) ((forms_bounds hg).imp fun _ _ h => h.2)

theorem forms_typeAfterColon (hg : g.Form) : Forms false (fun _ => Sound) (typeAfterColon g) :=
  .option (.optional (keeps_acceptIf _) hg.type)

theorem forms_resultType (hg : g.Form) : Forms false (fun _ => Sound) (resultType g) :=
  .option (.optional (keeps_acceptIf _) hg.type)

theorem forms_typeParam (hg : g.Form) : Forms false (fun _ => Sound) (typeParam g) :=
  .start fun _ => .valueOf fun _ => .bind (forms_boundsAfterColon hg) fun _ => .spanFrom fun _ =>
    .value fun _ h => sound_typeParam.2 h

theorem forms_typeParams (hg : g.Form) : Forms false (fun _ => Sound) (typeParams g) :=
  .listIf (keeps_acceptIf _) (.list (.commaList (forms_typeParam hg)))

theorem forms_wherePredicate (hg : g.Form) : Forms false (fun _ => Sound) (wherePredicate g) := by
  refine .start fun start => .bind hg.type fun type => .require (.bind (forms_bounds hg) fun bounds => ?_)
  exact .spanFrom fun span => .value fun _ hbounds htype => sound_predicate hbounds.1 htype hbounds.2

theorem forms_whereClause (hg : g.Form) : Forms false (fun _ => Sound) (whereClause g) := by
  refine .listIf (keeps_acceptIf _) (.list (.collect (.bind (forms_wherePredicate hg) fun predicate => ?_)))
  refine .acceptIf fun found => ?_
  split
  · exact .query fun last => .value fun _ => List.forall_mem_singleton.2
  · exact .value fun _ => List.forall_mem_singleton.2

theorem forms_parenType (hg : g.Form) (start : Nat) : Forms false (fun _ => Sound) (parenType g start) := by
  refine .advance (.acceptIf fun empty => ?_)
  split
  · exact .node fun _ id span => sound_type ⟨trivial, allSound_nil⟩
  · refine .bind hg.type fun first => .acceptIf fun several => ?_
    split
    · refine .bind (.list (.commaList hg.type)) fun more => .node fun _ id span hmore hfirst => ?_
      exact sound_type ⟨List.cons_ne_nil first more, sound_cons.2 ⟨hfirst, hmore⟩⟩
    · exact .require (.value fun _ => id)

theorem forms_bracketType (hg : g.Form) : Forms false (fun _ => TypeKind.Fits) (bracketType g) := by
  have hlength : (optional (accept .semicolon) integer).Keeps false := by
    refine .bind (keeps_acceptIf _) fun found _ => ?_
    split
    · exact .bind (keeps_valueOf _ _) fun _ _ => .pure _
    · exact .pure _
  refine .advance (.bind hg.type fun elem => .pass hlength fun length => .require ?_)
  cases length with
  | some length => exact .value fun _ h => ⟨trivial, h⟩
  | none => exact .value fun _ h => ⟨trivial, h⟩

theorem forms_functionType (hg : g.Form) : Forms false (fun _ => TypeKind.Fits) (functionType g) := by
  refine .advance (.require (.bind (.list (.commaList hg.type)) fun params => ?_))
  refine .bind (forms_resultType hg) fun ret => .value fun _ hret hparams => ?_
  exact ⟨trivial, allSound_append.2 ⟨hparams, hret⟩⟩

theorem forms_pointerType (hg : g.Form) : Forms false (fun _ => TypeKind.Fits) (pointerType g) := by
  refine .advance (.acceptIf fun isConst => ?_)
  split
  · exact .bind hg.type fun pointee => .value fun _ h => ⟨trivial, h⟩
  · refine .acceptIf fun isMut => ?_
    split
    · exact .bind hg.type fun pointee => .value fun _ h => ⟨trivial, h⟩
    · exact .bind hg.type fun pointee => .value fun _ h => ⟨trivial, h⟩

theorem forms_traitObjectType (hg : g.Form) :
    Forms false (fun _ => TypeKind.Fits) (traitObjectType g) := by
  refine .advance (.acceptIf fun several => ?_)
  split
  · exact .bind (forms_bounds hg) fun bounds => .require (.value fun _ h => ⟨h.1, h.2⟩)
  · refine .bind (forms_bound hg) fun only => .value fun _ h => ?_
    exact ⟨List.cons_ne_nil only [], sound_cons.2 ⟨h, sound_nil⟩⟩

theorem forms_namedType (hg : g.Form) : Forms false (fun _ => TypeKind.Fits) (namedType g) :=
  .pass keeps_path fun _ => .bind (forms_typeArgs hg) fun _ => .value fun _ h => ⟨trivial, h⟩

theorem forms_typeRule (hg : g.Form) : Forms false (fun _ => Sound) (typeRule g) := by
  refine .start fun start => .kind fun kind => ?_
  have hfinish {p : Parser TypeKind} (h : Forms false (fun _ => TypeKind.Fits) p) :
      Forms false (fun _ => Sound) (p >>= fun kind => node start fun id span =>
        (⟨id, span, kind⟩ : TypeExpr)) :=
    .bind h fun kind => .node fun _ id span => sound_type
  split
  · exact hfinish (forms_namedType hg)
  · exact forms_parenType hg start
  · exact hfinish (forms_bracketType hg)
  · exact hfinish (forms_functionType hg)
  · exact hfinish (forms_pointerType hg)
  · exact hfinish (forms_traitObjectType hg)
  · exact .expected _

/-! ## Patterns -/

theorem forms_fieldPattern (hg : g.Form) : Forms false (fun _ => Sound) (fieldPattern g) := by
  refine .start fun start => .valueOf fun name => ?_
  refine .bind (.option (.optional (keeps_acceptIf _) hg.pattern)) fun pattern => .spanFrom fun span => ?_
  exact .value fun _ h => sound_fieldPattern.2 h

theorem forms_pathPattern (hg : g.Form) : Forms false (fun _ => PatternKind.Fits) (pathPattern g) := by
  refine .bind forms_path fun path => .acceptIf fun args => ?_
  split
  · exact .bind (.list (.commaList hg.pattern)) fun elems => .value fun _ h _ => ⟨trivial, h⟩
  · refine .query fun fields => ?_
    split
    · refine .require (.bind (.list (.commaList (forms_fieldPattern hg))) fun fields => ?_)
      exact .value fun _ h _ => ⟨trivial, h⟩
    · split
      case h_1 => exact .value fun _ _ => ⟨trivial, allSound_nil⟩
      case h_2 hsingle =>
        exact .value fun _ hpath => ⟨two_le_of_ne_nil hpath fun name => hsingle name, allSound_nil⟩

theorem forms_parenPattern (hg : g.Form) (start : Nat) :
    Forms false (fun _ => Sound) (parenPattern g start) := by
  refine .advance (.acceptIf fun empty => ?_)
  split
  · exact .node fun _ id span => sound_pattern ⟨trivial, allSound_nil⟩
  · refine .bind hg.pattern fun first => .acceptIf fun several => ?_
    split
    · refine .bind (.list (.commaList hg.pattern)) fun more => .node fun _ id span hmore hfirst => ?_
      exact sound_pattern ⟨trivial, sound_cons.2 ⟨hfirst, hmore⟩⟩
    · exact .require (.value fun _ => id)

/-- A literal that is read where a number stands is a number. -/
theorem isNumber_of_literalNode {setting : Setting} {s after : State} {literal : LiteralNode}
    (hnumber : isNumber s.kind = true) (hreply : literalNode setting s = .ok literal after) :
    literal.value.isNumber = true := by
  rw [literalNode, start_bind] at hreply
  obtain ⟨value, s₁, hvalue, hnode⟩ := bind_eq_ok_iff.1 hreply
  cases hnode
  rw [valueOf_eq] at hvalue
  cases hkind : s.kind with
  | int _ | float _ =>
    rw [hkind] at hvalue
    cases hvalue
    rfl
  | _ =>
    rw [hkind] at hnumber
    cases hnumber

theorem keeps_negatedPattern (start : Nat) : (negatedPattern start).Keeps loud :=
  .bind .advance fun _ _ => .bind keeps_literalNode fun _ _ => .bind .freshId fun _ _ =>
    .bind (.query _) fun _ _ => .pure _

theorem fits_negatedPattern {start : Nat} {setting : Setting} {s after : State} {kind : PatternKind}
    (hnumber : isNumber (s.peek 1) = true) (hreply : negatedPattern start setting s = .ok kind after) :
    kind.Fits := by
  rw [negatedPattern, advance_bind] at hreply
  obtain ⟨number, s₁, hliteral, hnode⟩ := bind_eq_ok_iff.1 hreply
  cases hnode
  exact ⟨isNumber_of_literalNode ((kind_advance s).symm ▸ hnumber) hliteral, allSound_nil⟩

theorem forms_singlePattern (hg : g.Form) : Forms false (fun _ => Sound) (singlePattern g) := by
  refine .start fun start => .kind fun kind => ?_
  have hfinish {p : Parser PatternKind} (h : Forms false (fun _ => PatternKind.Fits) p) :
      Forms false (fun _ => Sound) (p >>= fun kind => node start fun id span =>
        (⟨id, span, kind⟩ : Pattern)) :=
    .bind h fun kind => .node fun _ id span => sound_pattern
  split
  · exact hfinish (.advance (.value fun _ => ⟨trivial, allSound_nil⟩))
  · exact hfinish (forms_pathPattern hg)
  iterate 5 exact hfinish (.pass keeps_literalNode fun literal => .value fun _ => ⟨trivial, allSound_nil⟩)
  · -- that a number follows the minus sign is known from the state
    refine ⟨.bind (.query _) fun number _ => ?_, fun setting s p after hs hreply => ?_⟩
    · split
      · exact .bind (keeps_negatedPattern start) fun _ _ => .bind .freshId fun _ _ =>
          .bind (.query _) fun _ _ => .pure _
      · exact fun _ s => .refl s
    · rw [query_bind] at hreply
      split at hreply
      case isTrue hnumber =>
        obtain ⟨kind, s₁, hkind, hnode⟩ := bind_eq_ok_iff.1 hreply
        cases hnode
        exact sound_pattern (fits_negatedPattern hnumber hkind)
      case isFalse => cases hreply
  · exact forms_parenPattern hg start
  · exact .expected _

/-- A sound pattern amounts to alternatives that are sound and are no lists of alternatives. -/
theorem sound_alternatives {p : Pattern} (h : Sound p) :
    alternatives p ≠ [] ∧ (∀ q ∈ alternatives p, q.kind.isOr = false) ∧ Sound (alternatives p) := by
  obtain ⟨hshaped, hcontents⟩ := PatternKind.fits_of_sound h
  unfold alternatives
  cases hkind : p.kind with
  | or inner =>
    rw [hkind] at hshaped hcontents
    have hpos : 0 < inner.length := Nat.lt_of_lt_of_le Nat.two_pos hshaped.1
    exact ⟨List.ne_nil_of_length_pos hpos, hshaped.2, hcontents⟩
  | _ =>
    refine ⟨List.cons_ne_nil p [], ?_, sound_cons.2 ⟨h, sound_nil⟩⟩
    simp [hkind, PatternKind.isOr]

/-- What follows the first alternative. -/
def alternativesTurn (g : Rules) : Parser (Bool × List Pattern) := do
  if ← accept .pipe then
    let next ← singlePattern g
    pure (true, alternatives next)
  else
    pure (false, [])

theorem forms_moreAlternatives (hg : g.Form) :
    Forms false (fun _ more => ∀ q ∈ more, q.kind.isOr = false ∧ Sound q) (collect (alternativesTurn g)) := by
  refine .collect (.acceptIf fun found => ?_)
  split
  · refine .bind (forms_singlePattern hg) fun next => .value fun _ hnext q hq => ?_
    obtain ⟨-, hnotOr, hsound⟩ := sound_alternatives hnext
    exact ⟨hnotOr q hq, sound_list.1 hsound q hq⟩
  · exact .value fun _ => nofun

/-- Behind a pattern there is at least one more alternative if a bar follows. -/
theorem moreAlternatives_ne_nil (hg : g.Form) {setting : Setting} {s after : State}
    {more : List Pattern} (hs : s.SetsTextsApart) (hbar : s.kind.isSymbol .pipe = true)
    (hreply : collect (alternativesTurn g) setting s = .ok more after) : more ≠ [] := by
  obtain ⟨again, found, s₁, hturn, hsubset⟩ := collect_first hreply
  obtain ⟨bar, s₂, haccept, hnext⟩ := bind_eq_ok_iff.1 hturn
  rw [accept, acceptIf_eq, if_pos hbar] at haccept
  cases haccept
  obtain ⟨next, s₃, hsingle, hfound⟩ := bind_eq_ok_iff.1 hnext
  cases hfound
  have hkept : s.Kept false s.advance := .advance s
  have hsound : Sound next :=
    (forms_singlePattern hg).forms setting s.advance next _ (hs.kept hkept) hsingle
  obtain ⟨q, hq⟩ := List.exists_mem_of_ne_nil _ (sound_alternatives hsound).1
  exact List.ne_nil_of_mem (hsubset hq)

theorem forms_patternRule (hg : g.Form) : Forms false (fun _ => Sound) (patternRule g) := by
  refine .start fun start => .bind (forms_singlePattern hg) fun first => ?_
  have hkeeps (several : Bool) : (if several = true then collect (alternativesTurn g) >>= fun more =>
      node start fun id span => (⟨id, span, .or (alternatives first ++ more)⟩ : Pattern)
      else pure first).Keeps false := by
    split
    · exact .bind (forms_moreAlternatives hg).keeps fun _ _ => .bind .freshId fun _ _ =>
        .bind (.query _) fun _ _ => .pure _
    · exact .pure _
  refine ⟨.bind (.query _) fun several _ => hkeeps several, fun setting s p after hs hreply hfirst => ?_⟩
  rw [sees, query_bind] at hreply
  split at hreply
  case isFalse =>
    cases hreply
    exact hfirst
  case isTrue hbar =>
    obtain ⟨more, s₁, hmore, hnode⟩ := bind_eq_ok_iff.1 hreply
    cases hnode
    obtain ⟨hfirstNe, hfirstOr, hfirstSound⟩ := sound_alternatives hfirst
    have hmoreNe : more ≠ [] := moreAlternatives_ne_nil hg hs hbar hmore
    have hmoreAll := (forms_moreAlternatives hg).forms setting s more s₁ hs hmore
    have hlength : 0 < (alternatives first).length := List.length_pos_iff.2 hfirstNe
    have hmoreLength : 0 < more.length := List.length_pos_iff.2 hmoreNe
    refine sound_pattern ⟨⟨by rw [List.length_append]; omega, ?_⟩, ?_⟩
    · exact List.forall_mem_append.2 ⟨hfirstOr, fun q hq => (hmoreAll q hq).1⟩
    · exact sound_append.2 ⟨hfirstSound, sound_list.2 fun q hq => (hmoreAll q hq).2⟩

end Parser

end ActorFrontend
