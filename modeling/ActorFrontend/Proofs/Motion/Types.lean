import ActorFrontend.Proofs.Motion.Combinators

/-!
# Types and patterns that move
-/

namespace ActorFrontend

variable {m : Motion} {g : Rules}

/-- The readings of what nests move. -/
structure Rules.Move (m : Motion) (g : Rules) : Prop where
  type : Parser.Moves m (relabel m.renaming) g.type g.type
  pattern : Parser.Moves m (relabel m.renaming) g.pattern g.pattern
  expr : ∀ minPower, Parser.Moves m (relabel m.renaming) (g.expr minPower) (g.expr minPower)
  block : Parser.Moves m (relabel m.renaming) g.block g.block
  blockLike : Parser.Moves m (relabel m.renaming) g.blockLike g.blockLike

namespace Parser

open Moves

theorem moves_path : Moves m id path path := by
  have hturn : Moves m (Prod.map id (List.map id)) pathTurn pathTurn := by
    refine .query (fun s => by simp) fun found => ?_
    split
    · exact .advance (.name fun part => .value rfl)
    · exact .value rfl
  refine .name fun first => .bind (.collect hturn) fun more => .value ?_
  rw [List.map_id]
  rfl

theorem moves_literalNode : Moves m (relabel m.renaming) literalNode literalNode :=
  .start fun _ => .valueOf (fun _ => rfl) fun _ => .node fun _ _ => rfl

/-! ## Types -/

theorem moves_typeArgs (hg : g.Move m) : Moves m (relabel m.renaming) (typeArgs g) (typeArgs g) :=
  .listIf (found fun _ _ => rfl) (.commaList hg.type)

theorem moves_bound (hg : g.Move m) : Moves m (relabel m.renaming) (bound g) (bound g) := by
  refine .start fun start => .pass moves_path fun path => .bind (moves_typeArgs hg) fun args => ?_
  exact .spanFrom fun span => .value (by simp)

theorem moves_bounds (hg : g.Move m) : Moves m (relabel m.renaming) (bounds g) (bounds g) := by
  refine .bind (moves_bound hg) fun first => .bind (.collect (.accept fun found => ?_)) fun more => .value rfl
  split
  · exact .bind (moves_bound hg) fun next => .value rfl
  · exact .value rfl

theorem moves_typeAfterColon (hg : g.Move m) :
    Moves m (relabel m.renaming) (typeAfterColon g) (typeAfterColon g) :=
  .optional (found fun _ _ => rfl) hg.type

theorem moves_resultType (hg : g.Move m) : Moves m (relabel m.renaming) (resultType g) (resultType g) :=
  .optional (found fun _ _ => rfl) hg.type

theorem moves_parenType (hg : g.Move m) (start : Nat) :
    Moves m (relabel m.renaming) (parenType g start) (parenType g (start + m.bytes)) := by
  refine .advance (.accept fun empty => ?_)
  split
  · exact .node fun id span => rfl
  · refine .bind hg.type fun first => .accept fun several => ?_
    split
    · exact .bind (.commaList hg.type) fun more => .node fun id span => by simp [relabel]
    · exact .expect (.value rfl)

theorem moves_bracketType (hg : g.Move m) :
    Moves m (relabel m.renaming) (bracketType g) (bracketType g) := by
  have hlength : Moves m (Option.map id) (optional (accept .semicolon) integer)
      (optional (accept .semicolon) integer) :=
    .optional (found fun _ _ => rfl) (read fun _ => rfl)
  rw [Option.map_id] at hlength
  refine .advance (.bind hg.type fun elem => .pass hlength fun length => .expect ?_)
  cases length <;> exact .value rfl

theorem moves_functionType (hg : g.Move m) :
    Moves m (relabel m.renaming) (functionType g) (functionType g) := by
  refine .advance (.expect (.bind (.commaList hg.type) fun params => ?_))
  refine .bind (moves_resultType hg) fun ret => .value ?_
  simp [relabel]

theorem moves_pointerType (hg : g.Move m) :
    Moves m (relabel m.renaming) (pointerType g) (pointerType g) := by
  refine .advance (.acceptKeyword fun isConst => ?_)
  split
  · exact .bind hg.type fun pointee => .value rfl
  · refine .acceptWord fun isMut => ?_
    split
    · exact .bind hg.type fun pointee => .value rfl
    · exact .bind hg.type fun pointee => .value rfl

theorem moves_traitObjectType (hg : g.Move m) :
    Moves m (relabel m.renaming) (traitObjectType g) (traitObjectType g) := by
  refine .advance (.accept fun several => ?_)
  split
  · exact .bind (moves_bounds hg) fun bounds => .expect (.value (by simp))
  · exact .bind (moves_bound hg) fun only => .value (by simp)

theorem moves_namedType (hg : g.Move m) :
    Moves m (relabel m.renaming) (namedType g) (namedType g) :=
  .pass moves_path fun path => .bind (moves_typeArgs hg) fun args => .value (by simp)

theorem moves_typeRule (hg : g.Move m) : Moves m (relabel m.renaming) (typeRule g) (typeRule g) := by
  have hfinish {p : Parser TypeKind} (start : Nat) (h : Moves m (relabel m.renaming) p p) :
      Moves m (relabel m.renaming)
        (p >>= fun kind => node start fun id span => (⟨id, span, kind⟩ : TypeExpr))
        (p >>= fun kind => node (start + m.bytes) fun id span => (⟨id, span, kind⟩ : TypeExpr)) :=
    .bind h fun kind => .node fun id span => rfl
  refine .start fun start => .kind (fun _ => .expected _) fun k _ => ?_
  split
  · exact hfinish start (moves_namedType hg)
  · exact moves_parenType hg start
  · exact hfinish start (moves_bracketType hg)
  · exact hfinish start (moves_functionType hg)
  · exact hfinish start (moves_pointerType hg)
  · exact hfinish start (moves_traitObjectType hg)
  · exact .expected _

/-! ## Patterns -/

theorem moves_fieldPattern (hg : g.Move m) :
    Moves m (relabel m.renaming) (fieldPattern g) (fieldPattern g) := by
  refine .start fun start => .name fun name => ?_
  refine .bind (.optional (found fun _ _ => rfl) hg.pattern) fun pattern => .spanFrom fun span => ?_
  exact .value (by simp [relabel])

theorem moves_pathPattern (hg : g.Move m) :
    Moves m (relabel m.renaming) (pathPattern g) (pathPattern g) := by
  refine .pass moves_path fun path => .accept fun args => ?_
  split
  · exact .bind (.commaList hg.pattern) fun elems => .value (by simp [relabel])
  · refine .sees fun fields => ?_
    split
    · refine .expect (.bind (.commaList (moves_fieldPattern hg)) fun fields => .value ?_)
      simp [relabel]
    · split
      · exact .value rfl
      · exact .value rfl

theorem moves_parenPattern (hg : g.Move m) (start : Nat) :
    Moves m (relabel m.renaming) (parenPattern g start) (parenPattern g (start + m.bytes)) := by
  refine .advance (.accept fun empty => ?_)
  split
  · exact .node fun id span => rfl
  · refine .bind hg.pattern fun first => .accept fun several => ?_
    split
    · exact .bind (.commaList hg.pattern) fun more => .node fun id span => by simp [relabel]
    · exact .expect (.value rfl)

theorem moves_negatedPattern (start : Nat) :
    Moves m (relabel m.renaming) (negatedPattern start) (negatedPattern (start + m.bytes)) :=
  .advance (.bind moves_literalNode fun _ => .node fun _ _ => rfl)

theorem moves_singlePattern (hg : g.Move m) :
    Moves m (relabel m.renaming) (singlePattern g) (singlePattern g) := by
  have hfinish {p p' : Parser PatternKind} (start : Nat) (h : Moves m (relabel m.renaming) p p') :
      Moves m (relabel m.renaming)
        (p >>= fun kind => node start fun id span => (⟨id, span, kind⟩ : Pattern))
        (p' >>= fun kind => node (start + m.bytes) fun id span => (⟨id, span, kind⟩ : Pattern)) :=
    .bind h fun kind => .node fun id span => rfl
  have hliteral : Moves m (relabel m.renaming)
      (do pure (.literal (← literalNode)) : Parser PatternKind)
      (do pure (.literal (← literalNode)) : Parser PatternKind) :=
    .bind moves_literalNode fun literal => .value rfl
  refine .start fun start => .kind (fun _ => .expected _) fun k _ => ?_
  split
  · exact hfinish start (.advance (.value rfl))
  · exact hfinish start (moves_pathPattern hg)
  iterate 5 exact hfinish start hliteral
  · refine .query (fun s => ?_) fun number => ?_
    · rw [State.peek_move]
      exact TokenKind.apply_shift (fun _ _ => rfl) _
    · split
      · exact hfinish start (moves_negatedPattern start)
      · exact .expected _
  · exact moves_parenPattern hg start
  · exact .expected _

theorem alternatives_relabel (r : Renaming) (p : Pattern) :
    alternatives (p.relabel r) = relabel r (alternatives p) := by
  obtain ⟨id, span, kind⟩ := p
  cases kind with
  | or inner => simp [alternatives]
  | _ => rfl

theorem moves_patternRule (hg : g.Move m) :
    Moves m (relabel m.renaming) (patternRule g) (patternRule g) := by
  refine .start fun start => .bind (moves_singlePattern hg) fun first => .sees fun several => ?_
  have hturn : Moves m (Prod.map id (List.map (relabel m.renaming)))
      (do
        if ← accept .pipe then
          let next ← singlePattern g
          pure (true, alternatives next)
        else
          pure (false, []))
      (do
        if ← accept .pipe then
          let next ← singlePattern g
          pure (true, alternatives next)
        else
          pure (false, [])) := by
    refine .accept fun found => ?_
    split
    · exact .bind (moves_singlePattern hg) fun next => .value (by simp [alternatives_relabel]; rfl)
    · exact .value rfl
  split
  · refine .bind (.collect hturn) fun more => .node fun id span => ?_
    simp [alternatives_relabel, relabel]
  · exact .value rfl

end Parser

end ActorFrontend
