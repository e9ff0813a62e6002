import ActorFrontend.Grammar.Source
import ActorFrontend.Proofs.Placement.Items

/-!
# Where the nodes of a program stand

Of whatever text a program is read, and however many errors it has: the spans of its nodes nest, and
their numbers identify them.  The errors recorded stand in the text as well.
-/

namespace ActorFrontend

open Source

variable {source : List Char} {setting : Setting} {s : State} {g : Rules}

/-- The outline of a program is nested, and no number occurs twice in it. -/
structure Program.Placed (source : List Char) (p : Program) : Prop where
  nested : p.outline.Nested source
  nodup : (Outline.idsOf [p.outline]).Nodup

theorem Program.Placed.of_laid {lo hi first next : Nat} {items : List Item} {stop : Nat}
    (h : Laid source lo hi first next (outlines items)) (hnext : first ≤ next)
    (hstop : Boundary source stop) (hhi : hi ≤ stop) :
    Program.Placed source ⟨items, ⟨0, stop⟩⟩ := by
  have hwithin : ∀ o ∈ outlines items, 0 ≤ o.span.start ∧ o.span.stop ≤ stop := fun o ho =>
    ⟨Nat.zero_le _, Nat.le_trans (h.within o ho).2 hhi⟩
  have hwhole : Laid source 0 stop first next [Program.outline ⟨items, ⟨0, stop⟩⟩] :=
    (h.mono (Nat.zero_le lo) hhi (Nat.le_refl _) (Nat.le_refl _)).wrap (.whole rfl)
      ⟨[], source, rfl, rfl⟩ hstop (Nat.zero_le _) (Nat.le_refl _) (Nat.le_refl _) hwithin hnext
      (Nat.le_refl _) (by simp)
  exact ⟨hwhole.nested _ (List.mem_singleton_self _), hwhole.nodup⟩

/-- A program is placed, also if some of its declarations could not be read, and so are the errors
in it. -/
theorem Parser.ends_program (hg : g.Lay source) (hs : s.Located source setting) :
    (Parser.program g setting s).Ends
      (fun p s' => p.Placed source ∧ ∀ e ∈ s'.errors, e.span.Placed source)
      fun s' => ∀ e ∈ s'.errors, e.span.Placed source := by
  -- declarations are collected in reverse; one that could not be read leaves nothing behind
  have hitems : (loop (fun items => do
      if ← atEnd then
        pure (false, items)
      else
        resilient .items (fun items => do
          let next ← item g
          pure (next :: items)) items)
      []).Lays source false fun items => outlines items.reverse := by
    intro setting s hs
    refine (Trail.refl hs).loop rfl fun items s os hos h => ?_
    apply Trail.query
    split
    · exact h.done hos
    · exact h.resilient (fun (items : List Item) os => outlines items.reverse = os) hos
        (laysThat_found (lays_item hg) items os hos)
  apply Reply.Ends.bind
    ((hitems setting s hs).imp (fun _ _ h => h) fun _ _ h => h.2.located.errors)
  rintro items s' ⟨os, hos, h⟩
  subst hos
  -- the program spans all of the source, from 0 to where the reading stands
  have hstop : s'.previousEnd ≤ (s'.span setting).stop :=
    Nat.le_trans h.located.previousEnd_le_start h.located.start_le_stop
  exact ⟨.of_laid h.laid h.nextId_le h.located.boundary_span.2 hstop, h.located.errors⟩

theorem Session.program_fst (session : Session) :
    session.program.1 =
      match Parser.program session.rules session.setting session.state with
      | .ok p _ => p
      | .fail _ _ => ⟨[], ⟨0, session.setting.endOfInput.stop⟩⟩ := by
  unfold Session.program Session.run
  cases Parser.program session.rules session.setting session.state <;> rfl

/-- Whatever the text, the program that is read of it is placed. -/
theorem placed_parseSource (source : String) (limits : Limits) :
    (parseSource source limits).program.Placed source.toList := by
  obtain ⟨hlocated, hend⟩ := Session.located_ofTokens_tokenize source limits
  change (Session.program (.ofTokens (tokenize source).tokens limits)).1.Placed source.toList
  generalize Session.ofTokens (tokenize source).tokens limits = session at hlocated hend ⊢
  have hrules : session.rules.Lay source.toList := Rules.lay_within source.toList _
  have hrun := Parser.ends_program hrules hlocated
  rw [Session.program_fst]
  cases hreply : Parser.program session.rules session.setting session.state with
  | ok p s =>
    rw [hreply] at hrun
    exact hrun.1
  | fail e s =>
    -- a reading that gives up leaves a program without declarations
    have hnone : Laid source.toList 0 0 0 0 (outlines ([] : List Item)) := .nil
    have hstop : Boundary source.toList session.setting.endOfInput.stop := by
      rw [hlocated.stop_eq]
      exact hlocated.boundary_stop
    exact .of_laid hnone (Nat.le_refl _) hstop (Nat.zero_le _)

/-- The errors in the reading of a program stand in the text. -/
theorem Session.placed_errors_program (source : String) (limits : Limits) :
    ∀ e ∈ (ofTokens (tokenize source).tokens limits).program.2.errors,
      e.span.Placed source.toList := by
  have hlocated := (located_ofTokens_tokenize source limits).1
  generalize ofTokens (tokenize source).tokens limits = session at hlocated ⊢
  have hrules : session.rules.Lay source.toList := Rules.lay_within source.toList _
  have hrun := Parser.ends_program hrules hlocated
  unfold program run
  cases hreply : Parser.program session.rules session.setting session.state with
  | ok p s =>
    rw [hreply] at hrun
    exact hrun.2
  | fail e s =>
    rw [hreply] at hrun
    exact hrun

/-! ## Spans and numbers -/

/-- Spans nest.  Every span consists of whole characters of the source and contains the spans of the
nodes directly below it; those that stand in a list do not overlap and come in source order. -/
theorem parseSource_spans_nest (source : String) (limits : Limits) :
    ∀ o ∈ (parseSource source limits).program.outline.nodes,
      o.span.start ≤ o.span.stop ∧ o.span.stop ≤ byteLength source.toList ∧
        Boundary source.toList o.span.start ∧ Boundary source.toList o.span.stop ∧
        (∀ child ∈ o.children, o.span.contains child.span = true) ∧
        o.parts.Pairwise Outline.Before ∧ o.aside.Pairwise Outline.Before := by
  intro o ho
  have hnested := (placed_parseSource source limits).nested.of_mem_nodes o ho
  refine ⟨hnested.start_le_stop, hnested.boundary_stop.le_byteLength, hnested.boundary_start,
    hnested.boundary_stop, fun child hchild => ?_, hnested.pairwise_parts, hnested.pairwise_aside⟩
  have hwithin := hnested.within child hchild
  simpa [Span.contains] using hwithin

/-- The call `g(1)` among the nodes of a program. -/
theorem parseSource_spans_nest_call :
    ∃ o ∈ (parseSource "fn f() { g(1); }" .standard).program.outline.nodes,
      o.span = ⟨9, 13⟩ ∧ ∀ child ∈ o.children, o.span.contains child.span = true := by
  have hcall : ∃ o ∈ (parseSource "fn f() { g(1); }" .standard).program.outline.nodes,
      o.span = ⟨9, 13⟩ := by decide +kernel
  obtain ⟨o, ho, hspan⟩ := hcall
  obtain ⟨-, -, -, -, hchildren, -⟩ := parseSource_spans_nest "fn f() { g(1); }" .standard o ho
  exact ⟨o, ho, hspan, hchildren⟩

/-- Numbers identify nodes, and a node is numbered after all nodes below it. -/
theorem parseSource_ids_identify (source : String) (limits : Limits) :
    ((parseSource source limits).program.outline.nodes.filterMap Outline.id).Nodup ∧
      ∀ o ∈ (parseSource source limits).program.outline.nodes, ∀ n ∈ o.id,
        ∀ i ∈ Outline.idsOf o.children, i < n := by
  have hplaced := placed_parseSource source limits
  constructor
  · simpa [Outline.idsOf, Outline.nodesOf] using hplaced.nodup
  · intro o ho
    exact (hplaced.nested.of_mem_nodes o ho).lt_id

end ActorFrontend
