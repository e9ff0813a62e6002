import ActorFrontend.Proofs.Invariance
import ActorFrontend.Proofs.Placement.Location
import ActorFrontend.Proofs.Placement.Strings
import ActorFrontend.Proofs.Tiling.Spans

/-!
# Declarations tile a source

A reading passes over the tokens one by one, and a declaration spans those that its reading passed
over.  Where no error is found there is nothing else between two declarations but trivia.
-/

namespace ActorFrontend

variable {loud : Bool} {setting : Setting} {s s' s'' : State} {ts us : List Token} {g : Rules}

/-- The tokens were read from `s` to `s'`, one after another. -/
structure State.ReadTo (s : State) (ts : List Token) (s' : State) : Prop where
  tokens : s.rest.map Lexeme.token = ts ++ s'.rest.map Lexeme.token
  previousEnd : s'.previousEnd = Token.endBehind s.previousEnd ts

namespace State.ReadTo

theorem none (hrest : s'.rest = s.rest) (hend : s'.previousEnd = s.previousEnd) : s.ReadTo [] s' :=
  ⟨by rw [hrest, List.nil_append], hend⟩

theorem trans (h : s.ReadTo ts s') (h' : s'.ReadTo us s'') : s.ReadTo (ts ++ us) s'' where
  tokens := by rw [h.tokens, h'.tokens, List.append_assoc]
  previousEnd := by rw [h'.previousEnd, h.previousEnd, Token.endBehind_append]

theorem advance (s : State) : ∃ ts, s.ReadTo ts s.advance := by
  cases hrest : s.rest with
  | nil =>
    have hadvance : s.advance = s := by rw [State.advance, hrest]
    exact ⟨[], none (by rw [hadvance]) (by rw [hadvance])⟩
  | cons lexeme rest =>
    refine ⟨[lexeme.token], ?_, ?_⟩
    · rw [rest_advance, hrest]
      rfl
    · rw [State.advance, hrest]
      rfl

theorem skip (n : Nat) (s : State) : ∃ ts, s.ReadTo ts (s.skip n) := by
  induction n generalizing s with
  | zero => exact ⟨[], none rfl rfl⟩
  | succ n ih =>
    obtain ⟨ts, h⟩ := advance s
    obtain ⟨us, h'⟩ := ih s.advance
    exact ⟨ts ++ us, h.trans h'⟩

theorem record (setting : Setting) (error : ParseError) (s : State) :
    s.ReadTo [] (s.record setting error) := by
  unfold State.record
  split <;> exact none rfl rfl

theorem recover (recovery : Recovery) (setting : Setting) (s : State) (error : ParseError)
    (after : State) : ∃ ts, after.ReadTo ts (s.recover recovery setting error after) := by
  have hnoted := record setting error after
  unfold State.recover
  simp only
  split
  · obtain ⟨ts, h⟩ := skip (recovery.abandon (after.record setting error).rest)
      (after.record setting error)
    exact ⟨_, hnoted.trans h⟩
  · obtain ⟨ts, h⟩ := skip (recovery.resume (after.record setting error).rest)
      (after.record setting error)
    split
    · obtain ⟨us, h'⟩ := advance _
      exact ⟨_, (hnoted.trans h).trans h'⟩
    · exact ⟨_, hnoted.trans h⟩

end State.ReadTo

/-- Every reading passes over tokens one after another. -/
theorem Course.exists_readTo {n n' : Nat} (h : Course loud setting s n s' n') :
    ∃ ts, s.ReadTo ts s' := by
  induction h with
  | refl | number => exact ⟨[], .none rfl rfl⟩
  | trans _ _ ih ih' =>
    obtain ⟨ts, h⟩ := ih
    obtain ⟨us, h'⟩ := ih'
    exact ⟨ts ++ us, h.trans h'⟩
  | pass _ | opening _ | closing _ => exact State.ReadTo.advance _
  | note error _ _ => exact ⟨[], .record _ error _⟩
  | within _ _ ih | deeper _ _ ih => exact ih.imp fun _ h => ⟨h.tokens, h.previousEnd⟩
  | @splice setting s inner =>
    have hplace := Parser.samePlace_foldl_record setting inner.errors { s with nextId := inner.nextId }
    exact ⟨[], .none hplace.rest hplace.previousEnd⟩
  | recover recovery error _ _ _ _ _ ih =>
    obtain ⟨ts, h⟩ := ih
    obtain ⟨us, h'⟩ := State.ReadTo.recover recovery _ _ error _
    exact ⟨ts ++ us, h.trans h'⟩
  | abandon _ _ => exact State.ReadTo.skip _ _

/-! ## Declarations -/

namespace Parser

theorem ends_node {α : Type} (start : Nat) (make : NodeId → Span → α) :
    (node start make setting s).Ends
      (fun a s' => s'.rest = s.rest ∧ s'.previousEnd = s.previousEnd ∧
        a = make s.nextId ⟨start, max s.previousEnd start⟩) fun _ => False :=
  ⟨rfl, rfl, rfl⟩

/-- A declaration begins where the token at hand does and ends with the last token passed over. -/
theorem ends_item_span :
    (item g setting s).Ends
      (fun item s' => item.span = ⟨(s.span setting).start,
        max s'.previousEnd (s.span setting).start⟩) fun _ => True := by
  unfold item
  rw [start_bind]
  have hany {α : Type} (r : Reply α) : r.Ends (fun _ _ => True) fun _ => True := by
    cases r <;> trivial
  refine Reply.Ends.bind (hany _) fun vis s₁ _ => Reply.Ends.bind (hany _) fun kind s₂ _ => ?_
  refine (ends_node _ _).imp (fun item s' hitem => ?_) fun _ _ => trivial
  obtain ⟨-, hend, rfl⟩ := hitem
  rw [hend]

theorem keeps_item (levels : Nat) : (item (.within levels)).Keeps true := by
  have hrules : Rules.Alike (⟨true, true, true⟩ : Likeness) (.within levels) (.within levels) :=
    Rules.alike_within levels
  have halike : Alike (⟨true, true, true⟩ : Likeness) true true none .unread .closed
      (Like ⟨true, true, true⟩)
      (item (.within levels)) (item (.within levels)) := alike_item hrules
  exact halike.keepAlike.left

end Parser

/-- If no error has been found since `s`, what was read are declarations, the last one in front, each
of which spans its tokens. -/
def State.ReadsItems (s : State) (items : List Item) (s' : State) : Prop :=
  s'.errors = [] → s'.halted = false ∧
    ∃ runs, List.Forall₂ Item.Spans items.reverse runs ∧ s.ReadTo runs.flatten s'

namespace Parser

variable {s₀ : State} {items : List Item}

/-- A declaration spans the tokens that its reading passed over. -/
theorem spans_item (hg : g.Follow) {item : Item} (h : Parser.item g setting s = .ok item s') :
    ∃ run, item.Spans run ∧ s.ReadTo run s' := by
  have hspan : (Parser.item g setting s).Ends _ _ := ends_item_span
  have hfollows := consumes_item hg setting s 0
  rw [h] at hspan hfollows
  obtain ⟨run, hrun⟩ := hfollows.course.exists_readTo
  refine ⟨run, ?_, hrun⟩
  cases hrest : s.rest with
  | nil =>
    have hshorter := hfollows.shorter rfl
    rw [hrest] at hshorter
    exact absurd hshorter (Nat.not_lt_zero _)
  | cons lexeme rest =>
    -- the first token has been passed over
    have hlength := congrArg List.length hrun.tokens
    have hshorter := hfollows.shorter rfl
    have htokens := hrun.tokens
    rw [List.length_append, List.length_map, List.length_map] at hlength
    rw [hrest] at htokens
    cases run with
    | nil =>
      rw [List.length_nil] at hlength
      omega
    | cons first more =>
      obtain ⟨rfl, -⟩ := List.cons.inj htokens
      refine ⟨_, _, rfl, ?_⟩
      rw [hspan, hrun.previousEnd, State.span, hrest]
      rfl

/-- An error that breaks off a part leaves a trace, unless the limit had been reached before. -/
theorem errors_recover_ne_nil {recovery : Recovery} {error : ParseError} {after : State}
    (hhalted : s.halted = false) (hkept : s.Kept true after) :
    (s.recover recovery setting error after).errors ≠ [] := by
  intro herrors
  have hrecover : (after.record setting error).Kept true (s.recover recovery setting error after) :=
    Keeps.kept_recover recovery setting s error after
  have hrecorded : (after.record setting error).errors <+: [] := herrors ▸ hrecover.errors
  have hafter : after.errors = [] :=
    List.prefix_nil.1 ((State.Kept.record setting error after).errors.trans hrecorded)
  have hbefore : s.errors = [] := hkept.errors_eq_nil hafter
  have hunspent : after.halted = false := (hkept.unspent (hafter.trans hbefore.symm)).trans hhalted
  rw [State.record, if_neg (by simp [hunspent]), List.prefix_nil] at hrecorded
  simp at hrecorded

/-- A turn of a program reads a declaration, unless an error is found. -/
theorem readsItems_programTurn (levels : Nat) (h : s₀.ReadsItems items s) :
    (programTurn (.within levels) items setting s).Ends (fun r s' => s₀.ReadsItems r.2 s')
      fun _ => True := by
  have hkeeps := keeps_item levels
  have hpart : Keeps true (item (.within levels) >>= fun next => pure (next :: items)) :=
    .bind hkeeps fun _ _ => .pure _
  change ((if s.atEnd = true then _ else _ : Parser _) setting s).Ends _ _
  split
  case isTrue => exact h
  case isFalse =>
    cases hreply : resilient .items (fun items => do
        let next ← item (.within levels)
        pure (next :: items)) items setting s with
    | fail _ _ => trivial
    | ok r s' =>
      intro herrors
      have hkept : s.Kept true (resilient .items (fun items => do
          let next ← item (.within levels)
          pure (next :: items)) items setting s).state := Keeps.resilient hpart setting s
      rw [hreply] at hkept
      have hbefore : s.errors = [] := hkept.errors_eq_nil herrors
      obtain ⟨hhalted, runs, hitems, hruns⟩ := h hbefore
      rw [Keeps.resilient_eq hhalted] at hreply
      cases hitem : item (.within levels) setting s with
      | ok next after =>
        rw [bind_ok hitem] at hreply
        obtain ⟨rfl, rfl⟩ : (true, next :: items) = r ∧ after = s' := by
          cases hreply
          exact ⟨rfl, rfl⟩
        obtain ⟨run, hspans, hrun⟩ := spans_item (Rules.follow_within levels) hitem
        refine ⟨(hkept.unspent (herrors.trans hbefore.symm)).trans hhalted, runs ++ [run], ?_, ?_⟩
        · rw [List.reverse_cons]
          exact List.rel_append hitems (.cons hspans .nil)
        · rw [List.flatten_append]
          exact hruns.trans (by simpa using hrun)
      | fail error after =>
        have hfail : (item (.within levels) >>= fun next => pure (next :: items)) setting s =
            .fail error after := by
          change Parser.bind _ _ setting s = _
          rw [Parser.bind, hitem]
        rw [hfail] at hreply
        have hpassed := hpart setting s
        rw [hfail] at hpassed
        cases hreply
        exact absurd herrors (errors_recover_ne_nil hhalted hpassed)

theorem ends_program_readsItems (levels : Nat) (hhalted : s.halted = false) :
    (program (.within levels) setting s).Ends
      (fun p s' => s'.errors = [] → ∃ runs, List.Forall₂ Item.Spans p.items runs ∧
        s.ReadTo runs.flatten s') fun _ => True := by
  have hloop : (loop (programTurn (.within levels)) [] setting s).Ends
      (fun items s' => s.ReadsItems items s') fun _ => True :=
    ends_loop (fun items s' => s.ReadsItems items s') (fun items s' h => readsItems_programTurn levels h)
      fun _ => ⟨hhalted, [], .nil, .none rfl rfl⟩
  refine Reply.Ends.bind hloop fun items s' hitems => ?_
  exact fun herrors => (hitems herrors).2

end Parser

/-! ## Sources -/

/-- The significant tokens up to the end of the file. -/
theorem Lexeme.map_token_significant {ts : List Token} (hts : ∀ t ∈ ts, t.kind.isEndOfFile = false)
    (lineBreak : Bool) (offset : Nat) :
    (significant lineBreak (ts ++ [Token.endAt offset])).map Lexeme.token =
      ts.filter fun t => !t.isTrivia := by
  induction ts generalizing lineBreak with
  | nil => rfl
  | cons t ts ih =>
    obtain ⟨ht, hts⟩ := List.forall_mem_cons.1 hts
    rw [List.cons_append, significant]
    cases htrivia : t.isTrivia with
    | true => simpa [htrivia] using ih hts _
    | false => simpa [htrivia, ht] using ih hts false

/-- Where a source is read without an error, its declarations stand among its tokens. -/
theorem tiling_parseSource (source : String) (limits : Limits) (hpos : 1 ≤ limits.maxErrors)
    (hsilent : (parseSource source limits).errors = []) :
    Tiling 0 (Source.byteLength source.toList) (Token.readAll 0 source.toList).tokens
      (parseSource source limits).program.items := by
  have hparse := (SyntaxError.of_merge_eq_nil hpos hsilent).2
  have hspells := spells_readAll source.toList 0 (List.Subset.refl _)
  let session := Session.ofTokens (tokenize source).tokens limits
  have hends := ActorFrontend.ends_program (Rules.follow_within limits.maxDepth) session.setting session.state
  have hitems : (Parser.program session.rules session.setting session.state).Ends _ _ :=
    Parser.ends_program_readsItems limits.maxDepth rfl
  change session.program.2.errors = [] at hparse
  change Tiling _ _ _ session.program.1.items
  cases hreply : Parser.program session.rules session.setting session.state with
  | fail error s =>
    change Parser.program (.within limits.maxDepth) _ _ = _ at hreply
    rw [hreply] at hends
    exact hends.elim
  | ok program s =>
    rw [Session.program_eq_of_ok hreply] at hparse ⊢
    rw [hreply] at hitems
    change Parser.program (.within limits.maxDepth) _ _ = _ at hreply
    rw [hreply] at hends
    obtain ⟨runs, hspans, hread⟩ := hitems hparse
    have htile := hspells.tile
    rw [Nat.zero_add] at htile
    refine .of_runs htile hspans ?_
    -- the tokens have been read up to the last one
    have htokens := hread.tokens
    rw [show s.rest = [] from hends, List.map_nil, List.append_nil] at htokens
    rw [← htokens]
    change _ = (Lexeme.significant false (tokenize source).tokens).map Lexeme.token
    rw [tokenize, Lexer.finish_ofSource, Lexeme.map_token_significant hspells.isEndOfFile_kind]

/-- Declarations and trivia tile a source.  Where it is read without an error, its declarations are in
order and do not overlap, what is no trivia stands in exactly one of them, no trivia stands across the
bounds of one, and together with the trivia outside of them they leave nothing of the source out. -/
theorem parseSource_tiled (source : String) (limits : Limits) (hpos : 1 ≤ limits.maxErrors)
    (hsilent : (parseSource source limits).errors = []) :
    let parsed := parseSource source limits
    let items := parsed.program.items
    items.Pairwise (fun a b => a.span.stop ≤ b.span.start) ∧
      (∀ t ∈ (tokenize source).tokens, t.isTrivia = false → t.kind.isEndOfFile = false →
        ∃! item, item ∈ items ∧ item.span.contains t.span = true) ∧
      (∀ t ∈ parsed.trivia, ∀ item ∈ items, item.span.contains t.span = true ∨
        t.span.stop ≤ item.span.start ∨ item.span.stop ≤ t.span.start) ∧
      Span.Tile 0 (Source.byteLength source.toList)
        ((items.map (·.span) ++ (Item.outside items parsed.trivia).map (·.span)).mergeSort
          fun a b => decide (a.start ≤ b.start)) := by
  intro parsed items
  have htiling : Tiling 0 _ (Token.readAll 0 source.toList).tokens items :=
    tiling_parseSource source limits hpos hsilent
  have htrivia : parsed.trivia = (Token.readAll 0 source.toList).tokens.filter Token.isTrivia := by
    change (Session.program _).2.trivia = _
    rw [Session.trivia_program]
    change (tokenize source).tokens.filter Token.isTrivia = _
    rw [tokenize, Lexer.finish_ofSource, List.filter_append]
    exact List.append_nil _
  refine ⟨htiling.pairwise, fun t ht hsolid hend => ?_, fun t ht => ?_, ?_⟩
  · rw [tokenize, Lexer.finish_ofSource, List.mem_append, List.mem_singleton] at ht
    obtain ht | rfl := ht
    · obtain ⟨item, hitem, hcontains⟩ := htiling.exists_item ht hsolid
      refine ⟨item, ⟨hitem, hcontains⟩, fun other hother => ?_⟩
      exact htiling.unique ht hother.1 hitem hother.2 hcontains
    · exact absurd hend (by simp [Token.endAt, TokenKind.isEndOfFile])
  · rw [htrivia] at ht
    exact htiling.contains_or_disjoint (List.mem_filter.1 ht).1
  · obtain ⟨spans, htile, hperm⟩ := htiling.exists_tile
    rw [htrivia]
    exact htile.mergeSort hperm

/-- Two declarations with a comment in the first one, and trivia around them. -/
theorem parseSource_tiled_comments :
    let source := " const a: T /* x */ = 1; // y\nfn f() {}\n"
    let parsed := parseSource source .standard
    let items := parsed.program.items
    1 ≤ Limits.standard.maxErrors ∧ parsed.errors = [] ∧
      items.map (·.span) = [⟨1, 24⟩, ⟨30, 39⟩] ∧
      Span.Tile 0 (Source.byteLength source.toList)
        ((items.map (·.span) ++ (Item.outside items parsed.trivia).map (·.span)).mergeSort
          fun a b => decide (a.start ≤ b.start)) := by
  intro source parsed items
  have hpos : 1 ≤ Limits.standard.maxErrors := by decide
  have hsilent : parsed.errors = [] := List.isEmpty_iff.1 (by decide +kernel)
  have hspans : items.map (·.span) = [⟨1, 24⟩, ⟨30, 39⟩] := by decide +kernel
  have htiled := parseSource_tiled source .standard hpos hsilent
  exact ⟨hpos, hsilent, hspans, htiled.2.2.2⟩

end ActorFrontend
