import ActorFrontend.Grammar.Source
import ActorFrontend.Proofs.Forms.Items

/-!
# The form of programs

Whatever a source holds and whatever the limits are, all parts of the program that is read from it
have the shape that the syntax tree promises.  What a context rules out is not read in it: before a
block there is no struct literal and before the arrow of an arm no lambda, unless in brackets.
-/

namespace ActorFrontend

theorem Session.sound_program {tokens : List Token} (limits : Limits)
    (htexts : ∀ t ∈ tokens, t.SetsTextsApart) : Sound (Session.ofTokens tokens limits).program.1 := by
  let session := Session.ofTokens tokens limits
  have hforms := Parser.forms_program (Rules.form_within limits.maxDepth)
  have hs : session.state.SetsTextsApart :=
    fun lexeme hlexeme => htexts _ (Lexeme.token_mem_of_mem_significant hlexeme)
  cases hreply : Parser.program session.rules session.setting session.state with
  | ok program after =>
    have hprogram : session.program = (program, { session with state := after }) :=
      Session.program_eq_of_ok hreply
    change Sound session.program.1
    rw [hprogram]
    exact hforms.forms session.setting session.state program after hs hreply
  | fail e after =>
    change Sound session.program.1
    rw [Session.program, Session.run, hreply]
    exact sound_nil

theorem parseSource_sound (source : String) (limits : Limits) :
    Sound (parseSource source limits).program :=
  Session.sound_program limits (Token.textsApart_tokenize source)

/-- A part of the program that is read from a source. -/
theorem Program.Has.of_parseSource {source : String} {limits : Limits} {part : Part}
    (h : (parseSource source limits).program.Has part) : part.Shaped ∧ part.HeadsClear := by
  obtain ⟨p, hp, hwithin⟩ := h
  exact parseSource_sound source limits p hp part hwithin

/-! ## Parts by their places -/

/-- The part at the end of a way down.  Each step is the place of a part among those that the part
before is directly made up of. -/
def Part.along : List Nat → Part → Option Part
  | [], p => some p
  | place :: places, p => p.children[place]?.bind (along places)

theorem Part.within_of_along {places : List Nat} {p q : Part} (h : p.along places = some q) : q.Within p := by
  induction places generalizing p with
  | nil =>
    obtain rfl := Option.some.inj h
    exact .self p
  | cons place places ih =>
    obtain ⟨child, hchild, hrest⟩ := Option.bind_eq_some_iff.1 h
    exact .inside (List.mem_of_getElem? hchild) (ih hrest)

/-- The part of a declaration, the place of which comes first. -/
def Program.partAt (program : Program) (item : Nat) (places : List Nat) : Option Part :=
  (components program)[item]?.bind (Part.along places)

theorem Program.has_of_partAt {program : Program} {item : Nat} {places : List Nat} {part : Part}
    (h : program.partAt item places = some part) : program.Has part := by
  obtain ⟨p, hp, hplaces⟩ := Option.bind_eq_some_iff.1 h
  exact ⟨p, List.mem_of_getElem? hp, Part.within_of_along hplaces⟩

/-! ## Heads and shapes -/

/-- Every part of a program has the shape that the syntax tree promises, whether errors were found in
the source or not. -/
theorem parseSource_shaped (source : String) (limits : Limits) {part : Part}
    (h : (parseSource source limits).program.Has part) : part.Shaped :=
  h.of_parseSource.1

/-- Alternatives in parentheses are alternatives of the pattern around them. -/
theorem parseSource_shaped_alternatives :
    ∃ p, (parseSource "fn f() \x7b let (a | b) | c = 1 \x7d" .standard).program.Has (.pattern p) ∧
      p.kind.isOr = true ∧ p.kind.Shaped := by
  have hplace : ((parseSource "fn f() \x7b let (a | b) | c = 1 \x7d" .standard).program.partAt 0
      [0, 0, 0, 0]).map (fun | .pattern p => p.kind.isOr | _ => false) = some true := by decide +kernel
  obtain ⟨part, hpart, hor⟩ := Option.map_eq_some_iff.1 hplace
  cases part with
  | pattern p =>
    have hhas := Program.has_of_partAt hpart
    exact ⟨p, hhas, hor, parseSource_shaped _ _ hhas⟩
  | _ => cases hor

end ActorFrontend
