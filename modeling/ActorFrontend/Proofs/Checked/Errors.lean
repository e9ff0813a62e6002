import ActorFrontend.Proofs.Checked.Lexer
import ActorFrontend.Proofs.Checked.Reports
import ActorFrontend.Proofs.Checked.Terminal
import ActorFrontend.Proofs.Placement.Program
import ActorFrontend.Proofs.Strings.Places

/-!
# Reading and reporting with checks

Every error in a source is about whole characters of it.  Together with the checked lexer, the
checked report and the checked rendering this says that nothing on the way from a source to what is
shown of it is cut where it cannot be cut, and that no number on the way is out of its range.
-/

namespace ActorFrontend

open Source

variable {source : List Char} {offset : Nat} {read : Nat → List Char → Lexed}

/-! ## Where lexical errors stand -/

theorem Source.StandsAt.placed {text : List Char} (h : StandsAt source offset text) :
    Span.Placed source ⟨offset, offset + byteLength text⟩ :=
  ⟨Nat.le_add_right .., h.boundary_start, h.boundary_stop⟩

/-- Sequences that stand for nothing stand in the text that is decoded. -/
theorem Escape.placed_decode {interpolated : Bool} {cs : List Char} (hs : StandsAt source offset cs) :
    ∀ e ∈ (decode interpolated offset cs).2, e.span.Placed source := by
  have hslash : Char.utf8Size '\\' = 1 := rfl
  have hx : Char.utf8Size 'x' = 1 := rfl
  fun_induction decode interpolated offset cs with
  | case1 => exact List.forall_mem_nil _
  | case2 offset => exact List.forall_mem_singleton.2 hs.placed
  | case3 offset high low cs c hc ih =>
    obtain ⟨hhigh, hlow⟩ := utf8Size_of_hex? hc
    have hs : StandsAt source offset (['\\', 'x', high, low] ++ cs) := hs
    exact ih (by simpa [hslash, hx, hhigh, hlow] using hs.right)
  | case4 offset high low cs _ ih =>
    have hs : StandsAt source offset (['\\', 'x'] ++ high :: low :: cs) := hs
    exact List.forall_mem_cons.2 ⟨hs.left.placed, ih (by simpa [hslash, hx] using hs.right)⟩
  | case5 offset c cs _ next d _ ih =>
    have hs : StandsAt source offset (['\\', c] ++ cs) := hs
    exact ih (by simpa [hslash, next, Nat.add_assoc] using hs.right)
  | case6 offset c cs _ next _ ih =>
    have hs : StandsAt source offset (['\\', c] ++ cs) := hs
    exact List.forall_mem_cons.2
      ⟨hs.left.placed, ih (by simpa [hslash, next, Nat.add_assoc] using hs.right)⟩
  | case7 offset c cs _ _ _ ih =>
    have hs : StandsAt source offset ([c] ++ cs) := hs
    exact ih (by simpa using hs.right)

section

variable (hread : ∀ offset chars, StandsAt source offset chars →
  ∀ e ∈ (read offset chars).errors, e.span.Placed source)

include hread

theorem Piece.placed_errors {piece : Piece} (hs : StandsAt source offset piece.source) :
    ∀ e ∈ piece.errors read offset, e.span.Placed source := by
  have hbrace : Char.utf8Size '{' = 1 := rfl
  cases piece with
  | text chars => exact Escape.placed_decode hs
  | splice chars ended =>
    refine List.forall_mem_append.2 ⟨fun e he => ?_, ?_⟩
    · rw [span_of_mem_openErrors he]
      exact hs.placed
    · have hs : StandsAt source offset (['{'] ++ (chars ++ closing '}' ended)) := hs
      exact hread _ _ (by simpa [hbrace] using hs.right.left)

theorem placed_fragments {pieces : List Piece}
    (hs : StandsAt source offset (pieces.flatMap Piece.source)) :
    ∀ e ∈ (Token.fragments read offset pieces).2, e.span.Placed source := by
  induction pieces generalizing offset with
  | nil => exact List.forall_mem_nil _
  | cons piece pieces ih =>
    rw [List.flatMap_cons] at hs
    rw [Token.fragments_cons]
    exact List.forall_mem_append.2 ⟨Piece.placed_errors hread hs.left, ih hs.right⟩

/-- The errors in a token stand in its text. -/
theorem placed_ofMatch {c : Char} {cs : List Char}
    (hs : StandsAt source offset (Match.longest c cs).text) :
    ∀ e ∈ (Token.ofMatch read offset (Match.longest c cs)).2, e.span.Placed source := by
  have hquote : Char.utf8Size '"' = 1 := rfl
  have hmark : Char.utf8Size 'f' = 1 := rfl
  have hwhole := hs.placed
  simp only [Token.ofMatch, Token.interpret]
  split
  case h_3 closed _ =>
    cases closed with
    | true => exact List.forall_mem_nil _
    | false => exact List.forall_mem_singleton.2 hwhole
  case h_5 =>
    split
    · exact List.forall_mem_nil _
    · exact List.forall_mem_singleton.2 hwhole
  case h_7 body closed hshape =>
    obtain ⟨-, hlongest⟩ := Match.longest_eq_string hshape
    obtain rfl : (plainBody cs).1 = body := by
      simpa [hlongest, Match.string] using And.left (Shape.string.inj (hlongest ▸ hshape))
    have hbody : ∀ e ∈ (Escape.decode false (offset + 1) (plainBody cs).1).2,
        e.span.Placed source := by
      rw [hlongest] at hs
      have hs : StandsAt source offset
          (['"'] ++ ((plainBody cs).1 ++ closing '"' (plainBody cs).2.1)) := hs
      exact Escape.placed_decode (by simpa [hquote] using hs.right.left)
    split
    · exact hbody
    · exact List.forall_mem_cons.2 ⟨hwhole, hbody⟩
  case h_8 pieces closed hshape =>
    obtain ⟨body, -, hlongest⟩ := Match.longest_eq_interpolated hshape
    obtain rfl : (interpolatedBody .text body).pieces = pieces := by
      simpa [hlongest, Match.interpolated] using And.left (Shape.interpolated.inj (hlongest ▸ hshape))
    have hbody : ∀ e ∈ (Token.fragments read (offset + 2) (interpolatedBody .text body).pieces).2,
        e.span.Placed source := by
      rw [hlongest] at hs
      have hs : StandsAt source offset (['f', '"'] ++ ((interpolatedBody .text body).source ++
          closing '"' (interpolatedBody .text body).closed)) := hs
      have hpieces : StandsAt source (offset + byteLength ['f', '"'])
          ((interpolatedBody .text body).pieces.flatMap Piece.source) := hs.right.left
      exact placed_fragments hread (by simpa [hquote, hmark] using hpieces)
    split
    · exact hbody
    · exact List.forall_mem_append.2 ⟨hbody, List.forall_mem_singleton.2 hwhole⟩
  case h_11 => exact List.forall_mem_singleton.2 hwhole
  all_goals exact List.forall_mem_nil _

end

/-- The errors in a text stand where the text does. -/
theorem placed_readWithin (fuel : Nat) {offset : Nat} {cs : List Char}
    (hs : StandsAt source offset cs) :
    ∀ e ∈ (Token.readWithin fuel offset cs).errors, e.span.Placed source := by
  induction fuel generalizing offset cs with
  | zero => exact List.forall_mem_nil _
  | succ fuel ih =>
    cases cs with
    | nil => exact List.forall_mem_nil _
    | cons c cs =>
      have hsplit := (Match.splits_longest c cs).1
      rw [← hsplit] at hs
      exact List.forall_mem_append.2
        ⟨placed_ofMatch (fun offset chars hs => ih hs) hs.left, ih hs.right⟩

theorem placed_errors_tokenize (source : String) :
    ∀ e ∈ (tokenize source).errors, e.span.Placed source.toList := by
  rw [tokenize, Lexer.finish_ofSource]
  exact placed_readWithin _ (standsAt_self source.toList)

/-- Every error in a source stands in it. -/
theorem placed_errors_parseSource (source : String) (limits : Limits) :
    ∀ e ∈ (parseSource source limits).errors, e.span.Placed source.toList := by
  intro e he
  have hmem := List.mem_mergeSort.1 (List.mem_of_mem_take he)
  obtain he | he := List.mem_append.1 hmem
  · obtain ⟨error, herror, rfl⟩ := List.mem_map.1 he
    exact placed_errors_tokenize source error herror
  · obtain ⟨error, herror, rfl⟩ := List.mem_map.1 he
    exact Session.placed_errors_program source limits error herror

/-! ## Nothing is out of range -/

/-- No reading of a source that is counted in 32 bits cuts it where no character starts or behind its
end; the errors found are about whole characters of it; and what diagnostics whose spans are counted
in 32 bits say about it, inside of it or not, can be shown and reported. -/
theorem Checked.reading_and_reporting_total (source : String)
    (h : source.utf8ByteSize < UInt32.size - 1) :
    tokenize? source = some (tokenize source) ∧
      (∀ limits, ∀ e ∈ (parseSource source limits).errors,
        e.span.start ≤ e.span.stop ∧ e.span.stop ≤ source.utf8ByteSize ∧
          Boundary source.toList e.span.start ∧ Boundary source.toList e.span.stop) ∧
      (∀ (file : Option String) (d : Diagnostic), d.Fits →
        Terminal.format? (.ofSource source file) d =
          some (Terminal.format (.ofSource source file) d)) ∧
      (∀ (file : String) (ds : List Diagnostic), (∀ d ∈ ds, d.Fits) →
        Report.ofDiagnostics? ds source file = some (Report.ofDiagnostics ds source file)) := by
  have hlength := byteLength_toList source
  have hsize : byteLength source.toList < LineMap.offsetModulus - 1 := by rwa [hlength]
  refine ⟨tokenize?_eq source, fun limits e he => ?_,
    fun file d hd => Terminal.format?_eq hsize hd file,
    fun file ds hds => Report.ofDiagnostics?_eq hsize hds file⟩
  have hplaced := placed_errors_parseSource source limits e he
  exact ⟨hplaced.start_le_stop, hlength ▸ hplaced.boundary_stop.le_byteLength,
    hplaced.boundary_start, hplaced.boundary_stop⟩

/-- A label and a change that start behind the end of the source. -/
theorem Checked.reading_and_reporting_total_behind_end :
    Terminal.format? (.ofSource "é\n" none)
        ((((Diagnostic.ofMessage .error "m").withPrimary ⟨7, 9⟩ "l").withHelp "h").withSuggestion
          ⟨8, 9⟩ "x") =
      some (Terminal.format (.ofSource "é\n" none)
        ((((Diagnostic.ofMessage .error "m").withPrimary ⟨7, 9⟩ "l").withHelp "h").withSuggestion
          ⟨8, 9⟩ "x")) := by
  obtain ⟨-, -, hformat, -⟩ := Checked.reading_and_reporting_total "é\n" (by decide)
  refine hformat none _ ⟨List.forall_mem_singleton.2 ⟨by decide, by decide⟩, ?_⟩
  rintro _ ⟨⟩
  exact ⟨by decide, by decide⟩

end ActorFrontend
