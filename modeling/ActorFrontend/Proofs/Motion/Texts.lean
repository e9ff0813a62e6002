import ActorFrontend.Proofs.Splices.Places

/-!
# The texts of splices

The tokens of a splice are those of the text between its braces, read where that stands.  Where a
text has no lexical error there is none in its splices, at any depth.
-/

namespace ActorFrontend

/-- The tokens are those of the text at the span, and there is no error in that. -/
def Token.Reads (source : List Char) (span : Span) (tokens : List Token) : Prop :=
  ∃ cs, Source.StandsAt source span.start cs ∧ span.stop = span.start + Source.byteLength cs ∧
    tokens = (readAll span.start cs).tokens ∧ (readAll span.start cs).errors = []

namespace Token

variable {source : List Char} {tokens : List Token} {span : Span}

/-- The splices in a source without lexical errors, at any depth. -/
theorem Occurs.reads {source : String} (hsilent : (tokenize source).errors = []) {t : Token}
    (ht : Occurs (tokenize source).tokens t) (hin : t.HasSplice tokens span) :
    Reads source.toList span tokens := by
  obtain ⟨cs, hs, hstop, htokens, herrors, -⟩ := ht.splicedAt hin
  rw [hsilent] at herrors
  exact ⟨cs, hs, hstop, htokens, List.subset_nil.1 herrors⟩

/-- The text of a splice. -/
theorem Reads.slice {source : String} (h : Reads source.toList span tokens) :
    (readAll span.start (span.slice source).toList).tokens = tokens ∧
      (readAll span.start (span.slice source).toList).errors = [] ∧
      span.stop = span.start + Source.byteLength (span.slice source).toList := by
  obtain ⟨cs, ⟨front, back, hsource, hfront⟩, hstop, rfl, hinner⟩ := h
  have hslice : Source.slice? span.start span.stop source.toList = some cs :=
    Source.slice?_eq_some_iff.2 ⟨front, back, hsource, hfront, hstop.symm⟩
  have htext : (span.slice source).toList = cs := by
    simp [Span.slice, hslice]
  rw [htext]
  exact ⟨rfl, hinner, hstop⟩

end Token

end ActorFrontend
