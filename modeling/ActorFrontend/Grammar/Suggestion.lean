import ActorFrontend.Source.Bytes
import ActorFrontend.Token.Keyword

/-!
# Suggestions for misspelled keywords

The distance between two words is the least number of characters to insert, delete or replace
that turns one into the other.  It is computed row by row: the row of a word `a` holds the
distances from `a` to the beginnings of a fixed word `b`, shortest first.
-/

namespace ActorFrontend.Suggestion

/-- The distances from `a` followed by `c` to the beginnings of `b` that go beyond a point.  At
that point `diagonal` is the distance from `a` and `left` the distance from `a` followed by `c`;
`bs` is what follows there, and `above` the rest of the row of `a`. -/
def extendRow (c : Char) (diagonal left : Nat) : List Char → List Nat → List Nat
  | b :: bs, up :: above =>
      let here := min (min (up + 1) (left + 1)) (diagonal + if c = b then 0 else 1)
      here :: extendRow c up here bs above
  | _, _ => []

/-- The row of a word followed by `c`, from the row of the word. -/
def nextRow (b : List Char) (row : List Nat) (c : Char) : List Nat :=
  match row with
  | [] => []
  | diagonal :: above => (diagonal + 1) :: extendRow c diagonal (diagonal + 1) b above

/-- The number of characters to insert, delete or replace to get from one word to the other. -/
def editDistance (a b : List Char) : Nat :=
  (a.foldl (nextRow b) (List.range (b.length + 1))).getLastD 0

/-- The entry of least weight, the first of several. -/
def lightest? {α : Type} : List (α × Nat) → Option (α × Nat)
  | [] => none
  | entry :: entries =>
      match lightest? entries with
      | none => some entry
      | some other => some (if other.2 < entry.2 then other else entry)

/-- How far a suggestion may be from a word: one change for every three bytes, but one at least. -/
def tolerance (word : String) : Nat := max (Source.byteLength word.toList / 3) 1

/-- The keyword of a declaration that is closest to a word without being it. -/
def itemKeyword? (word : String) : Option Keyword :=
  let distances := (Keyword.all.filter Keyword.startsItem).map fun k =>
    (k, editDistance word.toList k.text.toList)
  (lightest? (distances.filter fun (_, d) => 0 < d && d ≤ tolerance word)).map (·.1)

end ActorFrontend.Suggestion
