import ActorFrontend.Proofs.Nesting.Items

/-!
# The nesting limit

In what is read, blocks, parentheses, types and tuple patterns stand in each other no deeper than the
limit says.  Lists in wire types and `else if` chains do not count: their parts are read in a row, and
no level is entered between them.
-/

namespace ActorFrontend

/-- What is read where so many levels are left is no deeper than that. -/
def Regime.shallow (limits : Limits) : Regime where
  limits
  known _ := True
  silent := false
  good n t := t.depth ≤ n
  known_splice _ _ _ _ := trivial
  good_succ h := Nat.le_succ_of_le h
  good_nest h := Nat.succ_le_succ (Shell.depthOf_le_iff.2 h)
  good_inner h := Shell.depthOf_le_iff.1 (Nat.le_of_succ_le h)
  good_splice _ _ _ _ _ _ h := Shell.depthOf_le_iff.2 h

/-- No tree is deeper than the limit, whether it is read with errors or without.  What is deeper under
looser limits is refused. -/
theorem parseSource_depth_le (source : String) (limits : Limits) :
    (parseSource source limits).program.depth ≤ limits.maxDepth ∧
      ∀ looser : Limits, limits.maxDepth < (parseSource source looser).program.depth →
        1 ≤ limits.maxErrors → (parseSource source limits).errors ≠ [] := by
  have hdepth (limits : Limits) : (parseSource source limits).program.depth ≤ limits.maxDepth :=
    Shell.depthOf_le_iff.2 (Session.good_program (R := .shallow limits) (fun _ _ => trivial) nofun)
  refine ⟨hdepth limits, fun looser hdeep hpos hsilent => ?_⟩
  -- the program would be the same under the looser limits
  have hlooser : (parseSource source looser).program.depth ≤ looser.maxDepth := hdepth looser
  have hparse := (SyntaxError.of_merge_eq_nil hpos hsilent).2
  have hsame : (parseSource source looser).program = (parseSource source limits).program :=
    (Session.program_eq_of_looser (tokenize source).tokens (by omega) hparse).2
  have hshallow := hdepth limits
  rw [hsame] at hdeep
  omega

/-- A block in a block is refused where only one level is left. -/
theorem parseSource_depth_le_blocks :
    (parseSource "fn f() \x7b \x7b \x7d \x7d" ⟨20, 1⟩).errors ≠ [] :=
  (parseSource_depth_le _ ⟨20, 1⟩).2 ⟨20, 2⟩ (by decide +kernel) (by decide)

/-! ## What does not count -/

/-- How many lists the type stands in. -/
def WireType.lists : WireType → Nat
  | .list elem => elem.lists + 1
  | .primitive _ | .named _ => 0

/-- The types of the fields, if the declaration is one of data on the wire. -/
def Item.wireTypes (i : Item) : List WireType :=
  match i.kind with
  | .wire d => d.members.filterMap fun
      | .field f => some f.type
      | .variant _ | .reserved _ _ => none
  | _ => []

mutual

/-- How many `if` expressions stand in a row, each one behind the `else` of the one before. -/
def Expr.chain : Expr → Nat
  | ⟨_, _, kind⟩ => kind.chain

def ExprKind.chain : ExprKind → Nat
  | .ifElse _ _ (some elseBranch) => elseBranch.chain + 1
  | .ifElse _ _ none => 1
  | _ => 0

end

/-- The expressions that are statements of the function, if the declaration is one. -/
def Item.exprStmts (i : Item) : List Expr :=
  match i.kind with
  | .fn d => d.body.toList.flatMap fun block => block.stmts.filterMap fun stmt =>
      match stmt.kind with
      | .expr e _ => some e
      | _ => none
  | _ => []

/-- Two lists in each other are read under a limit of one level, and four branches in a row under a
limit of three. -/
theorem parseSource_exceeds_limit :
    let lists := parseSource "wire struct A \x7b x: list[list[u8]] \x7d" ⟨20, 1⟩
    let chain := parseSource
      "fn f() \x7b if a \x7b\x7d else if b \x7b\x7d else if c \x7b\x7d else if d \x7b\x7d \x7d" ⟨20, 3⟩
    (lists.errors.isEmpty = true ∧
        (lists.program.items.flatMap Item.wireTypes).map WireType.lists = [2]) ∧
      chain.errors.isEmpty = true ∧
        (chain.program.items.flatMap Item.exprStmts).map Expr.chain = [4] := by
  decide +kernel

end ActorFrontend
