import ActorFrontend.Proofs.Placement.Location
import ActorFrontend.Proofs.Placement.Outline
import Mathlib.Data.List.Nodup

/-!
# Placed forests

Outlines that stand one after another in a range of the source, with numbers from a range of their
own.  A reading adds to such a forest at its right end, and a finished node takes all of it in.
-/

namespace ActorFrontend

open Source

namespace Outline

/-- One node ends before the other one starts. -/
def Before (a b : Outline) : Prop := a.span.stop ≤ b.span.start

/-- The span of the node and those of all nodes below it are made of whole characters of the
source; every node lies within the one above it, nodes side by side do not overlap, and a number is
greater than all numbers below it. -/
inductive Nested (source : List Char) : Outline → Prop where
  | node {id : Option Nat} {span : Span} {parts aside : List Outline} :
      Boundary source span.start → Boundary source span.stop → span.start ≤ span.stop →
      parts.Pairwise Before → aside.Pairwise Before →
      (∀ o ∈ parts ++ aside, span.start ≤ o.span.start ∧ o.span.stop ≤ span.stop) →
      (∀ n ∈ id, ∀ i ∈ idsOf (parts ++ aside), i < n) →
      (∀ o ∈ parts ++ aside, Nested source o) →
      Nested source (.node id span parts aside)

theorem Nested.start_le_stop {source : List Char} {o : Outline} (h : o.Nested source) :
    o.span.start ≤ o.span.stop := by
  cases h
  assumption

theorem Nested.within {source : List Char} {o : Outline} (h : o.Nested source) :
    ∀ child ∈ o.children, o.span.start ≤ child.span.start ∧ child.span.stop ≤ o.span.stop := by
  cases h
  assumption

theorem Nested.child {source : List Char} {o : Outline} (h : o.Nested source) :
    ∀ child ∈ o.children, child.Nested source := by
  cases h
  assumption

theorem Nested.pairwise_parts {source : List Char} {o : Outline} (h : o.Nested source) :
    o.parts.Pairwise Before := by
  cases h
  assumption

theorem Nested.pairwise_aside {source : List Char} {o : Outline} (h : o.Nested source) :
    o.aside.Pairwise Before := by
  cases h
  assumption

theorem Nested.lt_id {source : List Char} {o : Outline} (h : o.Nested source) :
    ∀ n ∈ o.id, ∀ i ∈ idsOf o.children, i < n := by
  cases h
  assumption

theorem Nested.boundary_start {source : List Char} {o : Outline} (h : o.Nested source) :
    Boundary source o.span.start := by
  cases h
  assumption

theorem Nested.boundary_stop {source : List Char} {o : Outline} (h : o.Nested source) :
    Boundary source o.span.stop := by
  cases h
  assumption

/-! ## The nodes of several outlines -/

@[simp] theorem nodesOf_append (os os' : List Outline) :
    nodesOf (os ++ os') = nodesOf os ++ nodesOf os' := by
  induction os with
  | nil => rfl
  | cons o os ih => simp [nodesOf, ih]

theorem nodesOf_eq_flatMap (os : List Outline) : nodesOf os = os.flatMap nodes := by
  induction os with
  | nil => rfl
  | cons o os ih => simp [nodesOf, ih]

@[simp] theorem idsOf_nil : idsOf [] = [] := rfl

@[simp] theorem idsOf_append (os os' : List Outline) :
    idsOf (os ++ os') = idsOf os ++ idsOf os' := by
  simp [idsOf]

theorem idsOf_node (id : Option Nat) (span : Span) (parts aside : List Outline) :
    idsOf [.node id span parts aside] = id.toList ++ idsOf (parts ++ aside) := by
  cases id <;> simp [idsOf, nodesOf, nodes, Outline.id, List.filterMap_cons]

theorem nodesOf_sublist {os os' : List Outline} (h : os'.Sublist os) :
    (nodesOf os').Sublist (nodesOf os) := by
  induction h with
  | slnil => exact .refl _
  | cons o _ ih => exact ih.trans (List.sublist_append_right _ _)
  | cons_cons o _ ih => exact ih.append_left _

theorem idsOf_sublist {os os' : List Outline} (h : os'.Sublist os) :
    (idsOf os').Sublist (idsOf os) :=
  (nodesOf_sublist h).filterMap _

theorem idsOf_perm {os os' : List Outline} (h : os'.Perm os) : (idsOf os').Perm (idsOf os) := by
  simp only [idsOf, nodesOf_eq_flatMap]
  exact (h.flatMap_right nodes).filterMap _

/-- Every node below a nested one is nested. -/
theorem Nested.of_mem_nodes {source : List Char} {o : Outline} (h : o.Nested source) :
    ∀ n ∈ o.nodes, n.Nested source := by
  induction h with
  | @node id span parts aside hstart hstop hle hparts haside hwithin hids hnested ih =>
    intro n hn
    -- a node is the outline itself or a node of one of its children
    rw [nodes, ← nodesOf_append, nodesOf_eq_flatMap, List.mem_cons, List.mem_flatMap] at hn
    rcases hn with rfl | ⟨o, ho, hn⟩
    · exact .node hstart hstop hle hparts haside hwithin hids hnested
    · exact ih o ho n hn

end Outline

open Outline

/-- The outlines stand one after another between the offsets `lo` and `hi`, and their numbers, all
of them different, run from `first` on to below `next`. -/
structure Laid (source : List Char) (lo hi : Nat) (first next : Nat) (os : List Outline) :
    Prop where
  nested : ∀ o ∈ os, o.Nested source
  ordered : os.Pairwise Before
  within : ∀ o ∈ os, lo ≤ o.span.start ∧ o.span.stop ≤ hi
  ids : ∀ i ∈ idsOf os, first ≤ i ∧ i < next
  nodup : (idsOf os).Nodup

/-- The outlines are `parts`, with `aside` anywhere among them. -/
structure Merged (parts aside os : List Outline) : Prop where
  parts_sublist : parts.Sublist os
  aside_sublist : aside.Sublist os
  perm : (parts ++ aside).Perm os

theorem Merged.whole {os os' : List Outline} (h : os' = os) : Merged os' [] os :=
  ⟨h ▸ .refl _, List.nil_sublist _, by simp [h]⟩

theorem Merged.append_parts {parts aside os new : List Outline} (h : Merged parts aside os) :
    Merged (parts ++ new) aside (os ++ new) where
  parts_sublist := h.parts_sublist.append_right new
  aside_sublist := h.aside_sublist.trans (List.sublist_append_left os new)
  perm := by
    rw [List.append_assoc]
    -- `aside` and the new parts change places
    apply (List.perm_append_comm.append_left parts).trans
    rw [← List.append_assoc]
    exact h.perm.append_right new

theorem Merged.append_aside {parts os new : List Outline} (h : Merged parts [] os) :
    Merged parts new (os ++ new) where
  parts_sublist := h.parts_sublist.trans (List.sublist_append_left os new)
  aside_sublist := List.sublist_append_right os new
  perm := by
    have hperm : parts.Perm os := by simpa using h.perm
    exact hperm.append_right new

theorem Merged.prepend {parts aside os : List Outline} (h : Merged parts aside os)
    (before : List Outline) : Merged (before ++ parts) aside (before ++ os) where
  parts_sublist := h.parts_sublist.append_left before
  aside_sublist := h.aside_sublist.trans (List.sublist_append_right before os)
  perm := by
    rw [List.append_assoc]
    exact h.perm.append_left before

/-- An expression of the kind holds these outlines. -/
abbrev ExprKind.MadeOf (k : ExprKind) (os : List Outline) : Prop := Merged k.parts k.aside os

/-- A declaration of the kind holds these outlines. -/
abbrev ItemKind.MadeOf (k : ItemKind) (os : List Outline) : Prop := Merged k.parts k.aside os

namespace Laid

variable {source : List Char} {lo lo' hi hi' : Nat} {first first' next next' : Nat}
  {os os' : List Outline}

theorem nil : Laid source lo hi first next [] :=
  ⟨by simp, .nil, by simp, by simp, .nil⟩

theorem mono (h : Laid source lo hi first next os) (hlo : lo' ≤ lo) (hhi : hi ≤ hi')
    (hfirst : first' ≤ first) (hnext : next ≤ next') : Laid source lo' hi' first' next' os where
  nested := h.nested
  ordered := h.ordered
  within o ho := by have := h.within o ho; omega
  ids i hmem := by have := h.ids i hmem; omega
  nodup := h.nodup

theorem sublist (h : Laid source lo hi first next os) (hs : os'.Sublist os) :
    Laid source lo hi first next os' where
  nested o ho := h.nested o (hs.subset ho)
  ordered := h.ordered.sublist hs
  within o ho := h.within o (hs.subset ho)
  ids i hmem := h.ids i ((idsOf_sublist hs).subset hmem)
  nodup := h.nodup.sublist (idsOf_sublist hs)

/-- What is laid behind what was laid before. -/
theorem append {mid mid' : Nat} {between between' : Nat}
    (h : Laid source lo mid first between os) (h' : Laid source mid' hi between' next os')
    (hlo : lo ≤ mid') (hmid : mid ≤ mid') (hhi : mid ≤ hi) (hfirst : first ≤ between')
    (hbetween : between ≤ between') (hnext : between ≤ next) :
    Laid source lo hi first next (os ++ os') where
  nested := List.forall_mem_append.2 ⟨h.nested, h'.nested⟩
  ordered := List.pairwise_append.2 ⟨h.ordered, h'.ordered, fun a ha b hb => by
    have := h.within a ha
    have := h'.within b hb
    unfold Before
    omega⟩
  within := List.forall_mem_append.2
    ⟨(h.mono (Nat.le_refl _) hhi (Nat.le_refl _) (Nat.le_refl _)).within,
      (h'.mono hlo (Nat.le_refl _) (Nat.le_refl _) (Nat.le_refl _)).within⟩
  ids := by
    rw [idsOf_append]
    exact List.forall_mem_append.2 ⟨fun i hmem => by have := h.ids i hmem; omega,
      fun i hmem => by have := h'.ids i hmem; omega⟩
  nodup := by
    rw [idsOf_append]
    -- the numbers on the left are below `between`, those on the right are not
    refine List.nodup_append.2 ⟨h.nodup, h'.nodup, fun i hmem j hmem' => ?_⟩
    have := h.ids i hmem
    have := h'.ids j hmem'
    omega

/-- The last outline gives way to others within it. -/
theorem replaceLast {o : Outline} (h : Laid source lo hi first next (os ++ [o]))
    (hnested : ∀ o' ∈ os', o'.Nested source) (hordered : os'.Pairwise Before)
    (hwithin : ∀ o' ∈ os', o.span.start ≤ o'.span.start ∧ o'.span.stop ≤ o.span.stop)
    (hids : (idsOf os').Sublist (idsOf [o])) : Laid source lo hi first next (os ++ os') := by
  have hlast : o ∈ os ++ [o] := by simp
  have hids' : (idsOf (os ++ os')).Sublist (idsOf (os ++ [o])) := by
    rw [idsOf_append, idsOf_append]
    exact hids.append_left _
  constructor
  case nested =>
    exact List.forall_mem_append.2 ⟨fun a ha => h.nested a (List.mem_append_left _ ha), hnested⟩
  case ordered =>
    have hpairs := List.pairwise_append.1 h.ordered
    refine List.pairwise_append.2 ⟨hpairs.1, hordered, fun a ha b hb => ?_⟩
    have hbefore : a.span.stop ≤ o.span.start := hpairs.2.2 a ha o (List.mem_singleton_self o)
    exact Nat.le_trans hbefore (hwithin b hb).1
  case within =>
    have hout := h.within o hlast
    refine List.forall_mem_append.2
      ⟨fun a ha => h.within a (List.mem_append_left _ ha), fun b hb => ?_⟩
    have hin := hwithin b hb
    omega
  -- no number is new
  case ids => exact fun i hmem => h.ids i (hids'.subset hmem)
  case nodup => exact h.nodup.sublist hids'

/-- The last outline gives way to its parts. -/
theorem unfoldLast {o : Outline} (h : Laid source lo hi first next (os ++ [o])) :
    Laid source lo hi first next (os ++ o.parts) := by
  have hnested := h.nested o (by simp)
  have hchildren : ∀ child ∈ o.parts, child ∈ o.children := fun child hchild =>
    List.mem_append_left _ hchild
  apply h.replaceLast (fun child hchild => hnested.child child (hchildren child hchild))
    hnested.pairwise_parts (fun child hchild => hnested.within child (hchildren child hchild))
  obtain ⟨id, span, parts, aside⟩ := o
  rw [idsOf_node, idsOf_append]
  exact (List.sublist_append_left _ _).trans (List.sublist_append_right _ _)

/-- The number of the last outline is not used. -/
theorem unnumberLast {id : Option Nat} {span : Span} {parts aside : List Outline}
    (h : Laid source lo hi first next (os ++ [.node id span parts aside])) :
    Laid source lo hi first next (os ++ [.node none span parts aside]) := by
  have hnested := h.nested (.node id span parts aside) (by simp)
  refine h.replaceLast (List.forall_mem_singleton.2 ?_) (List.pairwise_singleton _ _)
    (List.forall_mem_singleton.2 ⟨Nat.le_refl _, Nat.le_refl _⟩) ?_
  · cases hnested with
    | node hstart hstop hle hparts haside hwithin _ hbelow =>
      -- without a number there is none that those below could exceed
      exact .node hstart hstop hle hparts haside hwithin nofun hbelow
  · rw [idsOf_node, idsOf_node]
    exact List.sublist_append_right _ _

/-- A node around all that is laid; its number, if it has one, has not been given out before. -/
theorem wrap {id : Option Nat} {span : Span} {parts aside : List Outline}
    (h : Laid source lo hi first next os) (hmerged : Merged parts aside os)
    (hstart : Boundary source span.start) (hstop : Boundary source span.stop)
    (hle : span.start ≤ span.stop) (hlo : lo ≤ span.start) (hhi : span.stop ≤ hi)
    (hwithin : ∀ o ∈ os, span.start ≤ o.span.start ∧ o.span.stop ≤ span.stop)
    (hfirst : first ≤ next) (hnext : next ≤ next') (hid : ∀ n ∈ id, next ≤ n ∧ n < next') :
    Laid source lo hi first next' [.node id span parts aside] := by
  -- the numbers below were given out before `next`, the node's own one from there on
  have hbelow : ∀ i ∈ idsOf (parts ++ aside), first ≤ i ∧ i < next := fun i hmem =>
    h.ids i ((idsOf_perm hmerged.perm).subset hmem)
  constructor
  case nested =>
    refine List.forall_mem_singleton.2 (.node hstart hstop hle (h.ordered.sublist hmerged.parts_sublist)
      (h.ordered.sublist hmerged.aside_sublist) (fun o ho => hwithin o (hmerged.perm.subset ho)) (fun n hn i hmem => ?_)
      (fun o ho => h.nested o (hmerged.perm.subset ho)))
    have := hid n hn
    have := hbelow i hmem
    omega
  case ordered => exact List.pairwise_singleton _ _
  case within => exact List.forall_mem_singleton.2 ⟨hlo, hhi⟩
  case ids =>
    rw [idsOf_node]
    refine List.forall_mem_append.2 ⟨fun n hn => ?_, fun i hmem => ?_⟩
    · have := hid n (Option.mem_toList.1 hn)
      omega
    · have := hbelow i hmem
      omega
  case nodup =>
    rw [idsOf_node]
    refine List.nodup_append.2 ⟨by cases id <;> simp, (idsOf_perm hmerged.perm).symm.nodup h.nodup,
      fun n hn i hmem => ?_⟩
    have := hid n (Option.mem_toList.1 hn)
    have := hbelow i hmem
    omega

end Laid

end ActorFrontend
