import ActorFrontend.Proofs.Defects.Fork
import ActorFrontend.Proofs.Defects.OneError

/-!
# One bad member, one error

Traits, implementations, `extern` blocks, actors and supervisors are read member by member.  A run of
tokens that cannot be read as a member costs one error and nothing else, if it is closed by a semicolon
and holds nothing that the recovery might stop at.  The first token of the run may be a keyword that a
member of this body starts with.  A keyword that only members of other bodies start with does not do:
the recovery stops before it at once, passes over it alone, and the rest of the run is taken for a
member of its own.
-/

namespace ActorFrontend

open ActorFrontend.Parser

variable {α β σ τ : Type} {L : Likeness} {g : Rules} {setting : Setting} {s after : State}

/-! ## Bodies of members -/

/-- The declarations whose bodies are read member by member. -/
inductive MemberBody where
  | trait
  | impl
  | external
  | actor
  | supervisor
  deriving DecidableEq, Repr

/-- The body of a declaration, if it is read member by member. -/
def ItemKind.memberBody? : ItemKind → Option MemberBody
  | .trait _ => some .trait
  | .impl _ => some .impl
  | .externBlock _ => some .external
  | .actor _ => some .actor
  | .supervisor _ => some .supervisor
  | _ => none

namespace MemberBody

/-- The keyword that the declaration starts with. -/
def keyword : MemberBody → Keyword
  | .trait => .traitKw
  | .impl => .implKw
  | .external => .externKw
  | .actor => .actorKw
  | .supervisor => .supervisorKw

/-- The keywords that a member of the body may start with. -/
def keywords : MemberBody → List Keyword
  | .trait | .impl => [.fnKw, .genKw, .asyncKw, .typeKw]
  | .external => [.fnKw]
  | .actor => [.fnKw, .genKw, .asyncKw, .letKw, .varKw, .mailboxKw]
  | .supervisor => []

/-- Reads the declaration, behind its visibility. -/
def decl (g : Rules) : MemberBody → Parser ItemKind
  | .trait => do pure (.trait (← traitDecl g))
  | .impl => do pure (.impl (← implDecl g))
  | .external => do pure (.externBlock (← externBlock g))
  | .actor => do pure (.actor (← actorDecl g))
  | .supervisor => do pure (.supervisor (← supervisorDecl g))

/-- The rule for the members of the body fails on the tokens. -/
def Rejects (g : Rules) (setting : Setting) (lexemes : List Lexeme) : MemberBody → Prop
  | .trait => (traitItem g).Rejects setting lexemes
  | .impl => (implItem g).Rejects setting lexemes
  | .external => (externFn g).Rejects setting lexemes
  | .actor => (actorPart g (none, [])).Rejects setting lexemes
  | .supervisor => (supervisorMember g).Rejects setting lexemes

instance (g : Rules) (setting : Setting) (lexemes : List Lexeme) (body : MemberBody) :
    Decidable (body.Rejects g setting lexemes) :=
  match body with
  | .trait => inferInstanceAs (Decidable ((traitItem g).Rejects setting lexemes))
  | .impl => inferInstanceAs (Decidable ((implItem g).Rejects setting lexemes))
  | .external => inferInstanceAs (Decidable ((externFn g).Rejects setting lexemes))
  | .actor => inferInstanceAs (Decidable ((actorPart g (none, [])).Rejects setting lexemes))
  | .supervisor => inferInstanceAs (Decidable ((supervisorMember g).Rejects setting lexemes))

end MemberBody

namespace Parser

theorem itemKind_eq_decl {body : MemberBody} (h : s.kind = .keyword body.keyword) :
    itemKind g setting s = body.decl g setting s := by
  unfold itemKind
  rw [kind_bind, h]
  cases body <;> rfl

theorem memberBody?_of_typeDecl {kind : ItemKind} (h : typeDecl g setting s = .ok kind after) :
    kind.memberBody? = none := by
  unfold typeDecl at h
  obtain ⟨_, t, -, h⟩ := bind_eq_ok_iff.1 h
  obtain ⟨isStruct, t, -, h⟩ := bind_eq_ok_iff.1 h
  split at h
  · obtain ⟨decl, _, -, h⟩ := bind_eq_ok_iff.1 h
    obtain ⟨rfl, -⟩ := Reply.ok.inj h
    rfl
  · obtain ⟨name, t, -, h⟩ := bind_eq_ok_iff.1 h
    obtain ⟨typeParams, t, -, h⟩ := bind_eq_ok_iff.1 h
    obtain ⟨found, t, -, h⟩ := bind_eq_ok_iff.1 h
    split at h
    · obtain ⟨type, t, -, h⟩ := bind_eq_ok_iff.1 h
      obtain ⟨_, t, -, h⟩ := bind_eq_ok_iff.1 h
      obtain ⟨rfl, -⟩ := Reply.ok.inj h
      rfl
    · cases h

/-- The keyword behind the visibility tells which body a declaration has. -/
theorem memberBody?_eq_some_iff {body : MemberBody} {kind : ItemKind}
    (hreply : itemKind g setting s = .ok kind after) :
    kind.memberBody? = some body ↔ s.kind = .keyword body.keyword := by
  have hmade {α : Type} {p : Parser α} {make : α → ItemKind} {body' : Option MemberBody}
      (h : (do pure (make (← p)) : Parser ItemKind) setting s = .ok kind after)
      (hmake : ∀ a, (make a).memberBody? = body') : kind.memberBody? = body' := by
    obtain ⟨a, t, -, h⟩ := bind_eq_ok_iff.1 h
    obtain ⟨rfl, -⟩ := Reply.ok.inj h
    exact hmake a
  constructor
  case mp =>
    intro hbody
    unfold itemKind at hreply
    rw [kind_bind] at hreply
    revert hreply
    generalize s.kind = k
    split
    case h_3 => exact fun h => absurd ((memberBody?_of_typeDecl h).symm.trans hbody) nofun
    case h_15 => exact nofun
    all_goals
      intro h
      cases (hmade h fun _ => rfl).symm.trans hbody
    all_goals rfl
  case mpr =>
    intro hkind
    rw [itemKind_eq_decl hkind] at hreply
    cases body <;> exact hmade hreply fun _ => rfl

/-! ## A head and its members -/

instance : LawfulMonad Parser :=
  LawfulMonad.mk' Parser
    (fun p => by
      funext setting s
      change bind p (fun a => pure a) setting s = p setting s
      unfold bind
      cases p setting s <;> rfl)
    (fun _ _ => rfl)
    (fun p _ _ => by
      funext setting s
      change bind (bind p _) _ setting s = bind p _ setting s
      unfold bind
      cases p setting s <;> rfl)

/-- A declaration is a head up to the opening brace, and members, each added to what was there
before. -/
structure ReadsMembers [Relabeled σ] (L : Likeness) (p : Parser ItemKind) (head : Parser τ)
    (part : σ → Parser σ) (empty : σ) (make : τ → σ → ItemKind) : Prop where
  eq : p = do
    let front ← head
    let found ← membersIn part empty
    pure (make front found)
  head : ∀ k, head.Heedless k
  consumes : ∀ found, (part found).Consumes true
  part : ∀ found found', Like L found found' →
    Alike L true true none .unread .finished (Like L) (part found) (part found')
  make : ∀ front found found', Like L found found' → Like L (make front found) (make front found')

/-- A list of members, the last one first. -/
def addMember (member : Parser α) (found : List α) : Parser (List α) := do
  let next ← member
  pure (next :: found)

theorem alike_addMember [Relabeled α] {member : Parser α} {found found' : List α}
    (h : Alike L true true none .unread .finished (Like L) member member) (hfound : Like L found found') :
    Alike L true true none .unread .finished (Like L) (addMember member found)
      (addMember member found') :=
  .map h fun next next' hnext => by simp_all

theorem like_reverse [Relabeled α] {found found' : List α} (h : Like L found found') :
    relabel L.relabeling found.reverse = relabel L.relabeling found'.reverse := by
  rw [relabel_reverse, relabel_reverse, show relabel L.relabeling found = _ from h]

theorem readsMembers_trait (hg : g.Alike L g) (hheads : g.Heedless) :
    ReadsMembers L (MemberBody.trait.decl g)
      (do
        expectKeyword .traitKw
        let name ← name
        let typeParams ← typeParams g
        let supertraits ← boundsAfterColon g
        let whereClause ← whereClause g
        pure (name, typeParams, supertraits, whereClause))
      (addMember (traitItem g)) []
      (fun (name, typeParams, supertraits, whereClause) found =>
        .trait ⟨name, typeParams, supertraits, whereClause, found.reverse⟩) where
  eq := by simp only [MemberBody.decl, traitDecl, members, bind_assoc, pure_bind]; rfl
  head k := by
    refine .bind (.require rfl _) fun _ _ => ?_
    refine .bind .name fun _ _ => ?_
    refine .bind (heedless_typeParams hheads) fun _ _ => ?_
    refine .bind (heedless_boundsAfterColon hheads) fun _ _ => ?_
    exact .bind (heedless_whereClause hheads) fun _ _ => .value _
  consumes := consumes_found (consumes_traitItem hg.left)
  part _ _ := alike_addMember ((alike_traitItem hg rfl).ends_le (by decide))
  make _ _ _ h := congrArg (fun items => ItemKind.trait ⟨_, _, _, _, items⟩) (like_reverse h)

theorem readsMembers_impl (hg : g.Alike L g) (hheads : g.Heedless) :
    ReadsMembers L (MemberBody.impl.decl g)
      (do
        expectKeyword .implKw
        let typeParams ← typeParams g
        let (traitRef, selfType) ← implHead g
        let whereClause ← whereClause g
        pure (typeParams, traitRef, selfType, whereClause))
      (addMember (implItem g)) []
      (fun (typeParams, traitRef, selfType, whereClause) found =>
        .impl ⟨typeParams, traitRef, selfType, whereClause, found.reverse⟩) where
  eq := by simp only [MemberBody.decl, implDecl, members, bind_assoc, pure_bind]; rfl
  head k := by
    refine .bind (.require rfl _) fun _ _ => ?_
    refine .bind (heedless_typeParams hheads) fun _ _ => ?_
    refine .bind (heedless_implHead hheads) fun _ _ => ?_
    exact .bind (heedless_whereClause hheads) fun _ _ => .value _
  consumes := consumes_found (consumes_implItem hg.left)
  part _ _ := alike_addMember ((alike_implItem hg rfl).ends_le (by decide))
  make _ _ _ h := congrArg (fun items => ItemKind.impl ⟨_, _, _, _, items⟩) (like_reverse h)

theorem readsMembers_external (hg : g.Alike L g) :
    ReadsMembers L (MemberBody.external.decl g)
      (do
        expectKeyword .externKw
        string)
      (addMember (externFn g)) []
      (fun abi found => .externBlock ⟨abi, found.reverse⟩) where
  eq := by simp only [MemberBody.decl, externBlock, members, bind_assoc, pure_bind]; rfl
  head k := .bind (.require rfl _) fun _ _ => .valueOf rfl _
  consumes := consumes_found (consumes_externFn hg.left.type.louder)
  part _ _ := alike_addMember ((alike_externFn hg rfl).ends_le (by decide))
  make _ _ _ h := congrArg (fun fns => ItemKind.externBlock ⟨_, fns⟩) (like_reverse h)

theorem readsMembers_actor (hg : g.Alike L g) (hheads : g.Heedless) :
    ReadsMembers L (MemberBody.actor.decl g)
      (do
        expectKeyword .actorKw
        let name ← name
        let typeParams ← typeParams g
        let bounds ← boundsAfterColon g
        let whereClause ← whereClause g
        pure (name, typeParams, bounds, whereClause))
      (actorPart g) (none, [])
      (fun (name, typeParams, bounds, whereClause) (init, members) =>
        .actor ⟨name, typeParams, bounds, whereClause, init, members.reverse⟩) where
  eq := by simp only [MemberBody.decl, actorDecl, bind_assoc, pure_bind]
  head k := by
    refine .bind (.require rfl _) fun _ _ => ?_
    refine .bind .name fun _ _ => ?_
    refine .bind (heedless_typeParams hheads) fun _ _ => ?_
    refine .bind (heedless_boundsAfterColon hheads) fun _ _ => ?_
    exact .bind (heedless_whereClause hheads) fun _ _ => .value _
  consumes := consumes_actorPart hg.left
  part _ _ h := (alike_actorPart hg h rfl).ends_le (by decide)
  make front found found' h := by
    obtain ⟨name, typeParams, bounds, whereClause⟩ := front
    obtain ⟨init, members⟩ := found
    obtain ⟨init', members'⟩ := found'
    have hreverse := relabel_reverse L.relabeling members
    simp_all [relabel]

theorem readsMembers_supervisor (hg : g.Alike L g) :
    ReadsMembers L (MemberBody.supervisor.decl g)
      (do
        expectKeyword .supervisorKw
        name)
      (addMember (supervisorMember g)) []
      (fun name found => .supervisor ⟨name, found.reverse⟩) where
  eq := by simp only [MemberBody.decl, supervisorDecl, members, bind_assoc, pure_bind]; rfl
  head k := .bind (.require rfl _) fun _ _ => .name
  consumes := consumes_found (consumes_supervisorMember hg.left)
  part _ _ := alike_addMember (alike_supervisorMember hg rfl)
  make _ _ _ h := congrArg (fun members => ItemKind.supervisor ⟨_, members⟩) (like_reverse h)

/-! ## A defect in a body -/

theorem membersIn_eq_ok_iff {part : σ → Parser σ} {empty found : σ} :
    membersIn part empty setting s = .ok found after ↔
      s.kind = .symbol .leftBrace ∧
        ∃ t, loop (turnUntil endsBody .members part) empty setting s.advance = .ok found t ∧
          t.kind = .symbol .rightBrace ∧ t.advance = after := by
  rw [membersIn]
  simp only [bind_eq_ok_iff, expect_eq_ok_iff]
  constructor
  · rintro ⟨_, _, ⟨hopening, rfl⟩, found', t, hfound, _, _, ⟨hclosing, rfl⟩, hdone⟩
    obtain ⟨rfl, rfl⟩ := Reply.ok.inj hdone
    exact ⟨hopening, t, hfound, hclosing, rfl⟩
  · rintro ⟨hopening, t, hfound, hclosing, rfl⟩
    exact ⟨(), _, ⟨hopening, rfl⟩, found, t, hfound, (), _, ⟨hclosing, rfl⟩, rfl⟩

section

variable [Relabeled σ] {p : Parser ItemKind} {head : Parser τ} {part : σ → Parser σ} {empty : σ}
  {make : τ → σ → ItemKind}

namespace ReadsMembers

theorem turnAlike (h : ReadsMembers L p head part empty make) :
    TurnAlike L endsBody .members .finished (Like L) part part where
  progresses := progresses fun found => follows_bodyTurn found (.inr rfl) h.consumes
  progresses' := progresses fun found => follows_bodyTurn found (.inr rfl) h.consumes
  part := h.part
  stop_eq _ _ _ := endsBody_eq

theorem eq_ok_iff (h : ReadsMembers L p head part empty make) {kind : ItemKind} :
    p setting s = .ok kind after ↔
      ∃ front v found t, head setting s = .ok front v ∧ v.kind = .symbol .leftBrace ∧
        loop (turnUntil endsBody .members part) empty setting v.advance = .ok found t ∧
        t.kind = .symbol .rightBrace ∧ t.advance = after ∧ kind = make front found := by
  rw [h.eq]
  simp only [bind_eq_ok_iff, membersIn_eq_ok_iff]
  constructor
  · rintro ⟨front, v, hfront, found, _, ⟨hopening, t, hfound, hclosing, rfl⟩, hdone⟩
    obtain ⟨rfl, rfl⟩ := Reply.ok.inj hdone
    exact ⟨front, v, found, t, hfront, hopening, hfound, hclosing, rfl, rfl⟩
  · rintro ⟨front, v, found, t, hfront, hopening, hfound, hclosing, rfl, rfl⟩
    exact ⟨front, v, hfront, found, _, ⟨hopening, t, hfound, hclosing, rfl⟩, rfl⟩

/-- A body that is read to its closing brace, the last token, without an error. -/
theorem ends_body (h : ReadsMembers L p head part empty make) {v t : State} {found : σ}
    {inner : List Lexeme} {closing : Lexeme}
    (hfound : loop (turnUntil endsBody .members part) empty setting v.advance = .ok found t)
    (hkind : t.kind = .symbol .rightBrace) (hrest : t.advance.rest = []) (hquiet : ¬ t.advance.Noted)
    (hinner : v.advance.rest = inner ++ [closing]) :
    t.rest = [closing] ∧ ¬ t.Noted ∧ ¬ v.Noted ∧ t.advance.context = v.advance.context := by
  have hkept : v.advance.Kept true t := by
    have hkept := (h.turnAlike.alike_loop (show Like L empty empty from rfl)).keepAlike.left setting
      v.advance
    rwa [hfound] at hkept
  have hbefore := @State.Kept.advance true v
  have hbehind := @State.Kept.advance true t
  refine ⟨State.rest_eq_of_last (hinner ▸ hkept.rest) (by simp [hkind]) hrest, fun hnoted => ?_,
    fun hnoted => ?_, hbehind.context.trans hkept.context⟩
  · exact hquiet (hnoted.kept hbehind)
  · exact hquiet (hnoted.kept ((hbefore.trans hkept).trans hbehind))

end ReadsMembers

end

end Parser

/-- Behind the brace two runs go on together up to where the inputs part. -/
theorem Fork.Before.together {fork : Fork} {s' : State} {before left right : List Lexeme}
    (h : fork.Before s s') (hspans : L.spans = false) (hkind : s.kind = .symbol .leftBrace)
    (hquiet : ¬ s.Noted) (hlast : ∀ last ∈ before.getLast?, last.token.kind = .symbol .semicolon)
    (hleft : fork.left = before ++ left) (hright : fork.right = before ++ right) :
    s.advance.Together L (.semicolon left right) fork.setting fork.setting' [] .finished none
      s'.advance := by
  obtain ⟨hrest, hrest'⟩ := h.rest_of_kind hkind
  have hadvance : s.advance.rest = before ++ left := by
    rw [State.rest_advance, hrest, ← hleft]
    rfl
  have hadvance' : s'.advance.rest = before ++ right := by
    rw [State.rest_advance, hrest', ← hright]
    rfl
  have hsame : s'.advance = { s.advance with rest := s'.advance.rest } := by
    rw [h.same, State.advance, State.advance, hrest, hrest']
  obtain ⟨herrors, hrunning⟩ : s.errors = [] ∧ s.halted = false := by
    simpa [State.Noted] using hquiet
  rw [hsame]
  exact
    { meet := State.meet_of_getLast rfl rfl hlast hadvance hadvance'
      context := rfl
      levels := Nat.le_of_eq (by rw [fork.limits])
      previousEnd := Likeness.sameOffset_of_not hspans _ _
      nextId := rfl
      errors_left := s.advance_errors.1.trans herrors
      running_left := s.advance_errors.2.trans hrunning
      errors_right := s.advance_errors.1.trans herrors
      running_right := s.advance_errors.2.trans hrunning }

namespace Parser

variable [Relabeled σ] {p : Parser ItemKind} {head : Parser τ} {part : σ → Parser σ} {empty : σ}
  {make : τ → σ → ItemKind} {limits : Limits} {endA endB stop : Span}
  {opening closing semi : Lexeme} {before ts behind : List Lexeme} {sA sB afterA afterB : State}
  {kindA kindB : ItemKind}

/-- A defect in the body of a declaration costs one error. -/
theorem ReadsMembers.one_error (h : ReadsMembers L p head part empty make) (hspans : L.spans = false)
    (hids : L.ids = false) (hlimit : 1 < limits.maxErrors)
    (hopening : opening.token.kind = .symbol .leftBrace)
    (hclosing : closing.token.kind = .symbol .rightBrace)
    (hsemi : semi.token.kind = .symbol .semicolon)
    (hlast : ∀ last ∈ before.getLast?, last.token.kind = .symbol .semicolon)
    (hdefect : Defect Keyword.startsMember ts)
    -- the members before the defect
    (hA : p ⟨limits, endA⟩ sA = .ok kindA afterA) (hrestA : afterA.rest = [])
    (hquietA : ¬ afterA.Noted) (hcontextA : afterA.context = .anything)
    -- the members before it and behind it
    (hB : p ⟨limits, endB⟩ sB = .ok kindB afterB) (hrestB : afterB.rest = [])
    (hquietB : ¬ afterB.Noted)
    (hforkB : Fork.Before ⟨opening, before ++ [closing], before ++ (behind ++ [closing]), ⟨limits, endA⟩,
      ⟨limits, endB⟩, hopening, rfl⟩ sA sB)
    (hfork : Fork.Before ⟨opening, before ++ [closing],
      before ++ (ts ++ semi :: (behind ++ [closing])), ⟨limits, endA⟩, ⟨limits, stop⟩, hopening, rfl⟩ sA s)
    (hfails : ∀ found t, t.rest = ts ++ semi :: (behind ++ [closing]) → t.errors = [] →
      t.context = .anything →
      (part found).FailsWithin Keyword.startsMember (behind ++ [closing]) ⟨limits, stop⟩ t) :
    ∃ e kind after, p ⟨limits, stop⟩ s = .ok kind after ∧ after.rest = [] ∧ after.errors = [e] ∧
      Like L kindB kind := by
  obtain ⟨front, vA, foundA, tA, hfrontA, hkind, hloopA, hclosedA, rfl, rfl⟩ := h.eq_ok_iff.1 hA
  obtain ⟨frontB, vB, foundB, tB, hfrontB, -, hloopB, hclosedB, rfl, rfl⟩ := h.eq_ok_iff.1 hB
  -- the head is the same in all three readings
  obtain ⟨vB', hfrontB', hvB⟩ := h.head _ _ sA sB rfl hforkB front vA hfrontA
  obtain ⟨v, hfront, hv⟩ := h.head _ _ sA s rfl hfork front vA hfrontA
  obtain ⟨rfl, rfl⟩ := Reply.ok.inj (hfrontB.symm.trans hfrontB')
  have hinnerA : vA.advance.rest = before ++ [closing] := by
    rw [State.rest_advance, (hvB.rest_of_kind hkind).1]
    rfl
  have hinnerB : vB.advance.rest = (before ++ behind) ++ [closing] := by
    rw [State.rest_advance, (hvB.rest_of_kind hkind).2, List.append_assoc]
    rfl
  obtain ⟨hendA, hquietTA, hquietVA, hcontextVA⟩ := h.ends_body hloopA hclosedA hrestA hquietA hinnerA
  obtain ⟨hendB, hquietTB, -⟩ := h.ends_body hloopB hclosedB hrestB hquietB hinnerB
  -- the bodies start behind the brace
  have hbodies := hvB.together hspans hkind hquietVA hlast rfl rfl
  have hbodies' := hv.together hspans hkind hquietVA hlast rfl rfl
  have hcontext : v.advance.context = .anything :=
    hbodies'.context.symm.trans (hcontextVA.symm.trans hcontextA)
  have hdepth : v.advance.depth = vB.advance.depth := by
    rw [(@State.Kept.advance true v).depth, (@State.Kept.advance true vB).depth, hv.same, hvB.same]
  have hlevels : limits.maxDepth + v.advance.depth ≤ limits.maxDepth + vB.advance.depth :=
    Nat.le_of_eq (congrArg _ hdepth)
  obtain ⟨e, found, t, hloop, ht, hfound⟩ := h.turnAlike.one_error Recovery.members_resumesBehind rfl
    hspans hids (fun _ => endsBody_of_rest hclosing) hloopA hquietTA hendA hloopB hquietTB
    (by rw [hclosedB]; rfl) hbodies hdefect hsemi hlimit (hbodies.context.symm.trans hbodies'.context)
    hlevels hbodies' fun found t hkept hrest herrors =>
      ⟨hdefect.not_endsBody hrest, hfails found t hrest herrors (hkept.context.trans hcontext)⟩
  obtain ⟨hclosed, hrest⟩ := ht.closed hendB hclosedB
  refine ⟨e, make frontB found, t.advance, h.eq_ok_iff.2 ?_, hrest,
    t.advance_errors.1.trans ht.errors_right, h.make frontB foundB found hfound⟩
  exact ⟨frontB, v, found, t, hfront, hv.kind_eq.symm.trans hkind, hloop, hclosed, rfl, rfl⟩

/-! ## Members that fail -/

/-- Behind the first token of a defect no parenthesis opens. -/
theorem Defect.peek_one {starts : Keyword → Bool} {rest : List Lexeme} (h : Defect starts ts)
    (hsemi : semi.token.kind = .symbol .semicolon) (hrest : s.rest = ts ++ semi :: rest) :
    (s.peek 1).isSymbol .leftParen = false := by
  obtain ⟨lexeme, ts, rfl⟩ := List.exists_cons_of_ne_nil h.ne_nil
  rw [← kind_advance, State.kind, State.rest_advance, hrest]
  cases ts with
  | nil =>
    change semi.token.kind.isSymbol .leftParen = false
    rw [hsemi]
    rfl
  | cons next ts =>
    change next.token.kind.isSymbol .leftParen = false
    have hflat := h.flat.tail.head
    rw [← Bool.not_eq_true]
    intro hparen
    rw [TokenKind.eq_of_isSymbol hparen] at hflat
    cases hflat

/-- Without a parenthesis behind it `init` opens no block of its own. -/
theorem actorPart_eq {found : Option ActorInit × List ActorMember}
    (h : (s.peek 1).isSymbol .leftParen = false) :
    actorPart g found setting s =
      (do
        let next ← actorMember g
        pure (found.1, next :: found.2)) setting s := by
  unfold actorPart
  rw [query_bind, h, Bool.and_false]
  rfl

theorem rejects_actorMember (hdefect : Defect Keyword.startsMember ts)
    (hsemi : semi.token.kind = .symbol .semicolon)
    (h : (actorPart g (none, [])).Rejects setting (ts ++ [semi])) :
    (actorMember g).Rejects setting (ts ++ [semi]) := by
  obtain ⟨e, after, hreply⟩ := h
  rw [actorPart_eq (hdefect.peek_one hsemi rfl)] at hreply
  cases hmember : actorMember g setting (.initial setting (ts ++ [semi])) with
  | ok next t =>
    rw [bind_ok hmember] at hreply
    cases hreply
  | fail e' after' => exact ⟨e', after', hmember⟩

/-- A defect in the body of a declaration costs one error, if it does not start with a keyword that only
members of other bodies start with. -/
theorem decl_one_error {body : MemberBody} {settingJ : Setting} (hg : g.Alike L g)
    (hheads : g.Heedless) (hspans : L.spans = false) (hids : L.ids = false)
    (hlimit : 1 < limits.maxErrors) (hopening : opening.token.kind = .symbol .leftBrace)
    (hclosing : closing.token.kind = .symbol .rightBrace)
    (hsemi : semi.token.kind = .symbol .semicolon)
    (hlast : ∀ last ∈ before.getLast?, last.token.kind = .symbol .semicolon)
    (hdefect : Defect Keyword.startsMember ts)
    (hown : ∀ first ∈ ts.head?, ∀ k, first.token.kind = .keyword k → k.startsMember = true →
      k ∈ body.keywords)
    (hlimits : settingJ.limits = limits) (hrejects : body.Rejects g settingJ (ts ++ [semi]))
    (hA : body.decl g ⟨limits, endA⟩ sA = .ok kindA afterA) (hrestA : afterA.rest = [])
    (hquietA : ¬ afterA.Noted) (hcontextA : afterA.context = .anything)
    (hB : body.decl g ⟨limits, endB⟩ sB = .ok kindB afterB) (hrestB : afterB.rest = [])
    (hquietB : ¬ afterB.Noted)
    (hforkB : Fork.Before ⟨opening, before ++ [closing], before ++ (behind ++ [closing]), ⟨limits, endA⟩,
      ⟨limits, endB⟩, hopening, rfl⟩ sA sB)
    (hfork : Fork.Before ⟨opening, before ++ [closing],
      before ++ (ts ++ semi :: (behind ++ [closing])), ⟨limits, endA⟩, ⟨limits, stop⟩, hopening, rfl⟩
      sA s) :
    ∃ e kind after, body.decl g ⟨limits, stop⟩ s = .ok kind after ∧ after.rest = [] ∧
      after.errors = [e] ∧ Like L kindB kind := by
  have hread {σ τ : Type} [Relabeled σ] {head : Parser τ} {part : σ → Parser σ} {empty : σ}
      {make : τ → σ → ItemKind} (h : ReadsMembers L (body.decl g) head part empty make) :=
    h.one_error hspans hids hlimit hopening hclosing hsemi hlast hdefect hA hrestA hquietA hcontextA hB
      hrestB hquietB hforkB hfork
  have hkeyword (t : State) (hrest : t.rest = ts ++ semi :: (behind ++ [closing])) (k : Keyword)
      (hk : k.startsMember = true) (hkind : t.kind = .keyword k) : k ∈ body.keywords := by
    obtain ⟨first, more, rfl⟩ := List.exists_cons_of_ne_nil hdefect.ne_nil
    rw [State.kind, hrest] at hkind
    exact hown first rfl k hkind hk
  have hfails {α : Type} {R : α → α → Prop} {χ : Footing} {member : Parser α}
      (h : Alike L true false none .unread χ R member member)
      (hrejects : member.Rejects settingJ (ts ++ [semi])) (t : State)
      (hrest : t.rest = ts ++ semi :: (behind ++ [closing])) (herrors : t.errors = [])
      (hcontext : t.context = .anything)
      (htaken : ∀ k ∈ body.keywords, k.startsMember = true → t.kind = .keyword k →
        member.Overlooks ⟨limits, stop⟩ t) :
      member.FailsWithin Keyword.startsMember (behind ++ [closing]) ⟨limits, stop⟩ t := by
    obtain ⟨e', after', hreply⟩ := hrejects
    refine h.failsWithin hspans hids hdefect hsemi hreply ?_ hrest hcontext herrors fun k hk hkind =>
      htaken k (hkeyword t hrest k hk hkind) hk hkind
    rw [hlimits]
    exact Nat.le_add_right _ _
  cases body with
  | trait =>
    refine hread (readsMembers_trait hg hheads) fun found t hrest herrors hcontext => ?_
    refine (hfails (alike_traitItem hg rfl) hrejects t hrest herrors hcontext ?_).bind
    exact fun k hk _ hkind => overlooks_traitItem (by simpa [MemberBody.keywords] using hk) hkind
  | impl =>
    refine hread (readsMembers_impl hg hheads) fun found t hrest herrors hcontext => ?_
    refine (hfails (alike_implItem hg rfl) hrejects t hrest herrors hcontext ?_).bind
    exact fun k hk _ hkind => overlooks_implItem (by simpa [MemberBody.keywords] using hk) hkind
  | external =>
    refine hread (readsMembers_external hg) fun found t hrest herrors hcontext => ?_
    refine (hfails (alike_externFn hg rfl) hrejects t hrest herrors hcontext fun k hk _ hkind => ?_).bind
    obtain rfl : k = .fnKw := by simpa [MemberBody.keywords] using hk
    exact overlooks_externFn hkind
  | actor =>
    refine hread (readsMembers_actor hg hheads) fun found t hrest herrors hcontext => ?_
    have hmember := rejects_actorMember hdefect hsemi hrejects
    have hfailed := hfails (alike_actorMember hg rfl) hmember t hrest herrors hcontext
      fun k hk hstarts hkind => overlooks_actorMember hstarts (by rintro rfl; exact absurd hk (by decide))
        hkind
    exact hfailed.bind.congr (actorPart_eq (hdefect.peek_one hsemi hrest))
  | supervisor =>
    refine hread (readsMembers_supervisor hg) fun found t hrest herrors hcontext => ?_
    exact (hfails (alike_supervisorMember hg rfl) hrejects t hrest herrors hcontext
      fun _ hk => absurd hk List.not_mem_nil).bind

theorem item_eq_ok_iff {i : Item} :
    item g setting s = .ok i after ↔
      ∃ vis t kind u, visibility setting s = .ok vis t ∧ itemKind g setting t = .ok kind u ∧
        i = ⟨u.nextId, vis, kind, ⟨(s.span setting).start,
          max u.previousEnd (s.span setting).start⟩⟩ ∧
        after = { u with nextId := u.nextId + 1 } := by
  rw [item, start_bind]
  simp only [bind_eq_ok_iff]
  constructor
  · rintro ⟨vis, t, hvis, kind, u, hkind, hnode⟩
    obtain ⟨rfl, rfl⟩ := Reply.ok.inj hnode
    exact ⟨vis, t, kind, u, hvis, hkind, rfl, rfl⟩
  · rintro ⟨vis, t, kind, u, hvis, hkind, rfl, rfl⟩
    exact ⟨vis, t, hvis, kind, u, hkind, rfl⟩

/-- A declaration that is read to the end without an error: nothing is noted, and the context is what it
was. -/
theorem quiet_of_item {levels : Nat} {lexemes : List Lexeme} {i : Item}
    (hreply : item (.within levels) setting (.initial setting lexemes) = .ok i after)
    (herrors : after.errors = []) : ¬ after.Noted ∧ after.context = .anything := by
  have hitem : Alike (⟨true, true, true⟩ : Likeness) true true none .unread .closed (Like _)
      (item (.within levels)) (item (.within levels)) := alike_item (Rules.alike_within levels)
  have hkept := hitem.keepAlike.left setting (.initial setting lexemes)
  rw [hreply] at hkept
  refine ⟨?_, hkept.context⟩
  rintro (hnoted | hnoted)
  · exact hnoted herrors
  · exact Bool.false_ne_true ((hkept.unspent herrors).symm.trans hnoted)

/-- A defect in the body of a declaration costs one error. -/
theorem item_one_error {levels : Nat} {endJ : Span} {head before ts behind : List Lexeme}
    {body : MemberBody} {itemA itemB : Item} (hlimit : 1 < limits.maxErrors)
    (hopening : opening.token.kind = .symbol .leftBrace)
    (hclosing : closing.token.kind = .symbol .rightBrace)
    (hsemi : semi.token.kind = .symbol .semicolon)
    (hhead : ∀ lexeme ∈ head, lexeme.token.kind ≠ .symbol .leftBrace)
    (hlast : ∀ last ∈ before.getLast?, last.token.kind = .symbol .semicolon)
    (hbefore : (item (.within levels)).ReadsAll ⟨limits, endA⟩
      (head ++ opening :: (before ++ [closing])) itemA [])
    (hboth : (item (.within levels)).ReadsAll ⟨limits, endB⟩
      (head ++ opening :: (before ++ (behind ++ [closing]))) itemB [])
    (hbody : itemB.kind.memberBody? = some body) (hdefect : Defect Keyword.startsMember ts)
    (hown : ∀ first ∈ ts.head?, ∀ k, first.token.kind = .keyword k → k.startsMember = true →
      k ∈ body.keywords)
    (hrejects : body.Rejects (.within levels) ⟨limits, endJ⟩ (ts ++ [semi])) :
    ∃ e whole, (item (.within levels)).ReadsAll ⟨limits, stop⟩
        (head ++ opening :: (before ++ (ts ++ semi :: (behind ++ [closing])))) whole [e] ∧
      relabel .bare whole = relabel .bare itemB := by
  obtain ⟨afterA, hreplyA, hrestA, herrorsA⟩ := hbefore
  obtain ⟨afterB, hreplyB, hrestB, herrorsB⟩ := hboth
  obtain ⟨hquietA, hcontextA⟩ := quiet_of_item hreplyA herrorsA
  obtain ⟨hquietB, -⟩ := quiet_of_item hreplyB herrorsB
  obtain ⟨vis, tA, kindA, uA, hvisA, hkindA, rfl, rfl⟩ := item_eq_ok_iff.1 hreplyA
  obtain ⟨visB, tB, kindB, uB, hvisB, hkindB, rfl, rfl⟩ := item_eq_ok_iff.1 hreplyB
  -- the visibility is the same in all three readings
  let forkB : Fork := ⟨opening, before ++ [closing], before ++ (behind ++ [closing]), ⟨limits, endA⟩,
    ⟨limits, endB⟩, hopening, rfl⟩
  let fork : Fork := ⟨opening, before ++ [closing], before ++ (ts ++ semi :: (behind ++ [closing])),
    ⟨limits, endA⟩, ⟨limits, stop⟩, hopening, rfl⟩
  obtain ⟨tB', hvisB', htB⟩ := heedless_visibility forkB _ _ rfl (forkB.before_initial hhead) vis tA hvisA
  obtain ⟨t, hvis, ht⟩ := heedless_visibility fork _ _ rfl (fork.before_initial hhead) vis tA hvisA
  obtain ⟨rfl, rfl⟩ := Reply.ok.inj (hvisB.symm.trans hvisB')
  -- so is the keyword behind it
  have hkeywordB := (memberBody?_eq_some_iff hkindB).1 hbody
  have hkeywordA := htB.kind_eq.trans hkeywordB
  have hkeyword := ht.kind_eq.symm.trans hkeywordA
  rw [itemKind_eq_decl hkeywordA] at hkindA
  rw [itemKind_eq_decl hkeywordB] at hkindB
  obtain ⟨e, kind, u, hdecl, hrest, herrors, hlike⟩ := decl_one_error (L := ⟨false, false, false⟩)
    (Rules.alike_within levels) (Rules.heedless_within levels) rfl rfl hlimit hopening hclosing hsemi hlast
    hdefect hown rfl hrejects hkindA hrestA hquietA hcontextA hkindB hrestB hquietB htB ht
  refine ⟨e, _, ⟨_, item_eq_ok_iff.2 ⟨_, t, kind, u, hvis, (itemKind_eq_decl hkeyword).trans hdecl, rfl,
    rfl⟩, hrest, herrors⟩, ?_⟩
  exact congrArg (fun kind => Item.mk 0 _ kind (.empty 0)) hlike.symm

end Parser

/-! ## Under the standard limits -/

/-- One bad member costs one error and nothing else.  In the body of a trait, an implementation, an
`extern` block, an actor or a supervisor, between members that are read without an error, a run of tokens
on which the rule for the members fails and the semicolon behind it are passed over, at the cost of one
error; the declaration is the one with the members before the run and those behind it, up to places and
numbers.  In the run there are no brackets, no semicolon and no string with splices.  Only its first token
may be a keyword that a member starts with, and then it must be one that a member of this body may start
with. -/
theorem bad_member_costs_one_error (endA endB endJ stop : Span) (body : MemberBody)
    (opening closing semi : Lexeme) (head before ts behind : List Lexeme) (itemA itemB : Item)
    (hopening : opening.token.kind = .symbol .leftBrace)
    (hclosing : closing.token.kind = .symbol .rightBrace)
    (hsemi : semi.token.kind = .symbol .semicolon)
    (hhead : ∀ lexeme ∈ head, lexeme.token.kind ≠ .symbol .leftBrace)
    (hlast : ∀ last ∈ before.getLast?, last.token.kind = .symbol .semicolon)
    (hbefore : (item (.within Limits.standard.maxDepth)).ReadsAll ⟨.standard, endA⟩
      (head ++ opening :: (before ++ [closing])) itemA [])
    (hboth : (item (.within Limits.standard.maxDepth)).ReadsAll ⟨.standard, endB⟩
      (head ++ opening :: (before ++ (behind ++ [closing]))) itemB [])
    (hbody : itemB.kind.memberBody? = some body) (hdefect : Defect Keyword.startsMember ts)
    (hown : ∀ first ∈ ts.head?, ∀ k, first.token.kind = .keyword k → k.startsMember = true →
      k ∈ body.keywords)
    (hrejects : body.Rejects (.within Limits.standard.maxDepth) ⟨.standard, endJ⟩ (ts ++ [semi])) :
    ∃ e whole, (item (.within Limits.standard.maxDepth)).ReadsAll ⟨.standard, stop⟩
        (head ++ opening :: (before ++ (ts ++ semi :: (behind ++ [closing])))) whole [e] ∧
      relabel .bare whole = relabel .bare itemB :=
  item_one_error (by decide) hopening hclosing hsemi hhead hlast hbefore hboth hbody hdefect hown hrejects

/-- The trait `trait T { fn a(); fn 1; fn b(); }` has the methods `a` and `b`. -/
theorem bad_member_costs_one_error_fn :
    let token (kind : TokenKind) : Lexeme := ⟨⟨kind, "", ⟨0, 0⟩⟩, false⟩
    let head := [token (.keyword .traitKw), token (.ident "T")]
    let opening := token (.symbol .leftBrace)
    let closing := token (.symbol .rightBrace)
    let semi := token (.symbol .semicolon)
    let method (name : String) : List Lexeme :=
      [token (.keyword .fnKw), token (.ident name), token (.symbol .leftParen),
        token (.symbol .rightParen), semi]
    let ts := [token (.keyword .fnKw), token (.int 1)]
    ∃ itemB e whole,
      (item (.within 256)).ReadsAll ⟨.standard, ⟨0, 0⟩⟩
        (head ++ opening :: (method "a" ++ (method "b" ++ [closing]))) itemB [] ∧
      (item (.within 256)).ReadsAll ⟨.standard, ⟨0, 0⟩⟩
        (head ++ opening :: (method "a" ++ (ts ++ semi :: (method "b" ++ [closing])))) whole [e] ∧
      relabel .bare whole = relabel .bare itemB := by
  intro token head opening closing semi method ts
  obtain ⟨itemA, hA⟩ := readsClean_iff.1 (show (item (.within 256)).readsClean ⟨.standard, ⟨0, 0⟩⟩
    (head ++ opening :: (method "a" ++ [closing])) = true by decide +kernel)
  obtain ⟨itemB, hB⟩ := readsClean_iff.1 (show (item (.within 256)).readsClean ⟨.standard, ⟨0, 0⟩⟩
    (head ++ opening :: (method "a" ++ (method "b" ++ [closing]))) = true by decide +kernel)
  have hbody : itemB.kind.memberBody? = some .trait := by
    obtain ⟨after, hreply, -⟩ := hB
    obtain ⟨vis, t, kind, u, hvis, hkind, rfl, -⟩ := item_eq_ok_iff.1 hreply
    obtain ⟨-, rfl⟩ := Reply.ok.inj hvis
    exact (memberBody?_eq_some_iff hkind).2 rfl
  have hdefect : Defect Keyword.startsMember ts :=
    ⟨by simp [ts], by simp [Flat, ts, token, TokenKind.isFlat], by simp [Unkeyed, ts, token]⟩
  obtain ⟨e, whole, hwhole, hsame⟩ := bad_member_costs_one_error ⟨0, 0⟩ ⟨0, 0⟩ ⟨0, 0⟩ ⟨0, 0⟩ .trait opening
    closing semi head (method "a") ts (method "b") itemA itemB rfl rfl rfl
    (by simp [head, token]) (by simp [method, semi, token]) hA hB hbody hdefect
    (by simp [ts, token, MemberBody.keywords]) (by decide +kernel)
  exact ⟨itemB, e, whole, hB, hwhole, hsame⟩

/-- In the trait `trait T { let x; fn b(); }` the run `let x` costs two errors: `let` starts a member of an
actor, so the recovery stops before it, passes over it alone and takes `x` for a member. -/
theorem bad_member_costs_two_errors :
    let token (kind : TokenKind) : Lexeme := ⟨⟨kind, "", ⟨0, 0⟩⟩, false⟩
    let head := [token (.keyword .traitKw), token (.ident "T")]
    let opening := token (.symbol .leftBrace)
    let closing := token (.symbol .rightBrace)
    let semi := token (.symbol .semicolon)
    let method := [token (.keyword .fnKw), token (.ident "b"), token (.symbol .leftParen),
      token (.symbol .rightParen), semi]
    let ts := [token (.keyword .letKw), token (.ident "x")]
    (∃ itemA, (item (.within 256)).ReadsAll ⟨.standard, ⟨0, 0⟩⟩ (head ++ [opening, closing]) itemA []) ∧
      (∃ itemB, (item (.within 256)).ReadsAll ⟨.standard, ⟨0, 0⟩⟩
        (head ++ opening :: (method ++ [closing])) itemB []) ∧
      Defect Keyword.startsMember ts ∧
      MemberBody.trait.Rejects (.within 256) ⟨.standard, ⟨0, 0⟩⟩ (ts ++ [semi]) ∧
      ∀ e whole, ¬ (item (.within 256)).ReadsAll ⟨.standard, ⟨0, 0⟩⟩
        (head ++ opening :: (ts ++ semi :: (method ++ [closing]))) whole [e] := by
  intro token head opening closing semi method ts
  refine ⟨readsClean_iff.1 (by decide +kernel), readsClean_iff.1 (by decide +kernel),
    ⟨by simp [ts], by simp [Flat, ts, token, TokenKind.isFlat], by simp [Unkeyed, ts, token]⟩,
    by decide +kernel, ?_⟩
  have htwo : (item (.within 256) ⟨.standard, ⟨0, 0⟩⟩ (.initial ⟨.standard, ⟨0, 0⟩⟩
      (head ++ opening :: (ts ++ semi :: (method ++ [closing]))))).state.errors.length = 2 := by
    decide +kernel
  rintro e whole ⟨after, hreply, -, herrors⟩
  simp only [hreply, Reply.state, herrors, List.length_singleton] at htwo
  cases htwo

end ActorFrontend
