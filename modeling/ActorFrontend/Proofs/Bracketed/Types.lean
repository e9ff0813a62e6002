import ActorFrontend.Proofs.Bracketed.Confined

/-!
# Types and patterns before a closing parenthesis

No argument ends in a type or a pattern, so these are compared only where they stop before the inputs
part.
-/

namespace ActorFrontend

open ActorFrontend.Parser

/-- Readings that go on in both of two inputs as long as these are the same. -/
structure Rules.Carry (g : Rules) : Prop where
  alike : Rules.Alike (⟨true, true, true⟩ : Likeness) g g
  confined : ∀ k, g.type.Confined k
  type : ∀ k, g.type.Carries k false
  pattern : ∀ k, g.pattern.Carries k false
  expr : ∀ minPower k, (g.expr minPower).Carries k true
  block : ∀ k, g.block.Carries k true
  blockLike : ∀ k, g.blockLike.Carries k true
  expr_starved : ∀ minPower, (g.expr minPower).Starved
  block_starved : g.block.Starved

theorem Rules.Carry.follow {g : Rules} (hg : g.Carry) : g.Follow := hg.alike.left

variable {k : TokenKind} {final : Bool} {g : Rules}

namespace Parser

/-! ## Types -/

theorem carries_pathTurn : pathTurn.Carries k final := by
  refine .query (fun parting s s' _ hs hstays => ?_) fun found => ?_
  · have hsymbol : s.kind.isSymbol .colonColon = s'.kind.isSymbol .colonColon :=
      hs.test_eq (f := (·.isSymbol .colonColon)) hstays fun _ => rfl
    rw [← hsymbol]
    cases hcolons : s.kind.isSymbol .colonColon with
    | false => rfl
    | true =>
      have hkind := TokenKind.eq_of_isSymbol hcolons
      have hinside := hs.stays_of_kind (by simp [hkind]) (by simp [hkind])
      rw [← kind_advance, ← kind_advance, hs.next_eq (f := TokenKind.isName) hinside rfl]
  · split
    · refine .close (.advance nofun) (fun _ k => ?_) fun _ => ?_
      · exact .bind .name fun part _ => .value _
      · exact .bind (.valueOf rfl _) fun part => .pure _
    · exact .value _

theorem carries_path : path.Carries k final := by
  refine .bind .name fun first k => ?_
  exact .bind (.collect (@follows_pathTurn false) fun k => carries_pathTurn) fun more _ => .value _

section

variable (hg : g.Carry)
include hg

theorem carries_typeArgs : (typeArgs g).Carries k false :=
  .listIf (.acceptIf nofun) fun _ => .commaList hg.follow.type.mayConsume hg.type

theorem carries_bound : (bound g).Carries k false := by
  refine .start fun start => .bind carries_path fun path _ => ?_
  exact .bind (carries_typeArgs hg) fun args _ => .part start _

theorem carries_bounds : (bounds g).Carries k false := by
  refine .bind (carries_bound hg) fun first k => ?_
  refine .bind (.collect (follows_boundTurn hg.follow.type) fun k => ?_) fun more _ => .value _
  refine .bind (.acceptIf nofun) fun found k => ?_
  split
  · exact .bind (carries_bound hg) fun next _ => .value _
  · exact .value _

theorem carries_typeAfterColon : (typeAfterColon g).Carries k false :=
  .optional (.acceptIf nofun) hg.type

theorem carries_resultType : (resultType g).Carries k false := .optional (.acceptIf nofun) hg.type

theorem carries_parenType (start : Nat) : (parenType g start).Carries k false := by
  refine .bind (.advance nofun) fun _ k => .bind (.acceptIf nofun) fun empty k => ?_
  split
  · exact .node start _
  · refine .bind (hg.type k) fun first k => .bind (.acceptIf nofun) fun several k => ?_
    split
    · refine .bind (.commaList hg.follow.type.mayConsume hg.type) fun more k => ?_
      exact .node start _
    · exact .bind (.expect _) fun _ _ => .value first

theorem carries_bracketType : (bracketType g).Carries k false := by
  refine .bind (.advance nofun) fun _ k => .bind (hg.type k) fun elem k => ?_
  refine .bind (.optional (.acceptIf nofun) fun _ => .integer) fun length k => ?_
  refine .bind (.expect _) fun _ _ => ?_
  split
  · exact .value _
  · exact .value _

theorem carries_functionType : (functionType g).Carries k false := by
  refine .bind (.advance nofun) fun _ k => .bind (.expect _) fun _ k => ?_
  refine .bind (.commaList hg.follow.type.mayConsume hg.type) fun params k => ?_
  exact .bind (carries_resultType hg) fun ret _ => .value _

theorem carries_pointerType : (pointerType g).Carries k false := by
  have hpointee (mutability : Option PointerMutability) (k : TokenKind) :
      (do pure (.pointer mutability (← g.type)) : Parser TypeKind).Carries k false :=
    .bind (hg.type k) fun type _ => .value _
  refine .bind (.advance nofun) fun _ k => .bind (.acceptIf nofun) fun isConst k => ?_
  split
  · exact hpointee _ k
  · refine .bind (.acceptIf nofun) fun isMut k => ?_
    split
    · exact hpointee _ k
    · exact hpointee _ k

theorem carries_traitObjectType : (traitObjectType g).Carries k false := by
  refine .bind (.advance nofun) fun _ k => .bind (.acceptIf nofun) fun grouped k => ?_
  split
  · refine .bind (carries_bounds hg) fun bounds k => ?_
    exact .bind (.expect _) fun _ _ => .value _
  · exact .bind (carries_bound hg) fun only _ => .value _

theorem carries_namedType : (namedType g).Carries k false := by
  refine .bind carries_path fun path k => ?_
  exact .bind (carries_typeArgs hg) fun args _ => .value _

theorem carries_typeRule : (typeRule g).Carries k false := by
  have hfinish (start : Nat) {k : TokenKind} {kind : Parser TypeKind} (h : kind.Carries k false) :
      (do
        let kind ← kind
        node start fun id span => (⟨id, span, kind⟩ : TypeExpr)).Carries k false :=
    .bind h fun kind _ => .node start _
  refine .start fun start => .kind nofun fun k => ?_
  split
  · exact hfinish start (carries_namedType hg)
  · exact carries_parenType hg start
  · exact hfinish start (carries_bracketType hg)
  · exact hfinish start (carries_functionType hg)
  · exact hfinish start (carries_pointerType hg)
  · exact hfinish start (carries_traitObjectType hg)
  · exact .expected _

end

/-! ## Patterns -/

theorem carries_literalNode : literalNode.Carries k false :=
  .start fun start => .bind (.valueOf rfl _) fun _ _ => .node start _

section

variable (hg : g.Carry)
include hg

theorem carries_fieldPattern : (fieldPattern g).Carries k false := by
  refine .start fun start => .bind .name fun name k => ?_
  exact .bind (.optional (.acceptIf nofun) hg.pattern) fun pattern _ => .part start _

theorem carries_pathPattern : (pathPattern g).Carries k false := by
  refine .bind carries_path fun path k => .bind (.acceptIf nofun) fun called k => ?_
  split
  · exact .bind (.commaList hg.follow.pattern.mayConsume hg.pattern) fun args _ => .value _
  · refine .test (f := (·.isSymbol .leftBrace)) nofun fun braced => ?_
    split
    · refine .bind (.expect _) fun _ k => ?_
      exact .bind (.commaList (consumes_fieldPattern hg.follow.pattern).mayConsume fun _ =>
        carries_fieldPattern hg) fun fields _ => .value _
    · split
      · exact .value _
      · exact .value _

theorem carries_parenPattern (start : Nat) : (parenPattern g start).Carries k false := by
  refine .bind (.advance nofun) fun _ k => .bind (.acceptIf nofun) fun empty k => ?_
  split
  · exact .node start _
  · refine .bind (hg.pattern k) fun first k => .bind (.acceptIf nofun) fun several k => ?_
    split
    · refine .bind (.commaList hg.follow.pattern.mayConsume hg.pattern) fun more k => ?_
      exact .node start _
    · exact .bind (.expect _) fun _ _ => .value first

omit hg in
theorem carries_negatedPattern (start : Nat) : (negatedPattern start).Carries k false :=
  .bind (.advance nofun) fun _ _ => .bind carries_literalNode fun _ _ => .node start _

theorem carries_singlePattern : (singlePattern g).Carries k false := by
  have hfinish (start : Nat) {k : TokenKind} {kind : Parser PatternKind} (h : kind.Carries k false) :
      (do
        let kind ← kind
        node start fun id span => (⟨id, span, kind⟩ : Pattern)).Carries k false :=
    .bind h fun kind _ => .node start _
  have hliteral {k : TokenKind} :
      (do pure (.literal (← literalNode)) : Parser PatternKind).Carries k false :=
    .bind carries_literalNode fun literal _ => .value _
  refine .start fun start => .kind nofun fun k => ?_
  split
  case h_1 => exact hfinish start (.bind (.advance nofun) fun _ _ => .value _)
  case h_2 => exact hfinish start (carries_pathPattern hg)
  case h_8 =>
    refine .query (fun parting s s' _ hs hstays => ?_) fun number => ?_
    · rw [← kind_advance, ← kind_advance, hs.next_eq (f := isNumber) hstays rfl]
    · split
      · exact hfinish start (carries_negatedPattern start)
      · exact .expected _
  case h_9 => exact carries_parenPattern hg start
  case h_10 => exact .expected _
  -- literals
  all_goals exact hfinish start hliteral

theorem carries_patternRule : (patternRule g).Carries k false := by
  refine .start fun start => .bind (carries_singlePattern hg) fun first k => ?_
  refine .test (f := (·.isSymbol .pipe)) nofun fun several => ?_
  split
  · refine .bind (.collect (follows_alternativeTurn hg.follow.pattern) fun k => ?_) fun more k => ?_
    · refine .bind (.acceptIf nofun) fun found k => ?_
      split
      · exact .bind (carries_singlePattern hg) fun next _ => .value _
      · exact .value _
    · exact .node start _
  · exact .value first

end

end Parser

end ActorFrontend
