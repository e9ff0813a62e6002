import ActorFrontend.Proofs.Bracketed.Statements
import ActorFrontend.Proofs.Indices.Combinators

/-!
# Types and patterns before the ways part

No type and no pattern goes on behind a dot, so each of them stops before the ways part.
-/

namespace ActorFrontend

open ActorFrontend.Parser

/-- Readings that go on in both of two inputs, or meet again in them. -/
structure Rules.Rejoin (g : Rules) : Prop where
  carry : g.Carry
  type : ∀ k, g.type.Rejoins k
  pattern : ∀ k, g.pattern.Rejoins k
  expr : ∀ minPower k, (g.expr minPower).Rejoins k
  block : ∀ k, g.block.Rejoins k
  blockLike : ∀ k, g.blockLike.Rejoins k

theorem Rules.Rejoin.follow {g : Rules} (hg : g.Rejoin) : g.Follow := hg.carry.follow

variable {k : TokenKind} {g : Rules}

/-- No number is a name. -/
theorem TokenKind.isName_of_isNumber (h : Parser.isNumber k = true) : k.isName = false := by
  cases k <;> first | rfl | cases h

theorem TokenKind.isWord_of_isNumber (word : String) (h : Parser.isNumber k = true) :
    k.isWord word = false := by
  cases k <;> first | rfl | cases h

namespace Parser

/-! ## Types -/

theorem rejoins_pathTurn : pathTurn.Rejoins k := by
  refine .look (fun d s s' hs => ?_) fun s => ?_
  · rw [← hs.kind_eq, ← kind_advance, ← kind_advance,
      hs.next_eq (f := TokenKind.isName) fun _ => TokenKind.isName_of_isNumber]
  · split
    case isTrue hcolons =>
      have hkind := TokenKind.eq_of_isSymbol (Bool.and_eq_true_iff.1 hcolons).1
      exact .bind (.advance (by simp [hkind])) fun _ _ => .bind .name fun part _ => .value _
    case isFalse => exact .value _

theorem rejoins_path : path.Rejoins k := by
  refine .bind .name fun first k => ?_
  exact .bind (.collect (@follows_pathTurn false) fun k => rejoins_pathTurn) fun more _ => .value _

section

variable (hg : g.Rejoin)
include hg

theorem rejoins_typeList {close : Symbol} (hclose : close ≠ .dot) : (commaList close g.type).Rejoins k :=
  .commaList hg.follow.type.mayConsume hclose hg.type

theorem rejoins_typeArgs : (typeArgs g).Rejoins k :=
  .listIf (.acceptIf rfl) fun _ => rejoins_typeList hg nofun

theorem rejoins_bound : (bound g).Rejoins k := by
  refine .start fun start => .bind rejoins_path fun path _ => ?_
  exact .bind (rejoins_typeArgs hg) fun args _ => .part start _

theorem rejoins_bounds : (bounds g).Rejoins k := by
  refine .bind (rejoins_bound hg) fun first k => ?_
  refine .bind (.collect (follows_boundTurn hg.follow.type) fun k => ?_) fun more _ => .value _
  refine .bind (.acceptIf rfl) fun found k => ?_
  split
  · exact .bind (rejoins_bound hg) fun next _ => .value _
  · exact .value _

theorem rejoins_typeAfterColon : (typeAfterColon g).Rejoins k := .optional (.acceptIf rfl) hg.type

theorem rejoins_resultType : (resultType g).Rejoins k := .optional (.acceptIf rfl) hg.type

theorem rejoins_parenType (start : Nat) : (parenType g start).Rejoins (.symbol .leftParen) := by
  refine .bind (.advance nofun) fun _ k => .bind (.acceptIf rfl) fun empty k => ?_
  split
  · exact .node start _
  · refine .bind (hg.type k) fun first k => .bind (.acceptIf rfl) fun several k => ?_
    split
    · exact .bind (rejoins_typeList hg nofun) fun more k => .node start _
    · exact .bind (.expect nofun) fun _ _ => .value first

theorem rejoins_bracketType : (bracketType g).Rejoins (.symbol .leftBracket) := by
  refine .bind (.advance nofun) fun _ k => .bind (hg.type k) fun elem k => ?_
  refine .bind (.optional (.acceptIf rfl) fun _ => .valueOf rfl _) fun length k => ?_
  refine .bind (.expect nofun) fun _ _ => ?_
  split
  · exact .value _
  · exact .value _

theorem rejoins_functionType : (functionType g).Rejoins (.keyword .fnKw) := by
  refine .bind (.advance nofun) fun _ k => .bind (.expect nofun) fun _ k => ?_
  refine .bind (rejoins_typeList hg nofun) fun params k => ?_
  exact .bind (rejoins_resultType hg) fun ret _ => .value _

theorem rejoins_pointerType : (pointerType g).Rejoins (.symbol .star) := by
  have hpointee (mutability : Option PointerMutability) (k : TokenKind) :
      (do pure (.pointer mutability (← g.type)) : Parser TypeKind).Rejoins k :=
    .bind (hg.type k) fun type _ => .value _
  refine .bind (.advance nofun) fun _ k => .bind (.acceptIf rfl) fun isConst k => ?_
  split
  · exact hpointee _ k
  · refine .bind (.acceptIf rfl) fun isMut k => ?_
    split
    · exact hpointee _ k
    · exact hpointee _ k

theorem rejoins_traitObjectType : (traitObjectType g).Rejoins (.keyword .dynKw) := by
  refine .bind (.advance nofun) fun _ k => .bind (.acceptIf rfl) fun grouped k => ?_
  split
  · refine .bind (rejoins_bounds hg) fun bounds k => ?_
    exact .bind (.expect nofun) fun _ _ => .value _
  · exact .bind (rejoins_bound hg) fun only _ => .value _

theorem rejoins_namedType : (namedType g).Rejoins k := by
  refine .bind rejoins_path fun path k => ?_
  exact .bind (rejoins_typeArgs hg) fun args _ => .value _

theorem rejoins_typeRule : (typeRule g).Rejoins k := by
  have hfinish (start : Nat) {k : TokenKind} {kind : Parser TypeKind} (h : kind.Rejoins k) :
      (do
        let kind ← kind
        node start fun id span => (⟨id, span, kind⟩ : TypeExpr)).Rejoins k :=
    .bind h fun kind _ => .node start _
  refine .start fun start => .kind fun k => ?_
  split
  · exact hfinish start (rejoins_namedType hg)
  · exact rejoins_parenType hg start
  · exact hfinish start (rejoins_bracketType hg)
  · exact hfinish start (rejoins_functionType hg)
  · exact hfinish start (rejoins_pointerType hg)
  · exact hfinish start (rejoins_traitObjectType hg)
  · exact .expected _

end

/-! ## Patterns -/

theorem rejoins_literalNode : literalNode.Rejoins k :=
  .start fun start => .bind (.valueOf rfl _) fun _ _ => .node start _

section

variable (hg : g.Rejoin)
include hg

theorem rejoins_patternList {close : Symbol} (hclose : close ≠ .dot) :
    (commaList close g.pattern).Rejoins k :=
  .commaList hg.follow.pattern.mayConsume hclose hg.pattern

theorem rejoins_fieldPattern : (fieldPattern g).Rejoins k := by
  refine .start fun start => .bind .name fun name k => ?_
  exact .bind (.optional (.acceptIf rfl) hg.pattern) fun pattern _ => .part start _

theorem rejoins_pathPattern : (pathPattern g).Rejoins k := by
  refine .bind rejoins_path fun path k => .bind (.acceptIf rfl) fun called k => ?_
  split
  · exact .bind (rejoins_patternList hg nofun) fun args _ => .value _
  · refine .test (·.isSymbol .leftBrace) fun braced => ?_
    split
    · refine .bind (.expect nofun) fun _ k => ?_
      exact .bind (.commaList (consumes_fieldPattern hg.follow.pattern).mayConsume nofun fun _ =>
        rejoins_fieldPattern hg) fun fields _ => .value _
    · split
      · exact .value _
      · exact .value _

theorem rejoins_parenPattern (start : Nat) : (parenPattern g start).Rejoins (.symbol .leftParen) := by
  refine .bind (.advance nofun) fun _ k => .bind (.acceptIf rfl) fun empty k => ?_
  split
  · exact .node start _
  · refine .bind (hg.pattern k) fun first k => .bind (.acceptIf rfl) fun several k => ?_
    split
    · exact .bind (rejoins_patternList hg nofun) fun more k => .node start _
    · exact .bind (.expect nofun) fun _ _ => .value first

omit hg in
theorem rejoins_negatedPattern (start : Nat) : (negatedPattern start).Rejoins (.symbol .minus) :=
  .bind (.advance nofun) fun _ _ => .bind rejoins_literalNode fun _ _ => .node start _

theorem rejoins_singlePattern : (singlePattern g).Rejoins k := by
  have hfinish (start : Nat) {k : TokenKind} {kind : Parser PatternKind} (h : kind.Rejoins k) :
      (do
        let kind ← kind
        node start fun id span => (⟨id, span, kind⟩ : Pattern)).Rejoins k :=
    .bind h fun kind _ => .node start _
  have hliteral {k : TokenKind} :
      (do pure (.literal (← literalNode)) : Parser PatternKind).Rejoins k :=
    .bind rejoins_literalNode fun literal _ => .value _
  refine .start fun start => .kind fun k => ?_
  split
  case h_1 => exact hfinish start (.bind (.advance nofun) fun _ _ => .value _)
  case h_2 => exact hfinish start (rejoins_pathPattern hg)
  case h_8 =>
    refine .query (fun d s s' hk hs => by rw [hs.peek_eq (by simp [hk])]) fun number => ?_
    split
    · exact hfinish start (rejoins_negatedPattern start)
    · exact .expected _
  case h_9 => exact rejoins_parenPattern hg start
  case h_10 => exact .expected _
  -- literals
  all_goals exact hfinish start hliteral

theorem rejoins_patternRule : (patternRule g).Rejoins k := by
  refine .start fun start => .bind (rejoins_singlePattern hg) fun first k => ?_
  refine .test (·.isSymbol .pipe) fun several => ?_
  split
  · refine .bind (.collect (follows_alternativeTurn hg.follow.pattern) fun k => ?_) fun more k => ?_
    · refine .bind (.acceptIf rfl) fun found k => ?_
      split
      · exact .bind (rejoins_singlePattern hg) fun next _ => .value _
      · exact .value _
    · exact .node start _
  · exact .value first

end

end Parser

end ActorFrontend
