import ActorFrontend.Proofs.Alike.Heads
import ActorFrontend.Proofs.Course.Statements

/-!
# Types and patterns go alike
-/

namespace ActorFrontend

open ActorFrontend.Parser

/-- Types that are the same in what is compared and stand at the same place. -/
def Comparison.SameType (L : Comparison) (t t' : TypeExpr) : Prop :=
  Like L t t' ∧ L.Placed t.span t'.span

/-- An expression that `scope` starts fails where neither a block nor an operation follows, whether
or not operators might follow it. -/
def Rules.MissesScope (g : Rules) : Prop :=
  ∀ setting s, s.kind = .keyword .scopeKw →
    s.peek 1 = .symbol .semicolon ∨ s.peek 1 = .symbol .dot ∧ s.peek 2 = .symbol .semicolon →
    ∃ e after, g.blockLike setting s = .fail e after ∧ g.expr 0 setting s = .fail e after

/-- Two sets of rules that go alike.  A type ends behind a token that is no semicolon, and so does a
block, and a pattern, behind which no missing semicolon is assumed; behind an expression an arrow
cannot follow that belongs to it. -/
structure Rules.Alike (L : Comparison) (g g' : Rules) : Prop where
  left : g.Follow
  right : g'.Follow
  type : Parser.Alike L false false none .unread .firm L.SameType g.type g'.type
  pattern : Parser.Alike L false false none .unread .loose (Like L) g.pattern g'.pattern
  expr : ∀ minPower, Parser.Alike L true false none .unread .read (Like L) (g.expr minPower)
    (g'.expr minPower)
  block : Parser.Alike L true false none .unread .behind (Like L) g.block g'.block
  blockLike : Parser.Alike L true false none .unread .read (Like L) g.blockLike g'.blockLike
  names : g.ReadsNames
  types : g.ReadsTypes
  types' : g'.ReadsTypes
  scope' : g'.MissesScope
  angles' : SkipsTypes g'

variable {L : Comparison} {g g' : Rules} {loud inside : Bool} {hand : Hand} {φ χ : Footing}
  {start start' : Nat}

namespace Rules.Alike

theorem atPlacedType (hg : Rules.Alike L g g') (hended : φ.ended = false) :
    Parser.Alike L loud inside hand φ .firm L.SameType g.type g'.type :=
  .weaken hg.type nofun nofun (.inl rfl) (Footing.le_unread hended) (Footing.le_refl _)
    fun _ _ h => h

theorem atType (hg : Rules.Alike L g g') (hended : φ.ended = false) :
    Parser.Alike L loud inside hand φ .firm (Like L) g.type g'.type :=
  .weaken hg.type nofun nofun (.inl rfl) (Footing.le_unread hended) (Footing.le_refl _)
    fun _ _ h => h.1

theorem atPattern (hg : Rules.Alike L g g') (hended : φ.ended = false) :
    Parser.Alike L loud inside hand φ .loose (Like L) g.pattern g'.pattern :=
  .weaken hg.pattern nofun nofun (.inl rfl) (Footing.le_unread hended) (Footing.le_refl _)
    fun _ _ h => h

theorem atExpr (hg : Rules.Alike L g g') (minPower : Nat) (hended : φ.ended = false) :
    Parser.Alike L true inside hand φ .read (Like L) (g.expr minPower) (g'.expr minPower) :=
  .weaken (hg.expr minPower) id nofun (.inl rfl) (Footing.le_unread hended) (Footing.le_refl _)
    fun _ _ h => h

theorem atBlock (hg : Rules.Alike L g g') (hended : φ.ended = false) :
    Parser.Alike L true inside hand φ .behind (Like L) g.block g'.block :=
  .weaken hg.block id nofun (.inl rfl) (Footing.le_unread hended) (Footing.le_refl _)
    fun _ _ h => h

theorem atBlockLike (hg : Rules.Alike L g g') (hended : φ.ended = false) :
    Parser.Alike L true inside hand φ .read (Like L) g.blockLike g'.blockLike :=
  .weaken hg.blockLike id nofun (.inl rfl) (Footing.le_unread hended) (Footing.le_refl _)
    fun _ _ h => h

end Rules.Alike

namespace Parser

/-! ## Types -/

/-- The arguments or parameters of a type, which are read by `elem`. -/
theorem alike_angles {α : Type} [Relabeled α] {elem elem' : Parser α} {loudTurn loudTurn' : Bool}
    (helem : elem.MayConsume loudTurn) (helem' : elem'.MayConsume loudTurn')
    (h : Alike L loud inside none .unread .firm (Like L) elem elem') :
    Alike L loud inside hand .firm .firm (Like L) (listIf (accept .lt) (commaList .gt elem))
      (listIf (accept .lt) (commaList .gt elem')) :=
  .listIf ⟨rfl, rfl, rfl, rfl, fun _ => rfl⟩ rfl (Footing.le_refl _)
    (.ends_le (.commaList helem helem' ⟨rfl, rfl, rfl, rfl, fun _ => rfl⟩ rfl
      (h.ends_le (by decide))) (by decide))

theorem alike_typeArgs (hg : g.Alike L g') :
    Alike L loud inside hand .firm .firm (Like L) (typeArgs g) (typeArgs g') :=
  alike_angles hg.left.type.mayConsume hg.right.type.mayConsume (hg.atType rfl)

theorem alike_bound (hg : g.Alike L g') (hended : φ.ended = false) :
    Alike L loud inside hand φ .firm (Like L) (bound g) (bound g') := by
  refine .start fun start start' hstart => ?_
  refine .bind (alike_path hended) fun path path' hpath => ?_
  refine .bind (alike_typeArgs hg) fun args args' hargs => ?_
  refine .part hstart fun span span' hspan => ?_
  simp_all

theorem alike_boundTurn (hg : g.Alike L g') :
    Alike L loud inside none .firm .firm (fun r r' => r.1 = r'.1 ∧ Like L r.2 r'.2) (boundTurn g)
      (boundTurn g') := by
  refine .ifAccept ⟨rfl, rfl, rfl, rfl, fun _ => rfl⟩ rfl ?_ (.value ⟨rfl, rfl⟩)
  exact .map (alike_bound hg rfl) fun next next' hnext => ⟨rfl, by simp_all⟩

theorem alike_bounds (hg : g.Alike L g') (hended : φ.ended = false) :
    Alike L loud inside hand φ .firm (Like L) (bounds g) (bounds g') := by
  refine .bind (alike_bound hg hended) fun first first' hfirst => ?_
  refine .map (.collect rfl (follows_boundTurn hg.left.type) (follows_boundTurn hg.right.type)
    (alike_boundTurn hg)) fun more more' hmore => ?_
  simp_all

theorem alike_boundsAfterColon (hg : g.Alike L g') :
    Alike L loud inside hand .firm .firm (Like L) (boundsAfterColon g) (boundsAfterColon g') :=
  .listIf ⟨rfl, rfl, rfl, rfl, fun _ => rfl⟩ rfl (Footing.le_refl _) (alike_bounds hg rfl)

theorem alike_typeAfterColon (hg : g.Alike L g') (hended : φ.ended = false) (hlook : φ.look ≤ χ)
    (hfirm : .firm ≤ χ) :
    Alike L loud inside hand φ χ (Like L) (typeAfterColon g) (typeAfterColon g') :=
  .optional ⟨rfl, rfl, rfl, rfl, fun _ => rfl⟩ hended hlook ((hg.atType rfl).ends_le hfirm)

/-- A result type follows an arrow, so it cannot be taken behind an expression. -/
theorem alike_resultType (hg : g.Alike L g') :
    Alike L loud inside hand .firm .firm (Like L) (resultType g) (resultType g') :=
  .ifArrow rfl nofun rfl (.map (hg.atType rfl) fun type type' htype => by simp_all) (.value rfl)

theorem alike_typeParam (hg : g.Alike L g') (hended : φ.ended = false) :
    Alike L loud inside hand φ .firm (Like L) (typeParam g) (typeParam g') := by
  refine .start fun start start' hstart => ?_
  refine .bind (.name hended) fun name name' hname => ?_
  refine .bind (.at_le (alike_boundsAfterColon hg) (by decide) (Footing.le_refl _))
    fun bounds bounds' hbounds => ?_
  refine .part hstart fun span span' hspan => ?_
  simp_all [relabel]

theorem alike_typeParams (hg : g.Alike L g') :
    Alike L loud inside hand .firm .firm (Like L) (typeParams g) (typeParams g') :=
  alike_angles (consumes_typeParam hg.left.type).mayConsume
    (consumes_typeParam hg.right.type).mayConsume (alike_typeParam hg rfl)

theorem alike_wherePredicate (hg : g.Alike L g') (hended : φ.ended = false) :
    Alike L loud inside hand φ .firm (Like L) (wherePredicate g) (wherePredicate g') := by
  refine .start fun start start' hstart => ?_
  refine .bind (hg.atType hended) fun type type' htype => ?_
  refine .bind (.expect ⟨rfl, rfl, rfl, rfl, fun _ => rfl⟩ rfl) fun _ _ _ => ?_
  refine .bind (alike_bounds hg rfl) fun bounds bounds' hbounds => ?_
  refine .part hstart fun span span' hspan => ?_
  simp_all [relabel]

theorem alike_whereTurn (hg : g.Alike L g') :
    Alike L loud inside none .loose .loose (fun r r' => r.1 = r'.1 ∧ Like L r.2 r'.2) (whereTurn g)
      (whereTurn g') := by
  refine .bind (alike_wherePredicate hg rfl) fun predicate predicate' hpredicate => ?_
  refine .ifAccept ⟨rfl, rfl, rfl, rfl, fun _ => rfl⟩ rfl ?_ (.done ⟨rfl, by simp_all⟩ (by decide))
  refine .onTest (·.isSymbol .leftBrace) rfl (fun _ _ => rfl) (fun k k' _ => ?_) fun k _ => ?_
  · exact .done ⟨rfl, by simp_all⟩ (by decide)
  · exact .value ⟨rfl, by simp_all⟩

/-- A comma may stand at the end of the clause. -/
theorem alike_whereClause (hg : g.Alike L g') :
    Alike L loud inside hand .firm .loose (Like L) (whereClause g) (whereClause g') :=
  .listIf ⟨rfl, rfl, rfl, rfl, fun _ => rfl⟩ rfl (by decide)
    (.at_le (.collect rfl (follows_whereTurn hg.left.type) (follows_whereTurn hg.right.type)
      (alike_whereTurn hg)) (by decide) (Footing.le_refl _))

theorem alike_parenType (hg : g.Alike L g') (hstart : L.Started start start')
    (hended : φ.ended = false) :
    Alike L loud inside (some (.symbol .leftParen, .symbol .leftParen)) φ .firm L.SameType
      (parenType g start) (parenType g' start') := by
  refine .enter rfl hended ?_
  refine .ifAccept ⟨rfl, rfl, rfl, rfl, fun _ => rfl⟩ rfl ?_ ?_
  · refine .ends_le (.placedNode hstart rfl rfl fun id id' span span' hid hspan => ?_) (by decide)
    have hsame := hspan.1
    exact ⟨by simp_all, hspan⟩
  · refine .bind (hg.atPlacedType rfl) fun first first' hfirst => ?_
    refine .ifAccept ⟨rfl, rfl, rfl, rfl, fun _ => rfl⟩ rfl ?_ ?_
    · refine .bind (.commaList hg.left.type.mayConsume hg.right.type.mayConsume
        ⟨rfl, rfl, rfl, rfl, fun _ => rfl⟩ rfl ((hg.atType rfl).ends_le (by decide)))
        fun more more' hmore => ?_
      refine .ends_le (.placedNode hstart rfl rfl fun id id' span span' hid hspan => ?_) (by decide)
      have hsame := hspan.1
      have hlike := hfirst.1
      exact ⟨by simp_all, hspan⟩
    · refine .bind (.expect ⟨rfl, rfl, rfl, rfl, fun _ => rfl⟩ rfl) fun _ _ _ => ?_
      exact .done hfirst (by decide)

/-- The semicolon before the length of an array ends nothing. -/
theorem alike_arrayLength :
    Alike L loud true hand .firm .loose (Like L) (optional (accept .semicolon) integer)
      (optional (accept .semicolon) integer) := by
  refine .ifSeparator rfl ?_ (.value rfl)
  exact .map ((Alike.integer rfl).ends_le (by decide)) fun n n' hn => by simp_all

theorem alike_bracketType (hg : g.Alike L g') (hended : φ.ended = false) :
    Alike L loud inside (some (.symbol .leftBracket, .symbol .leftBracket)) φ .behind (Like L)
      (bracketType g) (bracketType g') := by
  refine .enter rfl hended ?_
  refine .bind (hg.atType rfl) fun elem elem' helem => ?_
  refine .bind alike_arrayLength fun length length' hlength => ?_
  refine .bind (.expect ⟨rfl, rfl, rfl, rfl, fun _ => rfl⟩ rfl) fun _ _ _ => ?_
  obtain rfl : length = length' := by
    cases length <;> cases length' <;> simp_all
  cases length with
  | some length => exact .value (by simp_all)
  | none => exact .value (by simp_all)

theorem alike_functionType (hg : g.Alike L g') (hended : φ.ended = false) :
    Alike L loud inside (some (.keyword .fnKw, .keyword .fnKw)) φ .firm (Like L) (functionType g)
      (functionType g') := by
  refine .pass hended ⟨nofun, nofun, Footing.le_refl _⟩ ?_
  refine .expectOpening rfl rfl ?_
  refine .bind (.commaList hg.left.type.mayConsume hg.right.type.mayConsume
    ⟨rfl, rfl, rfl, rfl, fun _ => rfl⟩ rfl ((hg.atType rfl).ends_le (by decide)))
    fun params params' hparams => ?_
  refine .map (.at_le (alike_resultType hg) (by decide) (Footing.le_refl _)) fun ret ret' hret => ?_
  simp_all

theorem alike_pointerType (hg : g.Alike L g') (hended : φ.ended = false) :
    Alike L loud inside (some (.symbol .star, .symbol .star)) φ .firm (Like L) (pointerType g)
      (pointerType g') := by
  have hpointee (mutability : Option PointerMutability) {φ : Footing} (hended : φ.ended = false) :
      Alike L loud inside none φ .firm (Like L)
        (do pure (.pointer mutability (← g.type)) : Parser TypeKind)
        (do pure (.pointer mutability (← g'.type)) : Parser TypeKind) :=
    .map (hg.atType hended) fun type type' htype => by simp_all
  refine .pass hended ⟨nofun, nofun, Footing.le_refl _⟩ ?_
  refine .ifAccept ⟨rfl, rfl, rfl, rfl, fun _ => rfl⟩ rfl (hpointee _ rfl) ?_
  exact .ifAccept ⟨rfl, rfl, rfl, rfl, fun _ => rfl⟩ rfl (hpointee _ rfl) (hpointee _ rfl)

theorem alike_traitObjectType (hg : g.Alike L g') (hended : φ.ended = false) :
    Alike L loud inside (some (.keyword .dynKw, .keyword .dynKw)) φ .firm (Like L)
      (traitObjectType g) (traitObjectType g') := by
  refine .pass hended ⟨nofun, nofun, Footing.le_refl _⟩ ?_
  refine .ifOpens rfl rfl ?_ ?_
  · refine .bind (alike_bounds hg rfl) fun bounds bounds' hbounds => ?_
    refine .bind (.expect ⟨rfl, rfl, rfl, rfl, fun _ => rfl⟩ rfl) fun _ _ _ => ?_
    exact .done (by simp_all) (by decide)
  · exact .map (alike_bound hg rfl) fun only only' honly => by simp_all

theorem alike_namedType (hg : g.Alike L g') (hended : φ.ended = false) :
    Alike L loud inside hand φ .firm (Like L) (namedType g) (namedType g') := by
  refine .bind (alike_path hended) fun path path' hpath => ?_
  exact .map (alike_typeArgs hg) fun args args' hargs => by simp_all

theorem alike_typeRule (hg : g.Alike L g') (hended : φ.ended = false) :
    Alike L loud inside hand φ .firm L.SameType (typeRule g) (typeRule g') := by
  have hlook : φ.still.look.still.ended = false := hended
  refine .started fun start start' hstart => ?_
  have hfinish {hand : Hand} {kind kind' : Parser TypeKind}
      (h : Alike L loud inside hand φ.still.look.still .firm (Like L) kind kind') :
      Alike L loud inside hand φ.still.look.still .firm L.SameType
        (do
          let kind ← kind
          node start fun id span => (⟨id, span, kind⟩ : TypeExpr))
        (do
          let kind ← kind'
          node start' fun id span => (⟨id, span, kind⟩ : TypeExpr)) := by
    refine .bind h fun kind kind' hkind => .placedNode hstart rfl rfl ?_
    intro id id' span span' hid hspan
    have hsame := hspan.1
    exact ⟨by simp_all, hspan⟩
  refine .onKind _ _ hended (fun _ _ _ => .expected hlook _) fun k => ?_
  split
  · exact hfinish (alike_namedType hg hlook)
  · exact alike_parenType hg hstart hlook
  · exact hfinish ((alike_bracketType hg hlook).ends_le (Footing.behind_le _))
  · exact hfinish (alike_functionType hg hlook)
  · exact hfinish (alike_pointerType hg hlook)
  · exact hfinish (alike_traitObjectType hg hlook)
  · exact .expected hlook _

/-! ## Patterns -/

/-- Literals are the same in all that is compared. -/
theorem alike_literalNode (hended : φ.ended = false) :
    Alike L loud inside hand φ .behind (Like L) literalNode literalNode := by
  refine .start fun start start' hstart => ?_
  refine .bind (.valueOf (φ := φ.still) ⟨rfl, rfl, rfl, rfl, fun _ => rfl⟩ hended _)
    fun value value' hvalue => ?_
  exact .node hstart fun id id' span span' hid hspan => by simp_all

theorem alike_fieldPattern (hg : g.Alike L g') (hended : φ.ended = false) :
    Alike L loud inside hand φ .loose (Like L) (fieldPattern g) (fieldPattern g') := by
  refine .start fun start start' hstart => ?_
  refine .bind (.name hended) fun name name' hname => ?_
  refine .bind (.optional ⟨rfl, rfl, rfl, rfl, fun _ => rfl⟩ rfl (by decide)
    (hg.atPattern rfl)) fun pattern pattern' hpattern => ?_
  exact .part hstart fun span span' hspan => by simp_all

theorem alike_pathPattern (hg : g.Alike L g') (hended : φ.ended = false) :
    Alike L loud inside hand φ .firm (Like L) (pathPattern g) (pathPattern g') := by
  refine .bind (alike_path hended) fun path path' hpath => ?_
  obtain rfl := hpath
  refine .ifOpens rfl rfl ?_ ?_
  · exact .ends_le (.map (.commaList hg.left.pattern.mayConsume hg.right.pattern.mayConsume
      ⟨rfl, rfl, rfl, rfl, fun _ => rfl⟩ rfl ((hg.atPattern rfl).ends_le (by decide)))
      fun args args' hargs => by simp_all) (by decide)
  · refine .ifSees nofun rfl ?_ ?_
    · refine .expectOpening rfl rfl ?_
      exact .ends_le (.map (.commaList (consumes_fieldPattern hg.left.pattern).mayConsume
        (consumes_fieldPattern hg.right.pattern).mayConsume ⟨rfl, rfl, rfl, rfl, fun _ => rfl⟩
        rfl ((alike_fieldPattern hg rfl).ends_le (by decide)))
        fun fields fields' hfields => by simp_all) (by decide)
    · split
      · exact .value rfl
      · exact .value rfl

theorem alike_parenPattern (hg : g.Alike L g') (hstart : L.SameOffset start start')
    (hended : φ.ended = false) :
    Alike L loud inside (some (.symbol .leftParen, .symbol .leftParen)) φ .firm (Like L)
      (parenPattern g start) (parenPattern g' start') := by
  refine .enter rfl hended ?_
  refine .ifAccept ⟨rfl, rfl, rfl, rfl, fun _ => rfl⟩ rfl ?_ ?_
  · refine .ends_le (.node hstart fun id id' span span' hid hspan => ?_) (by decide)
    simp_all
  · refine .bind (hg.atPattern rfl) fun first first' hfirst => ?_
    refine .ifAccept ⟨rfl, rfl, rfl, rfl, fun _ => rfl⟩ rfl ?_ ?_
    · refine .bind (.commaList hg.left.pattern.mayConsume hg.right.pattern.mayConsume
        ⟨rfl, rfl, rfl, rfl, fun _ => rfl⟩ rfl ((hg.atPattern rfl).ends_le (by decide)))
        fun more more' hmore => ?_
      refine .ends_le (.node hstart fun id id' span span' hid hspan => ?_) (by decide)
      simp_all
    · refine .bind (.expect ⟨rfl, rfl, rfl, rfl, fun _ => rfl⟩ rfl) fun _ _ _ => ?_
      exact .done hfirst (by decide)

theorem alike_negatedPattern (hstart : L.SameOffset start start') (hended : φ.ended = false) :
    Alike L loud inside (some (.symbol .minus, .symbol .minus)) φ .behind (Like L)
      (negatedPattern start) (negatedPattern start') := by
  refine .pass hended ⟨nofun, nofun, Footing.le_refl _⟩ ?_
  refine .bind (alike_literalNode rfl) fun number number' hnumber => ?_
  exact .node hstart fun id id' span span' hid hspan => by simp_all

/-- Without a number the negation fails behind its sign. -/
theorem negatedPattern_misses {setting : Setting} {s : State}
    (hnext : s.peek 1 = .symbol .semicolon) :
    negatedPattern start setting s = .fail (s.advance.expectedError setting .pattern) s.advance := by
  have hkind : s.advance.kind = .symbol .semicolon := by rw [kind_advance, hnext]
  have hliteral : literalNode setting s.advance =
      .fail (s.advance.expectedError setting .pattern) s.advance := by
    rw [literalNode, start_bind]
    refine bind_fail ?_
    rw [valueOf_eq, hkind]
    rfl
  rw [negatedPattern, advance_bind]
  exact bind_fail hliteral

/-- Whether a number follows a minus sign. -/
theorem alike_numberFollows {β : Type} {χ : Footing} {R : β → β → Prop} {yes yes' no no' : Parser β}
    (hended : φ.ended = false)
    (hmisses : ∀ setting s, s.peek 1 = .symbol .semicolon →
      ∃ e, yes' setting s = .fail e s.advance)
    (hyes : Alike L loud inside (some (.symbol .minus, .symbol .minus)) φ.look χ R yes yes')
    (hno : Alike L loud inside none φ.look χ R no no') :
    Alike L loud inside (some (.symbol .minus, .symbol .minus)) φ χ R
      (do if ← query fun s => isNumber (s.peek 1) then yes else no)
      (do if ← query fun s => isNumber (s.peek 1) then yes' else no') := by
  refine .look (some (.symbol .minus)) hended (fun cut s s' h _ hs => .inl ?_) ?_ (by simp)
    (fun _ s s' h _ => h.peek_resembles.test_eq _ fun _ _ => rfl) ?_ (fun _ => .passes)
    (fun _ => nofun) (fun _ => nofun) (fun _ => nofun)
  · have hs := hs _ rfl
    exact (h.peek_alike (by simp [hs]) (by simp [hs])).test_eq _ fun _ _ => rfl
  · intro s s' _ _
    split
    · exact hyes
    · exact hno.forget
  · intro _ behind setting setting' s s' h hlt _ _
    obtain ⟨-, hpeek⟩ | ⟨hlength, hpeek⟩ := h.peek hlt
    · exact .inl (hpeek.test_eq _ fun _ _ => rfl)
    · cases hs : isNumber (s.peek 1) with
      | false => exact .inl (by rw [hpeek]; rfl)
      | true =>
        -- the second run would miss the number
        obtain ⟨e, he⟩ := hmisses setting' s' hpeek
        exact .inr (.inl ⟨e, s'.advance, he, by rw [(h.advance hlt).length_eq, hlength]⟩)

theorem alike_singlePattern (hg : g.Alike L g') (hended : φ.ended = false) :
    Alike L loud inside hand φ .loose (Like L) (singlePattern g) (singlePattern g') := by
  have hlook : φ.still.look.still.ended = false := hended
  refine .start fun start start' hstart => ?_
  have hfinish {hand : Hand} {kind kind' : Parser PatternKind} {φ : Footing}
      (h : Alike L loud inside hand φ .firm (Like L) kind kind') :
      Alike L loud inside hand φ .loose (Like L)
        (do
          let kind ← kind
          node start fun id span => (⟨id, span, kind⟩ : Pattern))
        (do
          let kind ← kind'
          node start' fun id span => (⟨id, span, kind⟩ : Pattern)) := by
    refine .bind h fun kind kind' hkind => ?_
    exact .ends_le (.node hstart fun id id' span span' hid hspan => by simp_all) (by decide)
  have hliteral {hand : Hand} : Alike L loud inside hand φ.still.look.still .firm (Like L)
      (do pure (.literal (← literalNode)) : Parser PatternKind)
      (do pure (.literal (← literalNode)) : Parser PatternKind) :=
    .map ((alike_literalNode hlook).ends_le (Footing.behind_le _)) fun literal literal' hliteral =>
      by simp_all
  refine .onKind _ _ hended (fun _ _ _ => .expected hlook _) fun k => ?_
  split
  case h_1 =>
    exact hfinish (.pass hlook ⟨nofun, nofun, Footing.behind_le .firm⟩ (.value rfl))
  case h_2 => exact hfinish (alike_pathPattern hg hlook)
  case h_8 =>
    refine alike_numberFollows hlook (fun setting s hs => ⟨_, bind_fail (negatedPattern_misses hs)⟩)
      (hfinish ((alike_negatedPattern hstart hlook).ends_le (Footing.behind_le _)))
      (.expected hlook _)
  case h_9 => exact (alike_parenPattern hg hstart hlook).ends_le (by decide)
  case h_10 => exact .expected hlook _
  -- literals
  all_goals exact hfinish hliteral

theorem relabel_alternatives (r : Renaming) (p : Pattern) :
    relabel r (alternatives p) = alternatives (relabel r p) := by
  obtain ⟨id, span, kind⟩ := p
  cases kind <;> simp [alternatives]

theorem alternatives_like {p p' : Pattern} (h : Like L p p') :
    Like L (alternatives p) (alternatives p') := by
  change relabel _ _ = relabel _ _ at h
  change relabel _ _ = relabel _ _
  rw [relabel_alternatives, relabel_alternatives, h]

theorem alike_alternativeTurn (hg : g.Alike L g') :
    Alike L loud inside none .loose .loose (fun r r' => r.1 = r'.1 ∧ Like L r.2 r'.2)
      (alternativeTurn g) (alternativeTurn g') := by
  refine .ifAccept ⟨rfl, rfl, rfl, rfl, fun _ => rfl⟩ rfl ?_ (.value ⟨rfl, rfl⟩)
  exact .map (alike_singlePattern hg rfl) fun next next' hnext => ⟨rfl, alternatives_like hnext⟩

theorem alike_patternRule (hg : g.Alike L g') (hended : φ.ended = false) :
    Alike L loud inside hand φ .loose (Like L) (patternRule g) (patternRule g') := by
  refine .start fun start start' hstart => ?_
  refine .bind (alike_singlePattern hg hended) fun first first' hfirst => ?_
  refine .ifSees nofun rfl ?_ (.value hfirst)
  refine .bind (.collect rfl (follows_alternativeTurn hg.left.pattern)
    (follows_alternativeTurn hg.right.pattern) (alike_alternativeTurn hg))
    fun more more' hmore => ?_
  refine .node hstart fun id id' span span' hid hspan => ?_
  have hfirst := alternatives_like hfirst
  simp_all

end Parser

end ActorFrontend
