import ActorFrontend.Proofs.Alike.Angles
import ActorFrontend.Proofs.Alike.Breaks
import ActorFrontend.Proofs.Progress

/-!
# Declarations go alike

A declaration ends behind a semicolon or a closing bracket, and looks at nothing behind it.
-/

namespace ActorFrontend

variable {L : Comparison} {g g' : Rules} {loud inside : Bool} {hand : Hand} {φ χ : Footing}

namespace Parser

/-! ## Bodies -/

section

variable {σ α : Type} [Relabeled α] {R : σ → σ → Prop} {part part' : σ → Parser σ} {a a' : σ}
  {member member' : Parser α}

theorem alike_membersIn (hpart : ∀ a, (part a).Consumes true) (hpart' : ∀ a, (part' a).Consumes true)
    (hbreaks : ∀ a, Parts.members.BreaksOff (part a)) (hended : φ.ended = false)
    (h : ∀ a a', R a a' → Alike L true true none .unread χ R (part a) (part' a')) (ha : R a a') :
    Alike L true inside hand φ .behind R (membersIn part a) (membersIn part' a') := by
  refine .expectOpening rfl hended ?_
  refine .bind (alike_bodyParts .members (.inr rfl) hpart hpart' hbreaks h ha)
    fun b b' hb => ?_
  exact .bind (.expect ⟨rfl, rfl, rfl, rfl, fun _ => rfl⟩ rfl) fun _ _ _ => .value hb

theorem alike_members (hmember : member.Consumes true) (hmember' : member'.Consumes true)
    (hbreaks : Parts.members.BreaksOff member) (hended : φ.ended = false)
    (h : Alike L true true none .unread χ (Like L) member member') :
    Alike L true inside hand φ .behind (Like L) (members member) (members member') := by
  refine .map (alike_membersIn (χ := χ) (R := Like L) (consumes_found hmember)
    (consumes_found hmember') (breaksOff_found hbreaks) hended (fun found found' hfound => ?_) rfl)
    fun found found' hfound => ?_
  · exact .map h fun next next' hnext => by simp_all
  · have hreverse := relabel_reverse L.relabeling found
    simp_all

theorem alike_memberSeparator (hended : φ.ended = false) (hclosed : .closed ≤ χ)
    (hlook : φ.look ≤ χ) :
    Alike L loud inside hand φ χ (fun _ _ => True) memberSeparator memberSeparator :=
  .ifAccept ⟨rfl, rfl, rfl, rfl, fun _ => rfl⟩ hended
    (.done trivial (Footing.le_trans (by decide : Footing.behind ≤ .closed) hclosed))
    (.bind (.acceptSemicolon (Footing.ended_look hended) hclosed hlook) fun _ _ _ => .value trivial)

/-- Where nothing is mended, a semicolon between members ends nothing. -/
theorem alike_looseSeparator :
    Alike L loud true hand .unread .unread (fun _ _ => True) memberSeparator memberSeparator := by
  have heq : memberSeparator = (do
      if ← accept .comma then pure () else if ← accept .semicolon then pure () else pure ()) := by
    unfold memberSeparator
    congr 1
    funext comma
    cases comma with
    | true => rfl
    | false => exact congrArg (accept .semicolon >>= ·) (funext fun semicolon => (ite_self _).symm)
  rw [heq]
  refine .ifAccept ⟨rfl, rfl, rfl, rfl, fun _ => rfl⟩ rfl (.done trivial (by decide)) ?_
  exact .ifSeparator rfl (.done trivial (by decide)) (.done trivial (by decide))

theorem alike_separatedMembers {loudTurn loudTurn' : Bool} (hmember : member.Consumes loudTurn)
    (hmember' : member'.Consumes loudTurn') (hended : φ.ended = false)
    (h : Alike L loud true none .unread .unread (Like L) member member') :
    Alike L loud inside hand φ .behind (Like L) (separatedMembers member)
      (separatedMembers member') := by
  refine .expectOpening rfl hended ?_
  have hturn : Alike L loud true none .unread .unread (fun r r' => r.1 = r'.1 ∧ Like L r.2 r'.2)
      (separatedTurn member) (separatedTurn member') := by
    refine alike_atBodyEnd rfl fun atEnd => ?_
    split
    · exact .value ⟨rfl, rfl⟩
    · refine .bind h fun next next' hnext => ?_
      refine .bind alike_looseSeparator fun _ _ _ => ?_
      exact .value ⟨rfl, by simp_all⟩
  refine .bind (.at_le (.collect rfl (follows_separatedTurn hmember)
    (follows_separatedTurn hmember') hturn) (by decide) (Footing.le_refl _)) fun found found' hfound => ?_
  exact .bind (.expect ⟨rfl, rfl, rfl, rfl, fun _ => rfl⟩ rfl) fun _ _ _ => .value hfound

end

/-! ## Visibility, imports, constants -/

theorem restriction?_eq {L : Likeness} {cut : Cut} {s s' : State}
    (h : Lexeme.AlikeUpTo L cut s.rest s'.rest) :
    restriction? s = restriction? s' := by
  unfold restriction?
  rw [← h.kind_alike.isSymbol_eq]
  cases hopen : s.kind.isSymbol .leftParen with
  | false => rfl
  | true =>
    have hs := TokenKind.eq_of_isSymbol hopen
    have hnext := h.advance (by simp [hs]) (by simp [hs])
    have hword : restrictedVisibility? (s.peek 1) = restrictedVisibility? (s'.peek 1) :=
      (h.peek_alike (by simp [hs]) (by simp [hs])).test_eq _ fun _ _ => rfl
    by_cases hname : (s.peek 1).isName = true
    · have hplain (symbol : Symbol) : s.advance.kind ≠ .symbol symbol := by
        rw [kind_advance]
        intro heq
        rw [heq] at hname
        cases hname
      have hclose := hnext.peek_alike (hplain _) (hplain _)
      rw [peek_advance, peek_advance] at hclose
      rw [hword, hclose.isSymbol_eq]
    · have hnone : restrictedVisibility? (s.peek 1) = none := by
        unfold restrictedVisibility?
        split
        case h_1 hk => exact absurd (by rw [hk]; rfl) hname
        case h_2 hk => exact absurd (by rw [hk]; rfl) hname
        case h_3 => rfl
      rw [← hword, hnone]
      simp

/-- A restricted visibility, in its parentheses. -/
def restricted (vis : Visibility) : Parser Visibility := do
  expect .leftParen
  let _ ← name
  expect .rightParen
  pure vis

/-- What is known to stand there may as well be asked for. -/
theorem visibility_eq : visibility = (do
    if ← acceptKeyword .pubKw then
      (← query restriction?).elim (pure .publicVis) restricted
    else
      pure .privateVis) := by
  unfold visibility
  congr 1
  funext found
  cases found with
  | false => rfl
  | true =>
    funext setting s
    simp only [if_true]
    rw [query_bind, query_bind]
    cases hvis : restriction? s with
    | none => rfl
    | some vis =>
      obtain ⟨hopen, hword, hclose⟩ := kinds_of_restriction hvis
      rw [← kind_advance] at hword
      rw [← peek_advance, ← kind_advance] at hclose
      have hname : ∃ word, name setting s.advance = .ok word s.advance.advance := by
        rw [name, valueOf_eq]
        cases hk : s.advance.kind <;> simp_all [TokenKind.isName]
      obtain ⟨word, hname⟩ := hname
      have hopens : expect .leftParen setting s = .ok () s.advance := by
        rw [expect, require_eq, hopen]
        rfl
      have hcloses : expect .rightParen setting s.advance.advance =
          .ok () s.advance.advance.advance := by
        rw [expect, require_eq, hclose]
        rfl
      exact ((bind_ok hopens).trans ((bind_ok hname).trans (bind_ok hcloses))).symm

theorem restriction?_congr {s s' : State} (h : s.kind.Resembles s'.kind)
    (hword : (s.peek 1).Resembles (s'.peek 1)) (hclose : (s.peek 2).Resembles (s'.peek 2)) :
    restriction? s = restriction? s' := by
  unfold restriction?
  rw [h.isSymbol_eq, hclose.isSymbol_eq,
    hword.test_eq restrictedVisibility? fun _ _ => rfl]

theorem misses_restricted {left : Nat} {setting : Setting} {s : State}
    (hs : s.kind = .symbol .leftParen)
    (h : (s.advance.kind = .symbol .semicolon ∧ s.advance.rest.length = left) ∨
      (s.advance.kind.isName = true ∧ s.advance.advance.kind = .symbol .semicolon ∧
        s.advance.advance.rest.length = left)) (vis : Visibility) :
    (restricted vis).Misses left setting s := by
  refine .of_ok (a := ()) (expect_eq_ok_iff.2 ⟨hs, rfl⟩) ?_
  obtain ⟨hsemicolon, rfl⟩ | ⟨hname, hsemicolon, rfl⟩ := h
  · exact (misses_valueOf (by rw [hsemicolon]) _).bind _
  · obtain ⟨word, hread⟩ : ∃ word, name setting s.advance = .ok word s.advance.advance := by
      rw [name, valueOf_eq]
      cases hk : s.advance.kind <;> simp_all [TokenKind.isName]
    exact .of_ok hread ((misses_require (by rw [hsemicolon]; rfl) _).bind _)

/-- Where the restriction lacks its word or its closing parenthesis because of the semicolon, the
second run misses that. -/
theorem deflected_restriction {behind : List Lexeme} {setting setting' : Setting} {s s' : State}
    (h : Lexeme.Gapped behind s.rest s'.rest) (hlt : behind.length < s.rest.length) :
    restriction? s = restriction? s' ∨
      Deflected behind ((restriction? s).elim (pure .publicVis) restricted)
        ((restriction? s).elim (pure .publicVis) restricted)
        ((restriction? s').elim (pure .publicVis) restricted) setting setting' s s' := by
  have hnext := h.advance hlt
  have hnone (hword : s'.peek 1 = .symbol .semicolon ∨ s'.peek 2 = .symbol .semicolon) :
      restriction? s' = none := by
    unfold restriction?
    obtain hword | hclose := hword
    · rw [hword]
      simp [restrictedVisibility?]
    · rw [hclose]
      simp [TokenKind.isSymbol]
  have hmisses (hsemicolon : s'.peek 1 = .symbol .semicolon ∨ s'.peek 2 = .symbol .semicolon)
      (hword : ∀ vis, restriction? s = some vis →
        (s'.advance.kind = .symbol .semicolon ∧ s'.advance.rest.length = behind.length + 1) ∨
        (s'.advance.kind.isName = true ∧ s'.advance.advance.kind = .symbol .semicolon ∧
          s'.advance.advance.rest.length = behind.length + 1)) :
      restriction? s = restriction? s' ∨
        Deflected behind ((restriction? s).elim (pure .publicVis) restricted)
          ((restriction? s).elim (pure .publicVis) restricted)
          ((restriction? s').elim (pure .publicVis) restricted) setting setting' s s' := by
    cases hvis : restriction? s with
    | none => exact .inl (hnone hsemicolon).symm
    | some vis =>
      obtain ⟨hopen, -, -⟩ := kinds_of_restriction hvis
      have hopen' := (h.kind_resembles hlt).eq_of_left hopen fun _ h => by cases h
      exact .inr (.inl (misses_restricted hopen' (hword vis hvis) vis))
  obtain ⟨hlt', hpeek⟩ | ⟨hlength, hpeek⟩ := h.peek hlt
  · have hafter := hnext.advance hlt'
    obtain ⟨-, hpeek'⟩ | ⟨hlength, hpeek'⟩ := hnext.peek hlt'
    · rw [peek_advance, peek_advance] at hpeek'
      exact .inl (restriction?_congr (h.kind_resembles hlt) hpeek hpeek')
    · rw [peek_advance] at hpeek'
      refine hmisses (.inr hpeek') fun vis hvis => .inr ⟨?_, ?_, ?_⟩
      · obtain ⟨-, hword, -⟩ := kinds_of_restriction hvis
        rw [kind_advance, ← hpeek.isName_eq]
        exact hword
      · rw [kind_advance, peek_advance, hpeek']
      · rw [hafter.length_eq, hlength]
  · refine hmisses (.inl hpeek) fun _ _ => .inl ⟨by rw [kind_advance, hpeek], ?_⟩
    rw [hnext.length_eq, hlength]

theorem alike_visibility :
    Alike L loud inside hand .unread .unread (· = ·) visibility visibility := by
  rw [visibility_eq]
  refine .ifAccept ⟨rfl, rfl, rfl, rfl, fun _ => rfl⟩ rfl ?_ (.value rfl)
  refine .query (φ := .behind) rfl
    (fun _ _ _ h _ => restriction?_eq h) (fun _ _ h _ => ?_)
    (fun _ _ _ _ _ h hlt _ => deflected_restriction h hlt) fun s s' _ _ => ?_
  · refine restriction?_congr h.kind_resembles h.peek_resembles ?_
    have hpeek := h.advance.peek_resembles
    rwa [peek_advance, peek_advance] at hpeek
  · cases restriction? s with
    | none => exact .done rfl (by decide)
    | some vis =>
      refine .bind (.expect ⟨rfl, rfl, rfl, rfl, fun _ => rfl⟩ rfl) fun _ _ _ => ?_
      refine .bind (.name rfl) fun _ _ _ => ?_
      refine .bind (.expect ⟨rfl, rfl, rfl, rfl, fun _ => rfl⟩ rfl) fun _ _ _ => ?_
      exact .done rfl (by decide)

theorem alike_importStep (hended : φ.ended = false) :
    Alike L loud inside hand φ .behind (· = ·) importStep importStep := by
  have hlook : φ.look.still.ended = false := hended
  have hpart {hand : Hand} : Alike L loud inside hand φ.look.still .behind (· = ·)
      (do pure (.part (← name)) : Parser ImportStep) (do pure (.part (← name)) : Parser ImportStep) :=
    .map (.name hlook) fun name name' hname => by rw [hname]
  refine .onKind _ _ hended (fun _ _ _ => hpart) fun k => ?_
  split
  · exact .pass hlook ⟨nofun, nofun, Footing.le_refl _⟩ (.value rfl)
  · refine .enter rfl hlook ?_
    refine .bind (.name rfl) fun first first' hfirst => ?_
    have hname : name.MayConsume false := consumes_name.mayConsume
    refine .map (.commaTail hname hname ⟨rfl, rfl, rfl, rfl, fun _ => rfl⟩ (by decide) ?_)
      fun more more' hmore => by simp_all
    exact .ends_le (Alike.name rfl).like (by decide)
  · exact hpart

theorem alike_importTurn (found : List String × ImportSpec) :
    Alike L loud inside none .firm .firm (fun r r' => r.1 = r'.1 ∧ r.2 = r'.2) (importTurn found)
      (importTurn found) := by
  refine .ifAccept ⟨rfl, rfl, rfl, rfl, fun _ => rfl⟩ rfl ?_ (.value ⟨rfl, rfl⟩)
  refine .bind (alike_importStep rfl) fun step step' hstep => ?_
  obtain rfl := hstep
  cases step with
  | part name => exact .done ⟨rfl, rfl⟩ (by decide)
  | spec spec => exact .done ⟨rfl, rfl⟩ (by decide)

theorem alike_importDecl (hended : φ.ended = false) :
    Alike L true inside hand φ .closed (· = ·) importDecl importDecl := by
  refine .bind (.expectKeyword hended _) fun _ _ _ => ?_
  refine .bind (.name rfl) fun first first' hfirst => ?_
  obtain rfl := hfirst
  have hpath : Alike L true inside none .behind .firm (· = ·)
      (loop importTurn ([first], ImportSpec.whole)) (loop importTurn ([first], ImportSpec.whole)) := by
    have hturn : Progresses importTurn := progresses (@follows_importTurn false)
    refine .at_le (.loop rfl hturn hturn (fun found found' hfound => ?_) rfl) (by decide)
      (Footing.le_refl _)
    obtain rfl := hfound
    exact alike_importTurn found
  refine .bind hpath ?_
  rintro ⟨parts, spec⟩ _ rfl
  exact .bind (.semicolon rfl rfl) fun _ _ _ => .value rfl

theorem alike_constDecl (hg : g.Alike L g') (hended : φ.ended = false) :
    Alike L true inside hand φ .closed (Like L) (constDecl g) (constDecl g') := by
  refine .bind (.expectKeyword hended _) fun _ _ _ => ?_
  refine .bind (.name rfl) fun name name' hname => ?_
  refine .bind (.expect ⟨rfl, rfl, rfl, rfl, fun _ => rfl⟩ rfl) fun _ _ _ => ?_
  refine .bind (hg.atType rfl) fun type type' htype => ?_
  refine .bind (.expect ⟨rfl, rfl, rfl, rfl, fun _ => rfl⟩ rfl) fun _ _ _ => ?_
  refine .bind (hg.atExpr 0 rfl) fun value value' hvalue => ?_
  refine .bind (.semicolon rfl rfl) fun _ _ _ => .value ?_
  simp_all [relabel]

/-! ## Structs, aliases and enums -/

theorem alike_fieldDecl (hg : g.Alike L g') (hended : φ.ended = false) :
    Alike L loud inside hand φ .firm (Like L) (fieldDecl g) (fieldDecl g') := by
  refine .start fun start start' hstart => ?_
  refine .bind (.acceptIf ⟨rfl, rfl, rfl, rfl, fun _ => rfl⟩ hended) fun isVar isVar' hisVar => ?_
  refine .bind (.name (Footing.ended_look hended)) fun name name' hname => ?_
  refine .bind (.expect ⟨rfl, rfl, rfl, rfl, fun _ => rfl⟩ rfl) fun _ _ _ => ?_
  refine .bind (hg.atType rfl) fun type type' htype => ?_
  refine .part hstart fun span span' hspan => ?_
  simp_all [relabel]

theorem alike_fieldDecls (hg : g.Alike L g') (hended : φ.ended = false) :
    Alike L loud inside hand φ .behind (Like L) (fieldDecls g) (fieldDecls g') :=
  alike_separatedMembers (consumes_fieldDecl hg.left.type) (consumes_fieldDecl hg.right.type) hended
    ((alike_fieldDecl hg rfl).ends_le (by decide))

theorem alike_structRest (hg : g.Alike L g') (hended : φ.ended = false) :
    Alike L loud inside hand φ .behind (Like L) (structRest g) (structRest g') := by
  refine .bind (.name hended) fun name name' hname => ?_
  refine .bind (.at_le (alike_typeParams hg) (by decide) (Footing.le_refl _))
    fun typeParams typeParams' htypeParams => ?_
  refine .bind (alike_whereClause hg) fun whereClause whereClause' hwhereClause => ?_
  refine .map (alike_fieldDecls hg rfl) fun fields fields' hfields => ?_
  simp_all [relabel]

theorem alike_typeDecl (hg : g.Alike L g') (hended : φ.ended = false) :
    Alike L true inside hand φ .closed (Like L) (typeDecl g) (typeDecl g') := by
  refine .bind (.expectKeyword hended _) fun _ _ _ => ?_
  refine .queryOrFail (typeRest g) (typeRest g') rfl (fun cut s s' h _ => ?_)
    (fun _ _ h _ => declaresStruct_resembling h)
    (fun _ _ _ _ _ h hlt _ => deflected_typeRest hg.left hg.right hg.angles' h hlt) fun s s' _ _ => ?_
  · refine (declaresStruct_alike h).imp_right fun ⟨hcut, hstruct, hlacks⟩ =>
      ⟨by simp [hcut], by simp [hcut], fun setting => ?_⟩
    rw [hstruct]
    exact fails_alias hg.left hlacks
  · unfold typeRest
    split
    · refine .ends_le (.map (alike_structRest hg rfl) fun decl decl' hdecl => ?_) (by decide)
      simp_all [relabel]
    · refine .bind (.name rfl) fun name name' hname => ?_
      refine .bind (.at_le (alike_typeParams hg) (by decide) (Footing.le_refl _))
        fun typeParams typeParams' htypeParams => ?_
      refine .ifAccept ⟨rfl, rfl, rfl, rfl, fun _ => rfl⟩ rfl ?_ (.expected rfl _)
      refine .bind (hg.atType rfl) fun type type' htype => ?_
      refine .bind (.semicolon rfl rfl) fun _ _ _ => .value ?_
      simp_all [relabel]

theorem alike_variantKind (hg : g.Alike L g') (hended : φ.ended = false) :
    Alike L loud inside hand φ φ.look (Like L) (variantKind g) (variantKind g') := by
  have hlook : φ.look.look.still.ended = false := hended
  refine .ifAccept ⟨rfl, rfl, rfl, rfl, fun _ => rfl⟩ hended ?_
    (.ifSees nofun (Footing.ended_look hended) ?_ ?_)
  · exact .ends_le (.map (.commaList hg.left.type.mayConsume hg.right.type.mayConsume
      ⟨rfl, rfl, rfl, rfl, fun _ => rfl⟩ rfl ((hg.atType rfl).ends_le (by decide)))
      fun types types' htypes => by simp_all [relabel]) (Footing.behind_le _)
  · exact .ends_le (.map (alike_fieldDecls hg hlook) fun fields fields' hfields => by
      simp_all [relabel]) (Footing.behind_le _)
  · exact .value rfl

theorem alike_variant (hg : g.Alike L g') (hended : φ.ended = false) :
    Alike L loud inside hand φ .firm (Like L) (variant g) (variant g') := by
  refine .start fun start start' hstart => ?_
  refine .bind (.name hended) fun name name' hname => ?_
  refine .bind (alike_variantKind hg rfl) fun kind kind' hkind => ?_
  refine .ends_le (.part hstart fun span span' hspan => ?_) (by decide)
  simp_all [relabel]

theorem alike_enumDecl (hg : g.Alike L g') (hended : φ.ended = false) :
    Alike L loud inside hand φ .behind (Like L) (enumDecl g) (enumDecl g') := by
  refine .bind (.expectKeyword hended _) fun _ _ _ => ?_
  refine .bind (.name rfl) fun name name' hname => ?_
  refine .bind (.at_le (alike_typeParams hg) (by decide) (Footing.le_refl _))
    fun typeParams typeParams' htypeParams => ?_
  refine .bind (alike_whereClause hg) fun whereClause whereClause' hwhereClause => ?_
  refine .map (alike_separatedMembers (consumes_variant hg.left.type) (consumes_variant hg.right.type)
    rfl ((alike_variant hg rfl).ends_le (by decide))) fun variants variants' hvariants => ?_
  simp_all [relabel]

/-! ## Wire types -/

theorem alike_closeLists (depth : Nat) (type : WireType) (hended : φ.ended = false) :
    Alike L loud inside hand φ φ (· = ·) (closeLists depth type) (closeLists depth type) := by
  induction depth generalizing hand φ type with
  | zero => exact .value rfl
  | succ depth ih =>
    refine .bind (.expect ⟨rfl, rfl, rfl, rfl, fun _ => rfl⟩ hended) fun _ _ _ => ?_
    exact .ends_le (ih _ rfl) (Footing.behind_le _)

theorem alike_wireTypeTurn (found : Nat × String) :
    Alike L loud inside none .unread .unread (fun r r' => r.1 = r'.1 ∧ r.2 = r'.2)
      (wireTypeTurn found) (wireTypeTurn found) := by
  refine .bind (.valueOf ⟨rfl, rfl, rfl, rfl, fun _ => rfl⟩ rfl _) fun name name' hname => ?_
  obtain rfl := hname
  refine .ifKind (fun k => name == "list" && k.isSymbol .leftBracket) rfl
    (fun _ => Bool.and_false _) (Bool.and_false _) (fun k k' hk => ?_) (.done ⟨rfl, rfl⟩ (by decide))
  obtain rfl := TokenKind.eq_of_isSymbol (Bool.and_eq_true_iff.1 hk).2
  refine .pass rfl ⟨nofun, nofun, Footing.le_refl _⟩ ?_
  exact .done ⟨rfl, rfl⟩ (by decide)

theorem alike_wireType (hended : φ.ended = false) :
    Alike L loud inside hand φ .unread (· = ·) wireType wireType := by
  have hfollows (found : Nat × String) : (wireTypeTurn found).Follows false Prod.fst :=
    fun _ _ _ => Stretch.refl.last (consumes_wireTypeTurn found) fun _ _ => rfl
  have hloop : Alike L loud inside hand φ .unread (· = ·) (loop wireTypeTurn (0, ""))
      (loop wireTypeTurn (0, "")) := by
    refine .at_le (.loop rfl (progresses hfollows) (progresses hfollows) (fun found found' hfound => ?_)
      rfl) (Footing.le_unread hended) (Footing.le_refl _)
    obtain rfl := hfound
    exact alike_wireTypeTurn found
  refine .bind hloop ?_
  rintro ⟨depth, base⟩ _ rfl
  exact alike_closeLists depth _ rfl

theorem alike_tagList (hended : φ.ended = false) :
    Alike L loud inside hand φ .behind (Like L) tagList tagList := by
  refine .bind (.expect ⟨rfl, rfl, rfl, rfl, fun _ => rfl⟩ hended) fun _ _ _ => ?_
  refine .bind (.integer rfl) fun first first' hfirst => ?_
  have htag : Alike L loud inside none .unread .unread (Like L) integer integer :=
    .ends_le (Alike.integer rfl).like (by decide)
  have hinteger : integer.MayConsume false := consumes_integer.mayConsume
  refine .map (.commaTail hinteger hinteger ⟨rfl, rfl, rfl, rfl, fun _ => rfl⟩ rfl htag)
    fun more more' hmore => ?_
  simp_all

theorem alike_wireAttr (hg : g.Alike L g') :
    Alike L true inside hand .unread .unread (Like L) (wireAttr g) (wireAttr g') := by
  refine .ifAccept ⟨rfl, rfl, rfl, rfl, fun _ => rfl⟩ rfl (.done rfl (by decide)) ?_
  refine .ifAccept ⟨rfl, rfl, rfl, rfl, fun _ => rfl⟩ rfl (.done rfl (by decide)) ?_
  refine .ifAccept ⟨rfl, rfl, rfl, rfl, fun _ => rfl⟩ rfl ?_ ?_
  · refine .bind (.expect ⟨rfl, rfl, rfl, rfl, fun _ => rfl⟩ rfl) fun _ _ _ => ?_
    refine .bind (hg.atExpr 0 rfl) fun value value' hvalue => ?_
    refine .bind (.expect ⟨rfl, rfl, rfl, rfl, fun _ => rfl⟩ rfl) fun _ _ _ => ?_
    exact .done (by simp_all [relabel]) (by decide)
  refine .ifAccept ⟨rfl, rfl, rfl, rfl, fun _ => rfl⟩ rfl ?_ (.value rfl)
  refine .ends_le (.map (alike_tagList rfl) fun tags tags' htags => ?_) (by decide)
  simp_all [relabel]

theorem alike_attrTurn (hg : g.Alike L g') :
    Alike L true inside none .unread .unread (fun r r' => r.1 = r'.1 ∧ Like L r.2 r'.2) (attrTurn g)
      (attrTurn g') := by
  refine .bind (alike_wireAttr hg) fun attr attr' hattr => ?_
  cases attr with
  | none =>
    cases attr' with
    | none => exact .value ⟨rfl, rfl⟩
    | some => simp at hattr
  | some attr =>
    cases attr' with
    | none => simp at hattr
    | some attr' => exact .value ⟨rfl, by simp_all⟩

theorem alike_wireField (hg : g.Alike L g') (hended : φ.ended = false) :
    Alike L true inside hand φ .unread (Like L) (wireField g) (wireField g') := by
  refine .start fun start start' hstart => ?_
  refine .bind (.name hended) fun name name' hname => ?_
  refine .bind (.expect ⟨rfl, rfl, rfl, rfl, fun _ => rfl⟩ rfl) fun _ _ _ => ?_
  refine .bind (alike_wireType rfl) fun type type' htype => ?_
  refine .bind (.optional ⟨rfl, rfl, rfl, rfl, fun _ => rfl⟩ rfl (Footing.le_refl _)
    (.ends_le (Alike.integer rfl).like (Footing.behind_le _))) fun tag tag' htag => ?_
  refine .bind (.collect rfl (follows_attrTurn hg.left) (follows_attrTurn hg.right)
    (alike_attrTurn hg)) fun attrs attrs' hattrs => ?_
  refine .part hstart fun span span' hspan => ?_
  simp_all [relabel]

theorem alike_reservedTags {word : String} {k' : TokenKind} (hended : φ.ended = false) :
    Alike L loud inside (some (.ident word, k')) φ .behind (Like L) reservedTags reservedTags := by
  refine .start fun start start' hstart => ?_
  refine .pass hended ⟨nofun, nofun, Footing.le_refl _⟩ ?_
  refine .bind (alike_tagList rfl) fun tags tags' htags => ?_
  refine .part hstart fun span span' hspan => ?_
  simp_all [relabel]

theorem misses_reservedTags {setting : Setting} {s : State} (hnext : s.peek 1 = .symbol .semicolon) :
    reservedTags.Misses s.advance.rest.length setting s := by
  refine .of_ok (a := (s.span setting).start) rfl (.of_ok (a := ()) rfl (.bind (.bind ?_ _) _))
  exact misses_require (by rw [kind_advance, hnext]; rfl) _

/-- A field or a variant, as the token behind its name tells. -/
def fieldOrVariant (g : Rules) (isField : Bool) : Parser WireMember :=
  if isField then do
    pure (.field (← wireField g))
  else do
    pure (.variant (← variant g))

/-- A member of a wire type starts with a name. -/
theorem fieldOrVariant_eq_fail {setting : Setting} {s : State} (hs : s.kind.isName = false)
    (isField : Bool) :
    fieldOrVariant g isField setting s = .fail (s.expectedError setting .name) s := by
  have hname : name setting s = .fail (s.expectedError setting .name) s := name_eq_fail hs
  cases isField with
  | true => exact bind_fail ((bind_ok (a := (s.span setting).start) rfl).trans (bind_fail hname))
  | false => exact bind_fail ((bind_ok (a := (s.span setting).start) rfl).trans (bind_fail hname))

theorem deflected_fieldOrVariant {behind : List Lexeme} {setting setting' : Setting} {s s' : State}
    (h : Lexeme.Gapped behind s.rest s'.rest) (hlt : behind.length < s.rest.length) :
    (s.peek 1).isSymbol .colon = (s'.peek 1).isSymbol .colon ∨
      Deflected behind (fieldOrVariant g ((s.peek 1).isSymbol .colon))
        (fieldOrVariant g' ((s.peek 1).isSymbol .colon))
        (fieldOrVariant g' ((s'.peek 1).isSymbol .colon)) setting setting' s s' := by
  obtain ⟨-, hpeek⟩ | ⟨hlength, hpeek⟩ := h.peek hlt
  · exact .inl (hpeek.isSymbol_eq _)
  cases hcolon : (s.peek 1).isSymbol .colon with
  | false => exact .inl (by rw [hpeek]; rfl)
  | true =>
    right
    cases hname : s'.kind.isName with
    | false =>
      rw [Deflected, fieldOrVariant_eq_fail hname, fieldOrVariant_eq_fail hname]
      exact .inr (.inr rfl)
    | true =>
      -- the second run would miss the colon
      obtain ⟨word, hread⟩ : ∃ word, name setting' s' = .ok word s'.advance := by
        rw [name, valueOf_eq]
        cases hk : s'.kind <;> simp_all [TokenKind.isName]
      have hmisses : (wireField g').Misses s'.advance.rest.length setting' s' :=
        .of_ok (a := (s'.span setting').start) rfl
          (.of_ok hread ((misses_require (by rw [kind_advance, hpeek]; rfl) _).bind _))
      rw [(h.advance hlt).length_eq, hlength] at hmisses
      exact .inl (hmisses.bind _)

theorem alike_wireMember (hg : g.Alike L g') (hended : φ.ended = false) :
    Alike L true true hand φ .unread (Like L) (wireMember g) (wireMember g') := by
  refine .ifWordBefore "reserved" (·.isSymbol .leftParen) (fun _ _ => rfl) hended
    (fun setting s _ hnext => misses_reservedTags hnext)
    (fun k' => .ends_le (alike_reservedTags hended) (Footing.behind_le _)) ?_
  refine .queryOrFail (fieldOrVariant g) (fieldOrVariant g') (Footing.ended_look hended)
    (fun cut s s' h _ => ?_) (fun _ _ h _ => h.peek_resembles.isSymbol_eq _)
    (fun _ _ _ _ _ h hlt _ => deflected_fieldOrVariant h hlt) fun s s' _ _ => ?_
  · obtain hnext | ⟨symbol, hcut, hkind⟩ := h.next
    · rw [← kind_advance, ← kind_advance]
      exact .inl (hnext.kind_alike.isSymbol_eq _)
    · exact .inr ⟨by simp [hcut], fun _ => rfl, fun setting =>
        ⟨_, _, fieldOrVariant_eq_fail (by rw [hkind]; rfl) _⟩⟩
  · unfold fieldOrVariant
    split
    · refine .map (alike_wireField hg hended) fun field field' hfield => ?_
      simp_all [relabel]
    · refine .ends_le (.map (alike_variant hg hended) fun variant variant' hvariant => ?_) (by decide)
      simp_all [relabel]

theorem alike_wireKind (hended : φ.ended = false) :
    Alike L loud inside hand φ .behind (· = ·) wireKind wireKind := by
  refine .ifAccept ⟨rfl, rfl, rfl, rfl, fun _ => rfl⟩ hended (.value rfl) ?_
  refine .ifAccept ⟨rfl, rfl, rfl, rfl, fun _ => rfl⟩ (Footing.ended_look hended) (.value rfl) ?_
  exact .expected (Footing.ended_look (Footing.ended_look hended)) _

theorem alike_wireDecl (hg : g.Alike L g') (hended : φ.ended = false) :
    Alike L true inside hand φ .behind (Like L) (wireDecl g) (wireDecl g') := by
  refine .bind (.expectKeyword hended _) fun _ _ _ => ?_
  refine .bind (alike_wireKind rfl) fun kind kind' hkind => ?_
  refine .bind (.name rfl) fun name name' hname => ?_
  refine .map (alike_separatedMembers (consumes_wireMember hg.left) (consumes_wireMember hg.right) rfl
    (alike_wireMember hg rfl)) fun members members' hmembers => ?_
  simp_all [relabel]

/-! ## Functions -/

theorem alike_param (hg : g.Alike L g') (hended : φ.ended = false) :
    Alike L loud inside hand φ .firm (Like L) (param g) (param g') := by
  refine .start fun start start' hstart => ?_
  refine .ifAccept ⟨rfl, rfl, rfl, rfl, fun _ => rfl⟩ hended ?_ ?_
  · refine .bind (alike_typeAfterColon (χ := .firm) hg rfl (by decide) (by decide))
      fun type type' htype => ?_
    refine .part hstart fun span span' hspan => ?_
    simp_all [relabel]
  · refine .bind (.name (Footing.ended_look hended)) fun name name' hname => ?_
    refine .bind (.expect ⟨rfl, rfl, rfl, rfl, fun _ => rfl⟩ rfl) fun _ _ _ => ?_
    refine .bind (hg.atType rfl) fun type type' htype => ?_
    refine .part hstart fun span span' hspan => ?_
    simp_all [relabel]

theorem alike_params (hg : g.Alike L g') (hended : φ.ended = false) :
    Alike L loud inside hand φ .behind (Like L) (params g) (params g') := by
  refine .bind (.expect ⟨rfl, rfl, rfl, rfl, fun _ => rfl⟩ hended) fun _ _ _ => ?_
  exact .commaList (consumes_param hg.left.type).mayConsume (consumes_param hg.right.type).mayConsume
    ⟨rfl, rfl, rfl, rfl, fun _ => rfl⟩ (by decide) ((alike_param hg rfl).ends_le (by decide))

theorem alike_variadicTurn (hg : g.Alike L g') {found found' : List Param × Bool}
    (hfound : Like L found.1 found'.1 ∧ found.2 = found'.2) :
    Alike L loud inside none .unread .unread
      (fun r r' => r.1 = r'.1 ∧ Like L r.2.1 r'.2.1 ∧ r.2.2 = r'.2.2) (variadicTurn g found)
      (variadicTurn g' found') := by
  refine .ifSees nofun rfl (.value ⟨rfl, hfound.1, rfl⟩) ?_
  refine .ifAccept ⟨rfl, rfl, rfl, rfl, fun _ => rfl⟩ rfl (.done ⟨rfl, hfound.1, rfl⟩ (by decide)) ?_
  refine .bind (alike_param hg rfl) fun next next' hnext => ?_
  refine .ends_le (.map (.acceptIf ⟨rfl, rfl, rfl, rfl, fun _ => rfl⟩ rfl)
    fun again again' hagain => ⟨hagain, ?_⟩) (by decide)
  simp_all

theorem alike_variadicParams (hg : g.Alike L g') (hended : φ.ended = false) :
    Alike L loud inside hand φ .behind (fun r r' => Like L r.1 r'.1 ∧ r.2 = r'.2)
      (variadicParams g) (variadicParams g') := by
  refine .bind (.expect ⟨rfl, rfl, rfl, rfl, fun _ => rfl⟩ hended) fun _ _ _ => ?_
  have hloop : Alike L loud inside none .behind .unread (fun r r' => Like L r.1 r'.1 ∧ r.2 = r'.2)
      (loop (variadicTurn g) ([], false)) (loop (variadicTurn g') ([], false)) :=
    .at_le (.loop rfl (progresses (follows_variadicTurn hg.left.type))
      (progresses (follows_variadicTurn hg.right.type))
      (fun found found' hfound => alike_variadicTurn hg hfound) ⟨rfl, rfl⟩) (by decide)
      (Footing.le_refl _)
  refine .bind hloop fun found found' hfound => ?_
  refine .bind (.expect ⟨rfl, rfl, rfl, rfl, fun _ => rfl⟩ rfl) fun _ _ _ => .value ?_
  have hreverse := relabel_reverse L.relabeling found.1
  simp_all

theorem alike_fnBody (hg : g.Alike L g') (rule : BodyRule) (hended : φ.ended = false) :
    Alike L true inside hand φ .closed (Like L) (fnBody g rule) (fnBody g' rule) := by
  have hlook : φ.look.still.ended = false := hended
  have hbody {hand : Hand} : Alike L true inside hand φ.look.still .closed (Like L)
      (do let body ← g.block; pure (some body)) (do let body ← g'.block; pure (some body)) :=
    .ends_le (.map (hg.atBlock hlook) fun body body' hbody => by simp_all) (by decide)
  have hends {k : TokenKind} {k' : TokenKind}
      (hk : (rule == .optional && k.isSymbol .semicolon) = true) :
      Alike L true inside (some (k, k')) φ.look.still .closed (Like L)
        (advance >>= fun _ => pure none : Parser (Option Block))
        (advance >>= fun _ => pure none) := by
    obtain rfl := TokenKind.eq_of_isSymbol (Bool.and_eq_true_iff.1 hk).2
    exact .pass hlook ⟨nofun, nofun, Footing.le_refl _⟩ (.value rfl)
  refine .onKind (fun k => if rule == .optional && k.isSymbol .semicolon then
      (do advance; pure none) else (do let body ← g.block; pure (some body)))
    (fun k => if rule == .optional && k.isSymbol .semicolon then
      (do advance; pure none) else (do let body ← g'.block; pure (some body))) hended
    (fun _ _ _ => ?_) fun k => ?_
  · simpa only [TokenKind.isSymbol, Bool.and_false, Bool.false_eq_true, if_false] using hbody
  · split
    case isTrue hk => exact hends hk
    case isFalse => exact hbody

theorem alike_fnResult (hg : g.Alike L g') (flavor : FnFlavor) :
    Alike L loud inside hand .firm .firm (Like L) (fnResult g flavor) (fnResult g' flavor) := by
  refine .bind (alike_resultType hg) fun ret ret' hret => ?_
  have hnone : ret.isNone = ret'.isNone := by
    cases ret <;> cases ret' <;> simp_all
  rw [hnone]
  split
  · exact .expected rfl _
  · exact .value hret

theorem alike_fnRest (hg : g.Alike L g') {start start' : Nat} (hstart : L.SameOffset start start')
    (flavor : FnFlavor) (rule : BodyRule) (hended : φ.ended = false) :
    Alike L true inside hand φ .closed (Like L) (fnRest g start flavor rule)
      (fnRest g' start' flavor rule) := by
  refine .bind (.name hended) fun name name' hname => ?_
  refine .bind (.at_le (alike_typeParams hg) (by decide) (Footing.le_refl _))
    fun typeParams typeParams' htypeParams => ?_
  refine .bind (alike_params hg rfl) fun params params' hparams => ?_
  refine .bind (.at_le (alike_fnResult hg flavor) (by decide) (Footing.le_refl _))
    fun ret ret' hret => ?_
  refine .bind (alike_whereClause hg) fun whereClause whereClause' hwhereClause => ?_
  refine .bind (alike_fnBody hg rule rfl) fun body body' hbody => ?_
  refine .part hstart fun span span' hspan => ?_
  simp_all [relabel]

theorem alike_fnDecl (hg : g.Alike L g') (rule : BodyRule) (hended : φ.ended = false) :
    Alike L true inside hand φ .closed (Like L) (fnDecl g rule) (fnDecl g' rule) := by
  have hlook : φ.look.still.ended = false := hended
  refine .start fun start start' hstart => ?_
  refine .bind (.acceptIf ⟨rfl, rfl, rfl, rfl, fun _ => rfl⟩ hended) fun isAsync isAsync' hasync => ?_
  refine .bind (.acceptIf ⟨rfl, rfl, rfl, rfl, fun _ => rfl⟩ hlook) fun isGen isGen' hgen => ?_
  obtain rfl := hasync
  obtain rfl := hgen
  refine .bind (.expectKeyword (Footing.ended_look hlook) _) fun _ _ _ => ?_
  exact alike_fnRest hg hstart _ rule rfl

theorem alike_externFn (hg : g.Alike L g') (hended : φ.ended = false) :
    Alike L true inside hand φ .closed (Like L) (externFn g) (externFn g') := by
  refine .start fun start start' hstart => ?_
  refine .bind (.expectKeyword (φ := φ.still) hended _) fun _ _ _ => ?_
  refine .bind (.name rfl) fun name name' hname => ?_
  refine .bind (alike_variadicParams hg rfl) fun found found' hfound => ?_
  obtain ⟨params, dots⟩ := found
  obtain ⟨params', dots'⟩ := found'
  refine .bind (.at_le (alike_resultType hg) (by decide) (Footing.le_refl _))
    fun ret ret' hret => ?_
  refine .bind (.acceptIf ⟨rfl, rfl, rfl, rfl, fun _ => rfl⟩ rfl) fun moreDots moreDots' hdots => ?_
  refine .bind (.semicolon rfl rfl) fun _ _ _ => ?_
  refine .part hstart fun span span' hspan => ?_
  simp_all [relabel]

theorem alike_externBlock (hg : g.Alike L g') (hended : φ.ended = false) :
    Alike L true inside hand φ .behind (Like L) (externBlock g) (externBlock g') := by
  refine .bind (.expectKeyword hended _) fun _ _ _ => ?_
  refine .bind (.string rfl) fun abi abi' habi => ?_
  refine .map (alike_members (consumes_externFn hg.left.type.louder)
    (consumes_externFn hg.right.type.louder) breaksOff_externFn rfl (alike_externFn hg rfl))
    fun fns fns' hfns => ?_
  simp_all [relabel]

/-! ## Traits and implementations -/

/-- A keyword that has been looked at. -/
theorem alike_ifKeyword {β : Type} {R : β → β → Prop} {keyword : Keyword}
    {yes yes' no no' : Parser β} (hended : φ.ended = false)
    (hyes : ∀ k', Alike L loud inside (some (.keyword keyword, k')) φ.look.still χ R yes yes')
    (hno : Alike L loud inside none φ.look χ R no no') :
    Alike L loud inside hand φ χ R (do if ← seesKeyword keyword then yes else no)
      (do if ← seesKeyword keyword then yes' else no') := by
  refine .ifKind (·.isKeyword keyword) hended (fun _ => rfl) rfl (fun k k' hk => ?_) hno
  obtain rfl := TokenKind.eq_of_isKeyword hk
  exact hyes k'

theorem alike_traitType {keyword : Keyword} {k' : TokenKind} (hg : g.Alike L g')
    (hended : φ.ended = false) :
    Alike L true inside (some (.keyword keyword, k')) φ .closed (Like L) (traitType g)
      (traitType g') := by
  refine .start fun start start' hstart => ?_
  refine .pass hended ⟨nofun, nofun, Footing.le_refl _⟩ ?_
  refine .bind (.name rfl) fun name name' hname => ?_
  refine .bind (.at_le (alike_boundsAfterColon hg) (by decide) (Footing.le_refl _))
    fun bounds bounds' hbounds => ?_
  refine .bind (.optional ⟨rfl, rfl, rfl, rfl, fun _ => rfl⟩ rfl (Footing.le_refl _) (hg.atType rfl))
    fun default default' hdefault => ?_
  refine .bind (.semicolon rfl rfl) fun _ _ _ => ?_
  refine .part hstart fun span span' hspan => ?_
  simp_all [relabel]

theorem alike_traitItem (hg : g.Alike L g') (hended : φ.ended = false) :
    Alike L true inside hand φ .closed (Like L) (traitItem g) (traitItem g') := by
  have hlook : φ.look.still.ended = false := hended
  refine alike_ifKeyword hended (fun k' => alike_traitType hg hlook) ?_
  exact .map (alike_fnDecl hg .optional hlook) fun decl decl' hdecl => by simp_all [relabel]

theorem alike_traitDecl (hg : g.Alike L g') (hended : φ.ended = false) :
    Alike L true inside hand φ .behind (Like L) (traitDecl g) (traitDecl g') := by
  refine .bind (.expectKeyword hended _) fun _ _ _ => ?_
  refine .bind (.name rfl) fun name name' hname => ?_
  refine .bind (.at_le (alike_typeParams hg) (by decide) (Footing.le_refl _))
    fun typeParams typeParams' htypeParams => ?_
  refine .bind (alike_boundsAfterColon hg) fun supertraits supertraits' hsupertraits => ?_
  refine .bind (alike_whereClause hg) fun whereClause whereClause' hwhereClause => ?_
  refine .map (alike_members (consumes_traitItem hg.left) (consumes_traitItem hg.right)
    breaksOff_traitItem rfl (alike_traitItem hg rfl)) fun items items' hitems => ?_
  simp_all [relabel]

theorem alike_implType {keyword : Keyword} {k' : TokenKind} (hg : g.Alike L g')
    (hended : φ.ended = false) :
    Alike L true inside (some (.keyword keyword, k')) φ .closed (Like L) (implType g)
      (implType g') := by
  refine .start fun start start' hstart => ?_
  refine .pass hended ⟨nofun, nofun, Footing.le_refl _⟩ ?_
  refine .bind (.name rfl) fun name name' hname => ?_
  refine .bind (.expect ⟨rfl, rfl, rfl, rfl, fun _ => rfl⟩ rfl) fun _ _ _ => ?_
  refine .bind (hg.atType rfl) fun type type' htype => ?_
  refine .bind (.semicolon rfl rfl) fun _ _ _ => ?_
  refine .part hstart fun span span' hspan => ?_
  simp_all [relabel]

theorem alike_implItem (hg : g.Alike L g') (hended : φ.ended = false) :
    Alike L true inside hand φ .closed (Like L) (implItem g) (implItem g') := by
  have hlook : φ.look.still.ended = false := hended
  refine alike_ifKeyword hended (fun k' => alike_implType hg hlook) ?_
  exact .map (alike_fnDecl hg .required hlook) fun decl decl' hdecl => by simp_all [relabel]

/-- Types that are alike name the same trait, or name none. -/
theorem alike_traitOf {type type' : TypeExpr} (h : L.SameType type type') (hended : φ.ended = false) :
    Alike L loud inside hand φ φ (Like L) (traitOf type) (traitOf type') := by
  obtain ⟨hlike, hplaced⟩ := h
  obtain ⟨id, span, kind⟩ := type
  obtain ⟨id', span', kind'⟩ := type'
  have hspan : L.SameSpan span span' := hplaced.1
  have hfails : Alike L loud inside hand φ φ (Like L)
      (fun _ s => .fail ⟨.expected .traitName (.keyword .forKw), span⟩ s : Parser Bound)
      (fun _ s => .fail ⟨.expected .traitName (.keyword .forKw), span'⟩ s : Parser Bound) := by
    refine .fails hended ?_ (fun _ _ => rfl) ?_
    · intro hspans _ _ _ _ _
      rw [Likeness.sameSpan_iff.1 hspan hspans]
    · intro p hp _ _ _ _ _ _ _
      exact ⟨hplaced.2 p hp, rfl, rfl, rfl, rfl⟩
  cases kind <;> cases kind' <;> simp_all only [Like, relabel_typeExpr, TypeExpr.relabel,
    TypeKind.relabel, TypeExpr.mk.injEq, reduceCtorEq, and_false]
  case named path args path' args' => exact .value (by simp_all)
  all_goals exact hfails

theorem alike_implHead (hg : g.Alike L g') (hended : φ.ended = false) :
    Alike L loud inside hand φ .firm (Like L) (implHead g) (implHead g') := by
  refine .bind (hg.atPlacedType hended) fun first first' hfirst => ?_
  have hlike := hfirst.1
  refine .ifAccept ⟨rfl, rfl, rfl, rfl, fun _ => rfl⟩ rfl ?_ (.value (by simp_all))
  refine .bind (alike_traitOf hfirst rfl) fun traitRef traitRef' htraitRef => ?_
  exact .map (hg.atType rfl) fun selfType selfType' hselfType => by simp_all

theorem alike_implDecl (hg : g.Alike L g') (hended : φ.ended = false) :
    Alike L true inside hand φ .behind (Like L) (implDecl g) (implDecl g') := by
  refine .bind (.expectKeyword hended _) fun _ _ _ => ?_
  refine .bind (.at_le (alike_typeParams hg) (by decide) (Footing.le_refl _))
    fun typeParams typeParams' htypeParams => ?_
  refine .bind (alike_implHead hg rfl) fun head head' hhead => ?_
  obtain ⟨traitRef, selfType⟩ := head
  obtain ⟨traitRef', selfType'⟩ := head'
  refine .bind (alike_whereClause hg) fun whereClause whereClause' hwhereClause => ?_
  refine .map (alike_members (consumes_implItem hg.left) (consumes_implItem hg.right)
    breaksOff_implItem rfl (alike_implItem hg rfl)) fun items items' hitems => ?_
  simp_all [relabel]

/-! ## Actors -/

theorem alike_fallback (hended : φ.ended = false) (wanted : Expected) :
    Alike L loud inside hand φ .behind (· = ·)
      (valueOf (fun | .ident word => OverflowFallback.ofName? word | _ => none) wanted)
      (valueOf (fun | .ident word => OverflowFallback.ofName? word | _ => none) wanted) :=
  .valueOf ⟨rfl, rfl, rfl, rfl, fun _ => rfl⟩ hended wanted

instance : Relabeled OverflowFallback := ⟨fun _ a => a⟩

instance : Relabeled OverflowPolicy := ⟨fun _ a => a⟩

theorem alike_overflowPolicy (hended : φ.ended = false) :
    Alike L loud inside hand φ .firm (· = ·) overflowPolicy overflowPolicy := by
  refine .ifAccept ⟨rfl, rfl, rfl, rfl, fun _ => rfl⟩ hended ?_ ?_
  · refine .bind (.expect ⟨rfl, rfl, rfl, rfl, fun _ => rfl⟩ rfl) fun _ _ _ => ?_
    refine .bind (.name rfl) fun reducer reducer' hreducer => ?_
    refine .bind (.expect ⟨rfl, rfl, rfl, rfl, fun _ => rfl⟩ rfl) fun _ _ _ => ?_
    refine .map (.optional ⟨rfl, rfl, rfl, rfl, fun _ => rfl⟩ rfl (Footing.le_refl _)
      (.ends_le (Alike.like (alike_fallback rfl _)) (by decide))) fun fallback fallback' hfallback => ?_
    have hfallback : fallback = fallback' := by
      cases fallback <;> cases fallback' <;> simp_all [relabel]
    rw [hreducer, hfallback]
  · refine .ends_le (.map (alike_fallback (Footing.ended_look hended) _) fun policy policy' h => ?_)
      (by decide)
    rw [h]

theorem alike_mailboxDecl (hended : φ.ended = false) :
    Alike L true inside hand φ .closed (Like L) mailboxDecl mailboxDecl := by
  refine .start fun start start' hstart => ?_
  refine .bind (.expectKeyword (φ := φ.still) hended _) fun _ _ _ => ?_
  refine .bind (.integer rfl) fun capacity capacity' hcapacity => ?_
  refine .bind (.optional ⟨rfl, rfl, rfl, rfl, fun _ => rfl⟩ rfl (by decide)
    (Alike.like (alike_overflowPolicy rfl))) fun overflow overflow' hoverflow => ?_
  refine .bind (.semicolon rfl rfl) fun _ _ _ => ?_
  refine .part hstart fun span span' hspan => ?_
  have hoverflow : overflow = overflow' := by
    cases overflow <;> cases overflow' <;> simp_all [relabel]
  simp_all [relabel]

theorem alike_actorField {keyword : Keyword} (hg : g.Alike L g') (hended : φ.ended = false) :
    Alike L true inside (some (.keyword keyword, .keyword keyword)) φ .closed (Like L)
      (actorField g) (actorField g') := by
  refine .start fun start start' hstart => ?_
  refine .look (φ := φ.still) (some (.keyword keyword)) hended
    (fun cut s s' h _ _ => .inl (h.kind_alike.isKeyword_eq _)) (fun s s' _ _ => ?_) (by simp)
    (fun _ _ _ h _ => h.kind_resembles.isKeyword_eq _)
    (fun _ _ _ _ _ _ h hlt _ _ => .inl ((h.kind_resembles hlt).isKeyword_eq _)) (fun _ => .passes)
    (fun _ => nofun) (fun _ => nofun) (fun _ => nofun)
  refine .pass hended ⟨nofun, nofun, Footing.le_refl _⟩ ?_
  refine .bind (.name rfl) fun name name' hname => ?_
  refine .bind (.expect ⟨rfl, rfl, rfl, rfl, fun _ => rfl⟩ rfl) fun _ _ _ => ?_
  refine .bind (hg.atType rfl) fun type type' htype => ?_
  refine .bind (.optional ⟨rfl, rfl, rfl, rfl, fun _ => rfl⟩ rfl (by decide) (hg.atExpr 0 rfl))
    fun init init' hinit => ?_
  refine .bind (.semicolon rfl rfl) fun _ _ _ => ?_
  refine .part hstart fun span span' hspan => ?_
  simp_all [relabel]

theorem alike_receiveFn {word : String} {k' : TokenKind} (hg : g.Alike L g')
    (hended : φ.ended = false) :
    Alike L true inside (some (.ident word, k')) φ .closed (Like L) (receiveFn g)
      (receiveFn g') := by
  refine .start fun start start' hstart => ?_
  refine .pass hended ⟨nofun, nofun, Footing.le_refl _⟩ ?_
  refine .bind (.acceptIf ⟨rfl, rfl, rfl, rfl, fun _ => rfl⟩ rfl) fun isGen isGen' hgen => ?_
  obtain rfl := hgen
  refine .bind (.expectKeyword rfl _) fun _ _ _ => ?_
  exact .map (alike_fnRest hg hstart _ .required rfl) fun decl decl' hdecl => by simp_all [relabel]

theorem alike_actorMember (hg : g.Alike L g') (hended : φ.ended = false) :
    Alike L true inside hand φ .closed (Like L) (actorMember g) (actorMember g') := by
  have hlook : φ.look.still.ended = false := hended
  have hmethod {hand : Hand} : Alike L true inside hand φ.look.still .closed (Like L)
      (do pure (.method (← fnDecl g .required)) : Parser ActorMember)
      (do pure (.method (← fnDecl g' .required)) : Parser ActorMember) :=
    .map (alike_fnDecl hg .required hlook) fun decl decl' hdecl => by simp_all [relabel]
  refine .onKind _ _ hended (fun _ _ _ => .expected hlook _) fun k => ?_
  split
  · exact alike_actorField hg hlook
  · exact alike_actorField hg hlook
  · exact .map (alike_mailboxDecl hlook) fun decl decl' hdecl => by simp_all [relabel]
  · exact alike_receiveFn hg hlook
  · exact hmethod
  · exact hmethod
  · exact hmethod
  · exact .expected hlook _

theorem alike_actorInit {word : String} {k' : TokenKind} (hg : g.Alike L g')
    (hended : φ.ended = false) :
    Alike L true inside (some (.ident word, k')) φ .behind (Like L) (actorInit g)
      (actorInit g') := by
  refine .start fun start start' hstart => ?_
  refine .pass hended ⟨nofun, nofun, Footing.le_refl _⟩ ?_
  refine .bind (alike_params hg rfl) fun params params' hparams => ?_
  refine .bind (hg.atBlock rfl) fun body body' hbody => ?_
  refine .part hstart fun span span' hspan => ?_
  simp_all [relabel]

theorem misses_actorInit {setting : Setting} {s : State} (hnext : s.peek 1 = .symbol .semicolon) :
    (actorInit g).Misses s.advance.rest.length setting s := by
  refine .of_ok (a := (s.span setting).start) rfl (.of_ok (a := ()) rfl (.bind (.bind ?_ _) _))
  exact misses_require (by rw [kind_advance, hnext]; rfl) _

theorem alike_actorPart (hg : g.Alike L g') {found found' : Option ActorInit × List ActorMember}
    (hfound : Like L found found') (hended : φ.ended = false) :
    Alike L true true hand φ .closed (Like L) (actorPart g found) (actorPart g' found') := by
  have hlook : φ.look.still.ended = false := hended
  obtain ⟨init, members⟩ := found
  obtain ⟨init', members'⟩ := found'
  obtain ⟨hinit, hmembers⟩ : Like L init init' ∧ Like L members members' := by simpa using hfound
  refine .ifWordBefore "init" (·.isSymbol .leftParen) (fun _ _ => rfl) hended
    (fun setting s _ hnext => .of_ok (a := s.span setting) rfl ((misses_actorInit hnext).bind _))
    (fun k' => ?_) ?_
  · refine .span fun keyword keyword' hkeyword => ?_
    refine .bind (alike_actorInit hg hlook) fun decl decl' hdecl => ?_
    cases init with
    | none =>
      cases init' with
      | none => exact .done (by simp_all) (by decide)
      | some => simp at hinit
    | some first =>
      cases init' with
      | none => simp at hinit
      | some first' =>
        refine .bind (.duplicate .initBlock hkeyword) fun _ _ _ => ?_
        exact .done (by simp_all) (by decide)
  · exact .map (alike_actorMember hg hlook) fun next next' hnext => by simp_all

theorem alike_actorDecl (hg : g.Alike L g') (hended : φ.ended = false) :
    Alike L true inside hand φ .behind (Like L) (actorDecl g) (actorDecl g') := by
  refine .bind (.expectKeyword hended _) fun _ _ _ => ?_
  refine .bind (.name rfl) fun name name' hname => ?_
  refine .bind (.at_le (alike_typeParams hg) (by decide) (Footing.le_refl _))
    fun typeParams typeParams' htypeParams => ?_
  refine .bind (alike_boundsAfterColon hg) fun bounds bounds' hbounds => ?_
  refine .bind (alike_whereClause hg) fun whereClause whereClause' hwhereClause => ?_
  have hbody : Alike L true inside none .loose .behind (Like L) (membersIn (actorPart g) (none, []))
      (membersIn (actorPart g') (none, [])) :=
    alike_membersIn (consumes_actorPart hg.left) (consumes_actorPart hg.right) breaksOff_actorPart rfl
      (fun found found' hfound => alike_actorPart hg hfound rfl) rfl
  refine .bind hbody fun found found' hfound => .value ?_
  obtain ⟨init, members⟩ := found
  obtain ⟨init', members'⟩ := found'
  have hreverse := relabel_reverse L.relabeling members
  simp_all [relabel]

/-! ## Supervisors -/

theorem alike_namedArg {α : Type} {ofName? : String → Option α} {wanted : Expected}
    (hended : φ.ended = false) :
    Alike L loud inside hand φ .behind (· = ·) (namedArg ofName? wanted)
      (namedArg ofName? wanted) := by
  refine .bind (.expect ⟨rfl, rfl, rfl, rfl, fun _ => rfl⟩ hended) fun _ _ _ => ?_
  refine .bind (.valueOf ⟨rfl, rfl, rfl, rfl, fun _ => rfl⟩ rfl _) fun value value' hvalue => ?_
  exact .bind (.expect ⟨rfl, rfl, rfl, rfl, fun _ => rfl⟩ rfl) fun _ _ _ => .value hvalue

instance : Relabeled RestartBudget := ⟨fun _ a => a⟩

instance : Relabeled RestartStrategy := ⟨fun _ a => a⟩

instance : Relabeled RestartSpec := ⟨fun _ a => a⟩

theorem alike_restartBudget (hended : φ.ended = false) :
    Alike L loud inside hand φ .behind (· = ·) restartBudget restartBudget := by
  refine .bind (.expect ⟨rfl, rfl, rfl, rfl, fun _ => rfl⟩ hended) fun _ _ _ => ?_
  refine .bind (.integer rfl) fun maxRestarts maxRestarts' hmax => ?_
  refine .bind (.expect ⟨rfl, rfl, rfl, rfl, fun _ => rfl⟩ rfl) fun _ _ _ => ?_
  refine .bind (alike_duration rfl) fun window window' hwindow => ?_
  exact .bind (.expect ⟨rfl, rfl, rfl, rfl, fun _ => rfl⟩ rfl) fun _ _ _ => .value (by simp_all)

theorem alike_restartSpec (hended : φ.ended = false) :
    Alike L loud inside hand φ .firm (· = ·) restartSpec restartSpec := by
  refine .bind (alike_namedArg hended) fun policy policy' hpolicy => ?_
  refine .bind (.optional ⟨rfl, rfl, rfl, rfl, fun _ => rfl⟩ rfl (Footing.le_refl _)
    (.ends_le (Alike.like (alike_restartBudget rfl)) (by decide))) fun budget budget' hbudget => ?_
  refine .map (.optional ⟨rfl, rfl, rfl, rfl, fun _ => rfl⟩ rfl (Footing.le_refl _)
    (.ends_le (Alike.like (alike_namedArg rfl)) (by decide))) fun strategy strategy' hstrategy => ?_
  have hbudget : budget = budget' := by
    cases budget <;> cases budget' <;> simp_all [relabel]
  have hstrategy : strategy = strategy' := by
    cases strategy <;> cases strategy' <;> simp_all [relabel]
  rw [hpolicy, hbudget, hstrategy]

theorem alike_childSpec (hended : φ.ended = false) :
    Alike L true inside hand φ .closed (Like L) childSpec childSpec := by
  refine .start fun start start' hstart => ?_
  refine .bind (.expectWord (φ := φ.still) hended _) fun _ _ _ => ?_
  refine .bind (.name rfl) fun name name' hname => ?_
  refine .bind (.expect ⟨rfl, rfl, rfl, rfl, fun _ => rfl⟩ rfl) fun _ _ _ => ?_
  refine .bind (.name rfl) fun actor actor' hactor => ?_
  refine .bind (.optional ⟨rfl, rfl, rfl, rfl, fun _ => rfl⟩ rfl (by decide)
    (Alike.like (alike_restartSpec rfl))) fun restart restart' hrestart => ?_
  refine .bind (.semicolon rfl rfl) fun _ _ _ => ?_
  refine .part hstart fun span span' hspan => ?_
  have hrestart : restart = restart' := by
    cases restart <;> cases restart' <;> simp_all [relabel]
  simp_all [relabel]

theorem alike_supervisorField (hg : g.Alike L g') (hended : φ.ended = false) :
    Alike L true inside hand φ .finished (Like L) (supervisorField g) (supervisorField g') := by
  refine .start fun start start' hstart => ?_
  refine .bind (.name (φ := φ.still) hended) fun name name' hname => ?_
  refine .bind (.expect ⟨rfl, rfl, rfl, rfl, fun _ => rfl⟩ rfl) fun _ _ _ => ?_
  refine .bind (hg.atExpr 0 rfl) fun value value' hvalue => ?_
  refine .bind (.spanFrom hstart) fun span span' hspan => ?_
  refine .bind (alike_memberSeparator rfl (by decide) (by decide)) fun _ _ _ => .value ?_
  simp_all [relabel]

theorem misses_supervisorField {setting : Setting} {s : State} {word : String}
    (hs : s.kind = .ident word) (hnext : s.peek 1 = .symbol .semicolon) :
    (supervisorField g).Misses s.advance.rest.length setting s := by
  have hread : name setting s = .ok word s.advance := by rw [name, valueOf_eq, hs]
  refine .of_ok (a := (s.span setting).start) rfl (.of_ok hread (.bind ?_ _))
  exact misses_require (by rw [kind_advance, hnext]; rfl) _

theorem alike_supervisorMember (hg : g.Alike L g') (hended : φ.ended = false) :
    Alike L true inside hand φ .finished (Like L) (supervisorMember g) (supervisorMember g') := by
  have hlook : φ.look.still.ended = false := hended
  refine .ifWordBefore "child" (fun k => !k.isSymbol .colon) (fun _ _ => rfl) hended
    (fun setting s hs hnext => misses_supervisorField hs hnext) (fun k' => ?_)
    (alike_supervisorField hg hended)
  refine .ends_le (.map (alike_childSpec hlook) fun child child' hchild => ?_) (by decide)
  simp_all [relabel]

theorem alike_supervisorDecl (hg : g.Alike L g') (hended : φ.ended = false) :
    Alike L true inside hand φ .behind (Like L) (supervisorDecl g) (supervisorDecl g') := by
  refine .bind (.expectKeyword hended _) fun _ _ _ => ?_
  refine .bind (.name rfl) fun name name' hname => ?_
  refine .map (alike_members (consumes_supervisorMember hg.left)
    (consumes_supervisorMember hg.right) breaksOff_supervisorMember rfl (alike_supervisorMember hg rfl))
    fun members members' hmembers => ?_
  simp_all [relabel]

/-! ## Items and programs -/

theorem alike_itemKind (hg : g.Alike L g') (hended : φ.ended = false) :
    Alike L true inside hand φ .closed (Like L) (itemKind g) (itemKind g') := by
  have hlook : φ.look.still.ended = false := hended
  have hmade {α : Type} {hand : Hand} {p p' : Parser α} {R : α → α → Prop} {make : α → ItemKind}
      (h : Alike L true inside hand φ.look.still .closed R p p')
      (hmake : ∀ a a', R a a' → Like L (make a) (make a')) :
      Alike L true inside hand φ.look.still .closed (Like L) (do pure (make (← p)))
        (do pure (make (← p'))) := .map h hmake
  refine .onKind _ _ hended (fun _ _ _ => .expected hlook _) fun k => ?_
  split
  · exact hmade (alike_importDecl hlook) fun decl decl' h => congrArg ItemKind.importDecl h
  · exact hmade (alike_constDecl hg hlook) fun decl decl' h => congrArg ItemKind.const h
  · exact alike_typeDecl hg hlook
  · refine hmade (.pass hlook ⟨nofun, nofun, Footing.le_refl _⟩
      (.ends_le (alike_structRest hg rfl) (by decide))) fun decl decl' h => ?_
    exact congrArg ItemKind.struct h
  · exact hmade (.ends_le (alike_enumDecl hg hlook) (by decide)) fun decl decl' h =>
      congrArg ItemKind.enum h
  · exact hmade (.ends_le (alike_wireDecl hg hlook) (by decide)) fun decl decl' h =>
      congrArg ItemKind.wire h
  · exact hmade (.ends_le (alike_traitDecl hg hlook) (by decide)) fun decl decl' h =>
      congrArg ItemKind.trait h
  · exact hmade (.ends_le (alike_implDecl hg hlook) (by decide)) fun decl decl' h =>
      congrArg ItemKind.impl h
  · exact hmade (alike_fnDecl hg _ hlook) fun decl decl' h => congrArg ItemKind.fn h
  · exact hmade (alike_fnDecl hg _ hlook) fun decl decl' h => congrArg ItemKind.fn h
  · exact hmade (alike_fnDecl hg _ hlook) fun decl decl' h => congrArg ItemKind.fn h
  · exact hmade (.ends_le (alike_externBlock hg hlook) (by decide)) fun decl decl' h =>
      congrArg ItemKind.externBlock h
  · exact hmade (.ends_le (alike_actorDecl hg hlook) (by decide)) fun decl decl' h =>
      congrArg ItemKind.actor h
  · exact hmade (.ends_le (alike_supervisorDecl hg hlook) (by decide)) fun decl decl' h =>
      congrArg ItemKind.supervisor h
  · exact .expected hlook _

theorem alike_item (hg : g.Alike L g') :
    Alike L true inside hand .unread .closed (Like L) (item g) (item g') := by
  refine .start fun start start' hstart => ?_
  refine .bind alike_visibility fun vis vis' hvis => ?_
  refine .bind (alike_itemKind hg rfl) fun kind kind' hkind => ?_
  refine .node hstart fun id id' span span' hid hspan => ?_
  simp_all [relabel]

theorem alike_programLoop (hg : g.Alike L g') :
    Alike L true true hand .unread .unread (Like L) (loop (programTurn g) [])
      (loop (programTurn g') []) := by
  have hprogresses := progresses_programTurn hg.left
  have hprogresses' := progresses_programTurn hg.right
  have hnext (items items' : List Item) (hitems : Like L items items') :
      Alike L true true none .unread .closed (Like L)
        (do let next ← item g; pure (next :: items))
        (do let next ← item g'; pure (next :: items')) :=
    .map (alike_item hg) fun next next' hnext => by simp_all
  by_cases hmended : L.mended = none
  · refine .forget (.loop rfl hprogresses hprogresses' (fun items items' hitems => ?_) rfl)
    refine alike_atEnd rfl fun k k' atEnd hatEnd => ?_
    split
    · exact .value ⟨rfl, hitems⟩
    · exact .settled hmended (.resilient .items hmended hitems (hnext items items' hitems).forget)
  · exact .parts .items State.atEnd hmended (.inr rfl) hprogresses hprogresses'
      (breaksOff_found breaksOff_item) hnext rfl

theorem alike_program (hg : g.Alike L g') :
    Alike L true true none .unread .unread (Like L) (program g) (program g') := by
  refine .bind (alike_programLoop hg) fun items items' hitems => ?_
  refine .span fun stop stop' hstop => .value ?_
  have hitems : relabel L.relabeling items.reverse = relabel L.relabeling items'.reverse := by
    rw [relabel_reverse, relabel_reverse, show relabel L.relabeling items = _ from hitems]
  have hspan : L.SameSpan ⟨0, stop.stop⟩ ⟨0, stop'.stop⟩ :=
    Likeness.sameSpan_iff.2 fun hspans => by rw [Likeness.sameSpan_iff.1 hstop.1 hspans]
  exact (congrArg (Program.mk · _) hitems).trans (congrArg (Program.mk _) hspan)

end Parser

end ActorFrontend
