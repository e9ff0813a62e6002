import ActorFrontend.Grammar.Session
import ActorFrontend.Proofs.Course.Statements
import ActorFrontend.Proofs.TypeText.Reading

/-!
# Printed types are read back

A session reads the tokens that a type is printed as, all of them, as that type, and the tokens of any
other spelling as well.
-/

namespace ActorFrontend

open ActorFrontend.Parser

variable {setting : Setting} {depth n levels : Nat} {t : TypeExpr} {ks : List TokenKind}

/-- A spelling starts like a type. -/
theorem TypeExpr.Spelled.starts (h : t.Spelled n ks) :
    ∃ k ks', ks = k :: ks' ∧ k.startsType = true := by
  cases n with
  | zero => exact h.elim
  | succ n =>
    have h : TypeExpr.SpelledOver (TypeExpr.Spelled n) t ks := h
    cases h with
    | paren _ => exact ⟨_, _, rfl, rfl⟩
    | plain hkind =>
      cases hkind with
      | @named path _ _ hpath _ =>
        obtain ⟨first, more, rfl⟩ := List.exists_cons_of_ne_nil hpath
        exact ⟨_, _, rfl, rfl⟩
      | _ => exact ⟨_, _, rfl, rfl⟩

/-- Where enough levels are left, types are read from their spellings. -/
theorem Rules.reads_within (hn : n ≤ levels) (hdepth : depth + levels ≤ setting.limits.maxDepth) :
    (Rules.within levels).type.Reads setting depth (TypeExpr.Spelled n) := by
  induction n generalizing levels depth with
  | zero => exact fun t ks s rest h => h.elim
  | succ n ih =>
    intro t ks s rest ht hs hsdepth hrest
    subst hsdepth
    cases levels with
    | zero => exact absurd hn (Nat.not_succ_le_zero n)
    | succ levels =>
      have hinner : ReadsInner (.within levels) setting (s.depth + 1) (TypeExpr.Spelled n) :=
        ⟨ih (by omega) (by omega), fun t ks h => h.starts⟩
      -- the reading uses up one of the levels itself
      apply gives_nested (by omega)
      intro s' hkinds hdepth'
      exact hinner.typeRule t ks s' rest ht (hkinds.trans hs) hdepth' hrest

/-- The session reads the type, but for places and numbers, and all its tokens are used up then. -/
def Session.ReadsBack (session : Session) (t : TypeExpr) : Prop :=
  ∃ u after, session.run session.rules.type = (.ok u, after) ∧
    relabel .bare u = relabel .bare t ∧ after.atEnd = true ∧ after.errors = []

/-- A session reads the tokens that a type is printed as back, if the limits allow as many levels as it
has, and so the tokens of any spelling of it that the limits allow. -/
theorem Session.type_reads_back (tokens : List Token) (limits : Limits) (t : TypeExpr) :
    let session := Session.ofTokens tokens limits
    (t.isPrintable = true → Shell.depthOf t.shells ≤ limits.maxDepth →
      session.state.kinds = t.tokens → session.ReadsBack t) ∧
    (∀ n ≤ limits.maxDepth, t.Spelled n session.state.kinds → session.ReadsBack t) := by
  intro session
  have hspelled (n : Nat) (hn : n ≤ limits.maxDepth) (h : t.Spelled n session.state.kinds) :
      session.ReadsBack t := by
    have hread : session.rules.type.Reads session.setting 0 (TypeExpr.Spelled n) :=
      Rules.reads_within hn (Nat.le_of_eq (Nat.zero_add _))
    obtain ⟨u, after, hrun, hu, hkinds, -⟩ :=
      (hread t _ session.state [] h (List.append_nil _).symm rfl .nil).exists_eq
    refine ⟨u, { session with state := after }, ?_, hu, ?_, ?_⟩
    · rw [Session.run, hrun]
    · have hrest : after.rest = [] := List.map_eq_nil_iff.1 hkinds
      simp [Session.atEnd, State.atEnd, hrest]
    · -- no error is recorded in a type
      have hcourse : (session.rules.type session.setting session.state).Follows false session.setting
          session.state 0 (fun _ => true) 0 :=
        (Rules.follow_within limits.maxDepth).type session.setting session.state 0
      rw [hrun] at hcourse
      exact hcourse.course.errors_eq.1
  refine ⟨fun ht hdepth htokens => ?_, hspelled⟩
  exact hspelled _ hdepth (htokens ▸ TypeExpr.spelled_tokens ht (Nat.le_refl _))

/-- The printed `fn(*mut A, (B,)) -> dyn (C::D + E<[F; 4]>)`, and `*(([A]))`, of which the parentheses
leave nothing behind. -/
theorem Session.type_reads_back_function :
    let type (kind : TypeKind) : TypeExpr := ⟨0, .empty 0, kind⟩
    let name (name : String) : TypeExpr := type (.named [name] [])
    let session (ks : List TokenKind) := Session.ofTokens (ks.map fun k => ⟨k, "", .empty 0⟩) .standard
    let t := type (.function
      [type (.pointer (some .mut) (name "A")), type (.tuple [name "B"])]
      (some (type (.traitObject [⟨"C::D", [], .empty 0⟩,
        ⟨"E", [type (.array (name "F") 4)], .empty 0⟩]))))
    (session [.keyword .fnKw, .symbol .leftParen, .symbol .star, .ident "mut", .ident "A",
      .symbol .comma, .symbol .leftParen, .ident "B", .symbol .comma, .symbol .rightParen,
      .symbol .rightParen, .symbol .arrow, .keyword .dynKw, .symbol .leftParen, .ident "C",
      .symbol .colonColon, .ident "D", .symbol .plus, .ident "E", .symbol .lt, .symbol .leftBracket,
      .ident "F", .symbol .semicolon, .int 4, .symbol .rightBracket, .symbol .gt,
      .symbol .rightParen]).ReadsBack t ∧
    (session [.symbol .star, .symbol .leftParen, .symbol .leftParen, .symbol .leftBracket,
      .ident "A", .symbol .rightBracket, .symbol .rightParen, .symbol .rightParen]).ReadsBack
      (type (.pointer none (type (.slice (name "A"))))) := by
  intro type name session t
  constructor
  · have hbound : Bound.path ⟨"C::D", [], .empty 0⟩ = ["C", "D"] := by decide +kernel
    have hbound' (args : List TypeExpr) : Bound.path ⟨"E", args, .empty 0⟩ = ["E"] := by
      show Bound.path ⟨"E", [], .empty 0⟩ = ["E"]
      decide +kernel
    refine (Session.type_reads_back _ .standard t).1 (by decide) (by decide) ?_
    simp only [t, type, name, TypeExpr.tokens, TypeKind.tokens, Bound.tokens, typesTokens,
      moreTypesTokens, tupleTokens, typeArgsTokens, resultTokens, boundsTokens, moreBoundsTokens,
      hbound, hbound']
    rfl
  · have hname : (name "A").Spelled 1 [.ident "A"] := .plain (.named (List.cons_ne_nil _ _) .nil)
    have hslice : (type (.slice (name "A"))).Spelled 2
        [.symbol .leftBracket, .ident "A", .symbol .rightBracket] := .plain (.slice hname)
    have hgrouped : (type (.slice (name "A"))).Spelled 3 (.symbol .leftParen ::
        ([.symbol .leftBracket, .ident "A", .symbol .rightBracket] ++ [.symbol .rightParen])) :=
      .paren hslice
    have hgrouped' : (type (.slice (name "A"))).Spelled 4 (.symbol .leftParen ::
        ([.symbol .leftParen, .symbol .leftBracket, .ident "A", .symbol .rightBracket,
          .symbol .rightParen] ++ [.symbol .rightParen])) := .paren hgrouped
    exact (Session.type_reads_back _ .standard _).2 5 (by decide)
      (.plain (.pointer (fun _ => by simp) hgrouped'))

end ActorFrontend
