import ActorFrontend.Proofs.Alike.Combinators
import ActorFrontend.Proofs.Alike.HeadText
import ActorFrontend.Proofs.Precedence.Reading

/-!
# What a lambda head looks like as brackets

A parenthesis that starts the head of a lambda can also be read as brackets around names.  That
reading ends early: at the colon of a parameter, where it fails, or before the arrow behind the
brackets.
-/

namespace ActorFrontend

open ActorFrontend.Parser

variable {L : Likeness} {g : Rules} {setting : Setting} {s s' : State} {k : TokenKind}
  {ks rest : List TokenKind}

/-- The kinds of the tokens behind the opening parenthesis of a lambda head, as far as they tell that
it is one. -/
inductive HeadKinds : List TokenKind → Prop where
  | close {k : TokenKind} {ks : List TokenKind} (harrow : k.isArrow = true) :
      HeadKinds (.symbol .rightParen :: k :: ks)
  | typed {ks : List TokenKind} (name : String) : HeadKinds (.ident name :: .symbol .colon :: ks)
  | last {k : TokenKind} {ks : List TokenKind} (name : String) (harrow : k.isArrow = true) :
      HeadKinds (.ident name :: .symbol .rightParen :: k :: ks)
  | more {ks : List TokenKind} (name : String) (h : HeadKinds ks) :
      HeadKinds (.ident name :: .symbol .comma :: ks)

/-! ## The tokens of a head that has been read -/

/-- An arrow comes first. -/
def StartsWithArrow (ks : List TokenKind) : Prop := ∃ k rest, ks = k :: rest ∧ k.isArrow = true

/-- The parameters have been read, and an arrow stands behind them. -/
def ClosesHead (ks : List TokenKind) : Prop :=
  ∃ rest, ks = .symbol .rightParen :: rest ∧ StartsWithArrow rest

theorem HeadKinds.of_closesHead (h : ClosesHead ks) : HeadKinds ks := by
  obtain ⟨_, rfl, k, rest, rfl, harrow⟩ := h
  exact .close harrow

theorem HeadKinds.of_last (name : String) (h : ClosesHead ks) : HeadKinds (.ident name :: ks) := by
  obtain ⟨_, rfl, k, rest, rfl, harrow⟩ := h
  exact .last name harrow

/-- A type, of which nothing more is said than that a colon stands before it. -/
theorem leads_typeAfterColon : (typeAfterColon g setting s).Leads fun _ rest =>
    rest = s.kinds ∨ ∃ rest', s.kinds = .symbol .colon :: rest' := by
  refine (leads_accept .colon).bind fun found s₁ hfound => ?_
  cases found with
  | false => exact .inl hfound
  | true =>
    have hcolon : s.kinds = .symbol .colon :: s₁.kinds := hfound
    have hany : (g.type setting s₁).Leads fun _ _ => True := by
      cases g.type setting s₁ <;> trivial
    exact hany.bind fun _ _ _ => .inr ⟨_, hcolon⟩

theorem leads_lambdaParam : (lambdaParam g setting s).Leads fun _ rest => ∃ name,
    s.kinds = .ident name :: rest ∨ ∃ rest', s.kinds = .ident name :: .symbol .colon :: rest' := by
  rw [lambdaParam, start_bind]
  refine leads_name.bind fun name s₁ hname => ?_
  refine leads_typeAfterColon.bind fun type s₂ htype => ?_
  rw [hname]
  obtain htype | ⟨rest', htype⟩ := htype
  · exact ⟨name, .inl (by rw [← htype])⟩
  · exact ⟨name, .inr ⟨rest', by rw [htype]⟩⟩

/-- One parameter, and a comma if one follows. -/
theorem leads_headTurn : (commaTurn .rightParen (lambdaParam g) setting s).Leads
    fun r rest => (ClosesHead rest → HeadKinds s.kinds) ∧
      (r.1 = true → HeadKinds rest → HeadKinds s.kinds) := by
  rw [commaTurn]
  change ((if s.kind.isSymbol .rightParen = true then _ else _ : Parser _) setting s).Leads _
  split
  · exact ⟨.of_closesHead, fun h => absurd h Bool.false_ne_true⟩
  · refine leads_lambdaParam.bind fun param s₁ hparam => ?_
    refine (leads_accept .comma).bind fun found s₂ hfound => ?_
    obtain ⟨name, hname | ⟨rest', hname⟩⟩ := hparam
    · rw [hname]
      cases found with
      | true =>
        have hcomma : s₁.kinds = .symbol .comma :: s₂.kinds := hfound
        rw [hcomma]
        exact ⟨fun h => .more name (.of_closesHead h), fun _ => .more name⟩
      | false =>
        have hsame : s₂.kinds = s₁.kinds := hfound
        rw [← hsame]
        exact ⟨.of_last name, fun h => absurd h Bool.false_ne_true⟩
    · rw [hname]
      exact ⟨fun _ => .typed name, fun _ _ => .typed name⟩

theorem leads_headTurns (turns : List (List LambdaParam)) (fuel : List Lexeme) :
    (repeatAlong (collectTurn (commaTurn .rightParen (lambdaParam g))) fuel turns setting s).Leads
      fun _ rest => ClosesHead rest → HeadKinds s.kinds := by
  have hturn (turns : List (List LambdaParam)) (s : State) :
      (collectTurn (commaTurn .rightParen (lambdaParam g)) turns setting s).Leads
        fun r rest => (ClosesHead rest → HeadKinds s.kinds) ∧
          (r.1 = true → HeadKinds rest → HeadKinds s.kinds) :=
    leads_headTurn.bind fun _ _ h => h
  induction fuel generalizing turns s with
  | nil =>
    rw [repeatAlong]
    exact (hturn turns s).bind fun r s' h => h.1
  | cons lexeme fuel ih =>
    rw [repeatAlong]
    refine (hturn turns s).bind ?_
    rintro ⟨again, turns'⟩ s' h
    cases again with
    | false => exact h.1
    | true => exact (ih turns').imp fun _ rest hrest hcloses => h.2 rfl (hrest hcloses)

theorem leads_headParams : (commaList .rightParen (lambdaParam g) setting s).Leads
    fun _ rest => StartsWithArrow rest → HeadKinds s.kinds := by
  have hparams : (collect (commaTurn .rightParen (lambdaParam g)) setting s).Leads
      fun _ rest => ClosesHead rest → HeadKinds s.kinds :=
    (leads_headTurns [] s.rest).bind fun _ _ h => h
  refine hparams.bind fun params s₁ hparams => ?_
  refine (leads_expect .rightParen).bind fun _ s₂ hclose harrow => ?_
  exact hparams ⟨_, hclose, harrow⟩

theorem leads_resultType : (resultType g setting s).Leads
    fun _ rest => StartsWithArrow rest → StartsWithArrow s.kinds := by
  refine (leads_accept .arrow).bind fun found s₁ hfound => ?_
  cases found with
  | false =>
    intro harrow
    rw [← show s₁.kinds = s.kinds from hfound]
    exact harrow
  | true =>
    have hany : (g.type setting s₁).Leads fun _ _ => True := by
      cases g.type setting s₁ <;> trivial
    exact hany.bind fun _ _ _ _ => ⟨_, _, hfound, rfl⟩

/-- The tokens of a lambda head that has been read. -/
theorem leads_lambdaHead : (lambdaHead g setting s).Leads
    fun _ _ => ∃ ks, s.kinds = .symbol .leftParen :: ks ∧ HeadKinds ks := by
  refine (leads_expect .leftParen).bind fun _ s₁ hopen => ?_
  refine leads_headParams.bind fun params s₂ hparams => ?_
  refine leads_resultType.bind fun ret s₃ hret => ?_
  refine (leads_expect .fatArrow).bind fun _ s₄ harrow => ?_
  exact ⟨_, hopen, hparams (hret ⟨_, _, harrow, rfl⟩)⟩

/-! ## The same tokens before a cut -/

/-- Before a cut the first sequence starts with the same token as the second one. -/
theorem Lexeme.AlikeUpTo.uncons {cut : Cut} {lexemes lexemes' : List Lexeme}
    (h : Lexeme.AlikeUpTo L cut lexemes lexemes')
    (hks : lexemes'.map (fun lexeme => lexeme.token.kind) = k :: ks)
    (hstring : ∀ fragments, k ≠ .interpolated fragments)
    (hsemicolon : k ≠ .symbol .semicolon) (hbrace : k ≠ .symbol .rightBrace) :
    ∃ rest rest', lexemes.map (fun lexeme => lexeme.token.kind) =
        k :: rest.map (fun lexeme => lexeme.token.kind) ∧
      rest'.map (fun lexeme => lexeme.token.kind) = ks ∧ Lexeme.AlikeUpTo L cut rest rest' := by
  cases h with
  | nil => cases hks
  | last hcut _ hkind' =>
    cases cut with
    | none => cases hcut
    | semicolon =>
      cases hcut
      exact absurd ((List.cons.inj hks).1.symm.trans hkind') hsemicolon
    | brace =>
      cases hcut
      exact absurd ((List.cons.inj hks).1.symm.trans hkind') hbrace
  | @cons _ a a' rest rest' hkind _ _ _ h =>
    obtain ⟨hk, hrest⟩ := List.cons.inj hks
    refine ⟨rest, rest', ?_, hrest, h⟩
    rw [show a'.token.kind = k from hk] at hkind
    rw [List.map_cons]
    generalize a.token.kind = kind at hkind
    cases hkind with
    | same => rfl
    | interpolated => exact absurd rfl (hstring _)

/-- What a parenthesis can start stands before every cut. -/
theorem HeadKinds.of_alikeUpTo {cut : Cut} {lexemes lexemes' : List Lexeme}
    (h : HeadKinds (lexemes'.map fun lexeme => lexeme.token.kind))
    (halike : Lexeme.AlikeUpTo L cut lexemes lexemes') :
    HeadKinds (lexemes.map fun lexeme => lexeme.token.kind) := by
  have harrow_plain {k : TokenKind} (h : k.isArrow = true) :
      (∀ fragments, k ≠ .interpolated fragments) ∧ k ≠ .symbol .semicolon ∧ k ≠ .symbol .rightBrace := by
    unfold TokenKind.isArrow at h
    split at h <;> simp_all
  generalize hks : lexemes'.map (fun lexeme => lexeme.token.kind) = ks at h
  induction h generalizing lexemes lexemes' with
  | close harrow =>
    obtain ⟨hstring, hsemicolon, hbrace⟩ := harrow_plain harrow
    obtain ⟨rest, rest', hkinds, hks, halike⟩ := halike.uncons hks nofun nofun nofun
    obtain ⟨_, _, hkinds', _, _⟩ := halike.uncons hks hstring hsemicolon hbrace
    rw [hkinds, hkinds']
    exact .close harrow
  | typed name =>
    obtain ⟨rest, rest', hkinds, hks, halike⟩ := halike.uncons hks nofun nofun nofun
    obtain ⟨_, _, hkinds', _, _⟩ := halike.uncons hks nofun nofun nofun
    rw [hkinds, hkinds']
    exact .typed name
  | last name harrow =>
    obtain ⟨hstring, hsemicolon, hbrace⟩ := harrow_plain harrow
    obtain ⟨rest, rest', hkinds, hks, halike⟩ := halike.uncons hks nofun nofun nofun
    obtain ⟨_, _, hkinds', hks, halike⟩ := halike.uncons hks nofun nofun nofun
    obtain ⟨_, _, hkinds'', _, _⟩ := halike.uncons hks hstring hsemicolon hbrace
    rw [hkinds, hkinds', hkinds'']
    exact .last name harrow
  | more name h ih =>
    obtain ⟨rest, rest', hkinds, hks, halike⟩ := halike.uncons hks nofun nofun nofun
    obtain ⟨_, _, hkinds', hks, halike⟩ := halike.uncons hks nofun nofun nofun
    rw [hkinds, hkinds']
    exact .more name (ih halike hks)

/-- Before the missing semicolon the first sequence starts with the same token as the second one. -/
theorem Lexeme.Gapped.uncons {behind lexemes lexemes' : List Lexeme}
    (h : Lexeme.Gapped behind lexemes lexemes')
    (hks : lexemes'.map (fun lexeme => lexeme.token.kind) = k :: ks)
    (hstring : ∀ fragments, k ≠ .interpolated fragments) (hsemicolon : k ≠ .symbol .semicolon) :
    ∃ rest rest', lexemes.map (fun lexeme => lexeme.token.kind) =
        k :: rest.map (fun lexeme => lexeme.token.kind) ∧
      rest'.map (fun lexeme => lexeme.token.kind) = ks ∧ Lexeme.Gapped behind rest rest' := by
  cases h with
  | here hkind => exact absurd ((List.cons.inj hks).1.symm.trans hkind) hsemicolon
  | @cons a a' rest rest' hkind h =>
    obtain ⟨hk, hrest⟩ := List.cons.inj hks
    refine ⟨rest, rest', ?_, hrest, h⟩
    rw [show a'.token.kind = k from hk] at hkind
    rw [List.map_cons]
    generalize a.token.kind = kind at hkind
    cases hkind with
    | same => rfl
    | interpolated => exact absurd rfl (hstring _)

/-- What a parenthesis can start stands before the missing semicolon. -/
theorem HeadKinds.of_gapped {behind lexemes lexemes' : List Lexeme}
    (h : HeadKinds (lexemes'.map fun lexeme => lexeme.token.kind))
    (hgapped : Lexeme.Gapped behind lexemes lexemes') :
    ∃ ks, lexemes.map (fun lexeme => lexeme.token.kind) =
        ks ++ behind.map (fun lexeme => lexeme.token.kind) ∧ HeadKinds ks := by
  have harrow_plain {k : TokenKind} (h : k.isArrow = true) :
      (∀ fragments, k ≠ .interpolated fragments) ∧ k ≠ .symbol .semicolon := by
    unfold TokenKind.isArrow at h
    split at h <;> simp_all
  have hbefore {rest rest' : List Lexeme} (h : Lexeme.Gapped behind rest rest') :
      ∃ ks, rest.map (fun lexeme => lexeme.token.kind) =
        ks ++ behind.map (fun lexeme => lexeme.token.kind) := by
    induction h with
    | here => exact ⟨[], rfl⟩
    | cons _ _ ih =>
      obtain ⟨ks, hks⟩ := ih
      exact ⟨_ :: ks, by rw [List.map_cons, hks, List.cons_append]⟩
  generalize hks : lexemes'.map (fun lexeme => lexeme.token.kind) = ks at h
  induction h generalizing lexemes lexemes' with
  | close harrow =>
    obtain ⟨hstring, hsemicolon⟩ := harrow_plain harrow
    obtain ⟨rest, rest', hkinds, hks, hgapped⟩ := hgapped.uncons hks nofun nofun
    obtain ⟨rest, rest', hkinds', _, hgapped⟩ := hgapped.uncons hks hstring hsemicolon
    obtain ⟨ks, hks⟩ := hbefore hgapped
    exact ⟨_ :: _ :: ks, by rw [hkinds, hkinds', hks]; rfl, .close harrow⟩
  | typed name =>
    obtain ⟨rest, rest', hkinds, hks, hgapped⟩ := hgapped.uncons hks nofun nofun
    obtain ⟨rest, rest', hkinds', _, hgapped⟩ := hgapped.uncons hks nofun nofun
    obtain ⟨ks, hks⟩ := hbefore hgapped
    exact ⟨_ :: _ :: ks, by rw [hkinds, hkinds', hks]; rfl, .typed name⟩
  | last name harrow =>
    obtain ⟨hstring, hsemicolon⟩ := harrow_plain harrow
    obtain ⟨rest, rest', hkinds, hks, hgapped⟩ := hgapped.uncons hks nofun nofun
    obtain ⟨rest, rest', hkinds', hks, hgapped⟩ := hgapped.uncons hks nofun nofun
    obtain ⟨rest, rest', hkinds'', _, hgapped⟩ := hgapped.uncons hks hstring hsemicolon
    obtain ⟨ks, hks⟩ := hbefore hgapped
    exact ⟨_ :: _ :: _ :: ks, by rw [hkinds, hkinds', hkinds'', hks]; rfl, .last name harrow⟩
  | more name h ih =>
    obtain ⟨rest, rest', hkinds, hks, hgapped⟩ := hgapped.uncons hks nofun nofun
    obtain ⟨rest, rest', hkinds', hks, hgapped⟩ := hgapped.uncons hks nofun nofun
    obtain ⟨ks, hks, h⟩ := ih hgapped hks
    exact ⟨_ :: _ :: ks, by rw [hkinds, hkinds', hks]; rfl, .more name h⟩

/-- Before the missing semicolon a token from the head of a lambda is one in the first sequence as
well. -/
theorem Lexeme.InHead.of_gapped {behind rest rest' stop : List Lexeme} {a a' : Lexeme} {depth : Nat}
    (h : a'.InHead rest') (hkind : a.token.kind.Resembles a'.token.kind)
    (hgapped : Lexeme.Gapped behind rest rest') (hrest : Lexeme.HeadText stop depth rest')
    (hstop : stop.length ≤ behind.length) : a.token.kind = a'.token.kind ∧ a.InHead rest := by
  have heq : a.token.kind = a'.token.kind := by
    have hin := h.kind
    generalize a.token.kind = k at hkind
    generalize a'.token.kind = k' at hkind hin
    cases hkind with
    | same => rfl
    | interpolated => cases hin
  refine ⟨heq, by rw [heq]; exact h.kind, fun ha => ?_, fun ha => ?_, fun ha => ?_⟩
  all_goals
    rw [heq] at ha
  · have hnext := h.function ha
    cases hgapped with
    | here hsemicolon _ => cases hsemicolon.symm.trans hnext
    | cons hnext' _ => exact hnext'.eq_of_right hnext nofun
  · obtain ⟨value, hnext⟩ := h.length ha
    cases hgapped with
    | here hsemicolon _ => cases hsemicolon.symm.trans hnext
    | cons hnext' _ => exact ⟨value, hnext'.eq_of_right hnext nofun⟩
  · obtain ⟨hnext, hcolon⟩ := h.pointer ha
    cases hgapped with
    | here hsemicolon _ => exact absurd hsemicolon hnext
    | @cons b b' rest rest' hb hgapped =>
      refine ⟨fun hb' => hnext (hb.eq_of_left hb' nofun), fun hname => ?_⟩
      have hcolon : firstKind rest' ≠ .symbol .colon := hcolon (hb.isName_eq.symm.trans hname)
      have hlength := hgapped.length_eq
      have hle := hgapped.length_le
      cases hgapped with
      | @here semicolon behind' hsemicolon hbehind =>
        -- what stands behind the semicolon is the length of an array
        obtain ⟨-, _, hrest⟩ := hrest.uncons (by omega)
        obtain ⟨hin, -⟩ := hrest.uncons (by simp only [List.length_cons] at hlength; omega)
        obtain ⟨value, hvalue⟩ := hin.length hsemicolon
        cases hbehind with
        | nil => cases hvalue
        | cons hc _ =>
          intro hcolon
          cases (hc.eq_of_right hvalue nofun).symm.trans hcolon
      | cons hc _ => exact fun hcolon' => hcolon (hc.eq_of_left hcolon' nofun)

/-- Before the missing semicolon the text of a head is one in the first sequence as well. -/
theorem Lexeme.HeadText.of_gapped {behind lexemes lexemes' stop : List Lexeme} {depth : Nat}
    (h : Lexeme.HeadText stop depth lexemes') (hgapped : Lexeme.Gapped behind lexemes lexemes')
    (hstop : stop.length ≤ behind.length) : Lexeme.HeadText behind depth lexemes := by
  induction hgapped generalizing depth with
  | here => exact .stop depth
  | cons hkind hrest ih =>
    have hlength := hrest.length_eq
    have hle := hrest.length_le
    cases h with
    | stop => simp only [List.length_cons] at hstop; omega
    | symbol hs hin hsemicolon h =>
      obtain ⟨heq, hin⟩ := hin.of_gapped hkind hrest h hstop
      exact .symbol (heq.trans hs) hin hsemicolon (ih h)
    | other hs hin h =>
      obtain ⟨heq, hin⟩ := hin.of_gapped hkind hrest h hstop
      exact .other (fun s hs' => hs s (heq.symm.trans hs')) hin (ih h)

/-- No bracket is open behind tokens that open none. -/
theorem Lexeme.HeadText.drop_of_plain {stop rest : List Lexeme} (h : Lexeme.HeadText stop 0 rest) (n : Nat)
    (hlength : stop.length ≤ (rest.drop n).length)
    (hopens : ∀ lexeme ∈ rest.take n, lexeme.token.kind.opens = false) :
    Lexeme.HeadText stop 0 (rest.drop n) := by
  induction n generalizing rest with
  | zero => exact h
  | succ n ih =>
    have hstop {rest : List Lexeme} {lexeme : Lexeme}
        (hlength : (lexeme :: rest).length ≤ ((lexeme :: rest).drop (n + 1)).length) : False := by
      simp only [List.length_drop, List.length_cons] at hlength
      omega
    cases h with
    | stop =>
      cases hrest : stop with
      | nil => exact .stop 0
      | cons lexeme rest =>
        rw [hrest] at hlength
        exact (hstop hlength).elim
    | @symbol lexeme rest symbol _ hkind hin hsemicolon h =>
      have hlexeme : lexeme.token.kind.opens = false := hopens lexeme List.mem_cons_self
      rw [hkind] at hlexeme
      have hdepth : Recovery.depthAfter symbol 0 = 0 := by
        rw [Recovery.depthAfter, if_neg (by rw [show symbol.opens = false from hlexeme]; exact nofun)]
        split <;> rfl
      rw [hdepth] at h
      exact ih h hlength fun l hl => hopens l (List.mem_cons_of_mem _ hl)
    | other hkind hin h =>
      exact ih h hlength fun l hl => hopens l (List.mem_cons_of_mem _ hl)

/-- A token of the second sequence stands behind the missing semicolon, or it is that, or it stands in
the first sequence as well. -/
theorem Lexeme.Gapped.suffix_cases {behind lexemes lexemes' rest' : List Lexeme} {a' : Lexeme}
    (h : Lexeme.Gapped behind lexemes lexemes') (hsuffix : a' :: rest' <:+ lexemes') :
    (a' :: rest').length ≤ behind.length ∨ a'.token.kind = .symbol .semicolon ∨
      ∃ a rest, a :: rest <:+ lexemes ∧ a.token.kind.Resembles a'.token.kind ∧
        behind.length ≤ rest.length := by
  induction h with
  | @here semicolon behind' hkind hbehind =>
    obtain heq | hsuffix := List.suffix_cons_iff.1 hsuffix
    · cases heq
      exact .inr (.inl hkind)
    · exact .inl (List.Forall₂.length_eq hbehind ▸ hsuffix.length_le)
  | @cons b b' rest rest' hkind h ih =>
    obtain heq | hsuffix := List.suffix_cons_iff.1 hsuffix
    · cases heq
      exact .inr (.inr ⟨b, rest, List.suffix_rfl, hkind, h.length_le⟩)
    · refine (ih hsuffix).imp id (Or.imp id ?_)
      rintro ⟨a, rest, hsuffix, hrest⟩
      exact ⟨a, rest, hsuffix.trans (List.suffix_cons _ _), hrest⟩

/-! ## Strolling along -/

namespace State

theorem skip_add (k n : Nat) (s : State) : s.skip (k + n) = (s.skip k).skip n := by
  induction k generalizing s with
  | zero => rw [Nat.zero_add, skip]
  | succ k ih => rw [Nat.succ_add, skip, ih, skip]

theorem previousEnd_advance_congr (hrest : s.rest = s'.rest)
    (hend : s.previousEnd = s'.previousEnd) : s.advance.previousEnd = s'.advance.previousEnd := by
  unfold advance
  rw [hrest]
  split
  · exact hend
  · rfl

theorem previousEnd_skip_congr (hrest : s.rest = s'.rest) (hend : s.previousEnd = s'.previousEnd)
    (k : Nat) : (s.skip k).previousEnd = (s'.skip k).previousEnd := by
  induction k generalizing s s' with
  | zero => exact hend
  | succ k ih =>
    refine ih ?_ (previousEnd_advance_congr hrest hend)
    rw [rest_advance, rest_advance, hrest]

/-- Tokens other than opening brackets have been passed over since, and nothing has been recorded. -/
def Strolls (s s' : State) : Prop :=
  (∃ k, s'.rest = s.rest.drop k ∧ s'.previousEnd = (s.skip k).previousEnd ∧
    ∀ lexeme ∈ s.rest.take k, lexeme.token.kind.opens = false) ∧
  s'.errors = s.errors ∧ s'.halted = s.halted

namespace Strolls

/-- Contexts, depths and numbers do not matter. -/
theorem congr (hrest : s'.rest = s.rest) (hend : s'.previousEnd = s.previousEnd)
    (herrors : s'.errors = s.errors) (hhalted : s'.halted = s.halted) : s.Strolls s' :=
  ⟨⟨0, hrest, hend, nofun⟩, herrors, hhalted⟩

theorem refl (s : State) : s.Strolls s := congr rfl rfl rfl rfl

theorem trans {s'' : State} (h : s.Strolls s') (h' : s'.Strolls s'') : s.Strolls s'' := by
  obtain ⟨⟨k, hrest, hend, htokens⟩, herrors, hhalted⟩ := h
  obtain ⟨⟨n, hrest', hend', htokens'⟩, herrors', hhalted'⟩ := h'
  refine ⟨⟨k + n, ?_, ?_, fun lexeme hl => ?_⟩, herrors'.trans herrors, hhalted'.trans hhalted⟩
  · rw [hrest', hrest, List.drop_drop]
  · rw [hend', skip_add]
    exact previousEnd_skip_congr (hrest.trans (rest_skip k s).symm) hend n
  · rw [List.take_add, ← hrest] at hl
    exact (List.mem_append.1 hl).elim (htokens lexeme) (htokens' lexeme)

theorem advance (hopens : s.kind.opens = false) : s.Strolls s.advance := by
  refine ⟨⟨1, rest_advance s, rfl, fun lexeme hl => ?_⟩, ?_, ?_⟩
  · unfold State.kind at hopens
    cases hrest : s.rest with
    | nil =>
      rw [hrest] at hl
      cases hl
    | cons first rest =>
      rw [hrest] at hl hopens
      obtain rfl : lexeme = first := List.mem_singleton.1 hl
      exact hopens
  all_goals
    unfold State.advance
    split <;> rfl

end Strolls

end State

/-! ## The head read as brackets -/

/-- A name that stands alone between brackets and commas is read as such, unless no level is left. -/
def Rules.ReadsNames (g : Rules) : Prop :=
  ∀ setting s name k ks, s.kinds = .ident name :: k :: ks →
    k = .symbol .comma ∨ k = .symbol .rightParen ∨ k = .symbol .colon →
    (g.expr 0 setting s).EndsWith (fun _ after => s.Strolls after ∧ after.kinds = k :: ks)
      fun e after => e.cause.stops = true ∧ s.Strolls after ∧ after.kinds = s.kinds

/-- The names have been read: the brackets close before an arrow, or a colon stands in the way. -/
def EndsNames (ks : List TokenKind) : Prop :=
  ClosesHead ks ∨ ∃ rest, ks = .symbol .colon :: rest

/-- Behind a name stands a comma before more of them, or they are at their end. -/
def FollowsName (ks : List TokenKind) : Prop :=
  (∃ rest, ks = .symbol .comma :: rest ∧ HeadKinds rest) ∨ EndsNames ks

/-- A place has been reached at which what is left before `behind` satisfies a condition. -/
def State.Reads (s : State) (behind : List TokenKind) (holds : List TokenKind → Prop) (s' : State) :
    Prop :=
  s.Strolls s' ∧ ∃ ks, s'.kinds = ks ++ behind ∧ holds ks

/-- The reading is given up before `behind`. -/
def State.GivesUp (s : State) (behind : List TokenKind) (e : ParseError) (s' : State) : Prop :=
  e.cause.stops = true ∧ s.Reads behind (· ≠ []) s'

variable {behind : List TokenKind}

namespace State

theorem Reads.trans {s'' : State} {holds : List TokenKind → Prop} (h : s.Strolls s')
    (h' : s'.Reads behind holds s'') : s.Reads behind holds s'' := ⟨h.trans h'.1, h'.2⟩

theorem GivesUp.trans {s'' : State} {e : ParseError} (h : s.Strolls s') (h' : s'.GivesUp behind e s'') :
    s.GivesUp behind e s'' := ⟨h'.1, h'.2.trans h⟩

theorem reads_advance {holds : List TokenKind → Prop} (hks : s.kinds = k :: ks ++ behind)
    (hopens : k.opens = false) (h : holds ks) : s.Reads behind holds s.advance :=
  ⟨.advance (by rwa [kind_eq hks]), ks, (kinds_advance hks).1, h⟩

end State

theorem reads_bind {α β : Type} {p : Parser α} {q : α → Parser β} {holds : α → List TokenKind → Prop}
    {holds' : β → List TokenKind → Prop}
    (hp : (p setting s).EndsWith (fun a => s.Reads behind (holds a)) (s.GivesUp behind))
    (hq : ∀ a s' ks, s'.kinds = ks ++ behind → holds a ks →
      (q a setting s').EndsWith (fun b => s'.Reads behind (holds' b)) (s'.GivesUp behind)) :
    ((p >>= q) setting s).EndsWith (fun b => s.Reads behind (holds' b)) (s.GivesUp behind) := by
  refine Reply.EndsWith.bind hp fun a s' ⟨hstrolls, ks, hks, h⟩ => ?_
  exact (hq a s' ks hks h).imp (fun _ _ h => h.trans hstrolls) fun _ _ h => h.trans hstrolls

theorem HeadKinds.ne_nil (h : HeadKinds ks) : ks ≠ [] := by
  rintro rfl
  cases h

theorem FollowsName.ne_nil (h : FollowsName ks) : ks ≠ [] := by
  rintro rfl
  obtain ⟨_, heq, _⟩ | ⟨_, heq, _⟩ | ⟨_, heq⟩ := h <;> cases heq

theorem EndsNames.ne_nil (h : EndsNames ks) : ks ≠ [] := FollowsName.ne_nil (.inr h)

/-- A symbol, or an error about what stands in its place. -/
theorem reads_expect {symbol : Symbol} {holds : List TokenKind → Prop}
    (hopens : symbol.opens = false) (hne : ks ≠ []) (hks : s.kinds = ks ++ behind)
    (h : ∀ rest, ks = .symbol symbol :: rest → holds rest) :
    (expect symbol setting s).EndsWith (fun _ => s.Reads behind holds) (s.GivesUp behind) := by
  rw [expect, require_eq]
  split
  case isTrue hkind =>
    cases ks with
    | nil => exact absurd rfl hne
    | cons k ks =>
      have hk : k = .symbol symbol := (State.kind_eq hks).symm.trans (TokenKind.eq_of_isSymbol hkind)
      exact State.reads_advance hks (by rwa [hk]) (h ks (by rw [hk]))
  case isFalse => exact ⟨rfl, .refl s, ks, hks, hne⟩

theorem reads_accept {symbol : Symbol} {holds : Bool → List TokenKind → Prop}
    (hopens : symbol.opens = false) (hne : ks ≠ []) (hks : s.kinds = ks ++ behind)
    (hyes : ∀ rest, ks = .symbol symbol :: rest → holds true rest)
    (hno : (∀ rest, ks ≠ .symbol symbol :: rest) → holds false ks) :
    (accept symbol setting s).EndsWith (fun found => s.Reads behind (holds found))
      (s.GivesUp behind) := by
  rw [accept, acceptIf_eq]
  cases ks with
  | nil => exact absurd rfl hne
  | cons k ks =>
    have hk : s.kind = k := State.kind_eq hks
    split
    case isTrue hkind =>
      have hk : k = .symbol symbol := hk.symm.trans (TokenKind.eq_of_isSymbol hkind)
      exact State.reads_advance hks (by rwa [hk]) (hyes ks (by rw [hk]))
    case isFalse hkind =>
      refine ⟨.refl s, _, hks, hno fun rest heq => hkind ?_⟩
      rw [hk, (List.cons.inj heq).1]
      simp [TokenKind.isSymbol]

theorem reads_firstName (hg : g.ReadsNames) (h : HeadKinds ks) (hks : s.kinds = ks ++ behind)
    (hclose : s.kind.isSymbol .rightParen = false) :
    (expr g setting s).EndsWith (fun _ => s.Reads behind FollowsName) (s.GivesUp behind) := by
  have hname {name : String} {k : TokenKind} {rest : List TokenKind}
      (heq : ks = .ident name :: k :: rest)
      (hk : k = .symbol .comma ∨ k = .symbol .rightParen ∨ k = .symbol .colon)
      (hfollows : FollowsName (k :: rest)) :
      (expr g setting s).EndsWith (fun _ => s.Reads behind FollowsName) (s.GivesUp behind) := by
    have hread := hg setting s name k (rest ++ behind) (by rw [hks, heq]; rfl) hk
    refine hread.imp (fun _ after h => ⟨h.1, _, h.2, hfollows⟩) fun _ after h => ?_
    exact ⟨h.1, h.2.1, ks, h.2.2.trans hks, HeadKinds.ne_nil ‹_›⟩
  cases h with
  | close harrow =>
    rw [State.kind_eq hks] at hclose
    cases hclose
  | typed name => exact hname rfl (.inr (.inr rfl)) (.inr (.inr ⟨_, rfl⟩))
  | last name harrow =>
    exact hname rfl (.inr (.inl rfl)) (.inr (.inl ⟨_, rfl, _, _, rfl, harrow⟩))
  | more name h => exact hname rfl (.inl rfl) (.inl ⟨_, rfl, h⟩)

theorem reads_comma (h : FollowsName ks) (hks : s.kinds = ks ++ behind) :
    (accept .comma setting s).EndsWith
      (fun found => s.Reads behind fun rest => if found = true then HeadKinds rest else EndsNames rest)
      (s.GivesUp behind) := by
  refine reads_accept rfl h.ne_nil hks (fun rest heq => ?_) fun hne => ?_
  · obtain ⟨_, heq', hrest⟩ | hends := h
    · cases heq.symm.trans heq'
      exact hrest
    · rw [heq] at hends
      obtain ⟨_, heq, _⟩ | ⟨_, heq⟩ := hends <;> cases heq
  · exact h.resolve_left fun ⟨rest, heq, _⟩ => hne rest heq

/-- One name, and a comma if one follows. -/
theorem reads_nameTurn (hg : g.ReadsNames) (h : HeadKinds ks) (hks : s.kinds = ks ++ behind) :
    (commaTurn .rightParen (expr g) setting s).EndsWith
      (fun r => s.Reads behind fun rest => if r.1 = true then HeadKinds rest else EndsNames rest)
      (s.GivesUp behind) := by
  rw [commaTurn]
  change ((if s.kind.isSymbol .rightParen = true then _ else _ : Parser _) setting s).EndsWith _ _
  split
  case isTrue hclose =>
    refine ⟨.refl s, ks, hks, .inl ?_⟩
    cases h with
    | close harrow => exact ⟨_, rfl, _, _, rfl, harrow⟩
    | _ =>
      rw [State.kind_eq hks] at hclose
      cases hclose
  case isFalse hclose =>
    refine reads_bind (reads_firstName hg h hks (Bool.eq_false_iff.2 hclose)) fun e s₁ ks₁ hks₁ he => ?_
    exact reads_bind (reads_comma he hks₁) fun found s₂ ks₂ hks₂ h => ⟨.refl s₂, ks₂, hks₂, h⟩

theorem reads_nameTurns (hg : g.ReadsNames) (turns : List (List Expr)) (fuel : List Lexeme)
    (h : HeadKinds ks) (hks : s.kinds = ks ++ behind) :
    (repeatAlong (collectTurn (commaTurn .rightParen (expr g))) fuel turns setting s).EndsWith
      (fun _ => s.Reads behind fun rest => HeadKinds rest ∨ EndsNames rest) (s.GivesUp behind) := by
  have hturn {s : State} {ks : List TokenKind} (turns : List (List Expr)) (h : HeadKinds ks)
      (hks : s.kinds = ks ++ behind) :
      (collectTurn (commaTurn .rightParen (expr g)) turns setting s).EndsWith
        (fun r => s.Reads behind fun rest => if r.1 = true then HeadKinds rest else EndsNames rest)
        (s.GivesUp behind) :=
    reads_bind (reads_nameTurn hg h hks) fun r s' ks' hks' h => ⟨.refl s', ks', hks', h⟩
  induction fuel generalizing turns s ks with
  | nil =>
    rw [repeatAlong]
    refine reads_bind (hturn turns h hks) ?_
    rintro ⟨again, turns'⟩ s' ks' hks' hs'
    cases again with
    | true => exact ⟨.refl s', ks', hks', .inl hs'⟩
    | false => exact ⟨.refl s', ks', hks', .inr hs'⟩
  | cons lexeme fuel ih =>
    rw [repeatAlong]
    refine reads_bind (hturn turns h hks) ?_
    rintro ⟨again, turns'⟩ s' ks' hks' hs'
    cases again with
    | true => exact ih turns' hs' hks'
    | false => exact ⟨.refl s', ks', hks', .inr hs'⟩

/-- What follows the names must be the closing parenthesis, and is an arrow then. -/
theorem reads_expect_rightParen (h : HeadKinds ks ∨ EndsNames ks) (hks : s.kinds = ks ++ behind) :
    (expect .rightParen setting s).EndsWith (fun _ => s.Reads behind StartsWithArrow)
      (s.GivesUp behind) := by
  refine reads_expect rfl (h.elim HeadKinds.ne_nil EndsNames.ne_nil) hks fun rest heq => ?_
  rw [heq] at h
  obtain h | h | ⟨rest', h⟩ := h
  · cases h with
    | close harrow => exact ⟨_, _, rfl, harrow⟩
  · obtain ⟨_, heq, harrow⟩ := h
    cases heq
    exact harrow
  · cases h

/-- The names between the brackets, and the closing bracket, which an arrow follows. -/
theorem reads_names (hg : g.ReadsNames) (h : HeadKinds ks) (hks : s.kinds = ks ++ behind) :
    (commaList .rightParen (expr g) setting s).EndsWith (fun _ => s.Reads behind StartsWithArrow)
      (s.GivesUp behind) := by
  have helems : (collect (commaTurn .rightParen (expr g)) setting s).EndsWith
      (fun _ => s.Reads behind fun rest => HeadKinds rest ∨ EndsNames rest) (s.GivesUp behind) :=
    reads_bind (reads_nameTurns hg [] s.rest h hks) fun _ s' ks' hks' h => ⟨.refl s', ks', hks', h⟩
  exact reads_bind helems fun elems s₁ ks₁ hks₁ h =>
    reads_bind (reads_expect_rightParen h hks₁) fun _ s₂ ks₂ hks₂ h => ⟨.refl s₂, ks₂, hks₂, h⟩

theorem reads_brackets (hg : g.ReadsNames) (h : HeadKinds ks) (hks : s.kinds = ks ++ behind) :
    ((do
      if ← accept .rightParen then
        pure (.tuple [])
      else
        let first ← expr g
        if ← accept .comma then
          let more ← commaList .rightParen (expr g)
          pure (.tuple (first :: more))
        else
          expect .rightParen
          pure (.paren first) : Parser ExprKind) setting s).EndsWith
      (fun _ => s.Reads behind StartsWithArrow) (s.GivesUp behind) := by
  have hclosed : (accept .rightParen setting s).EndsWith
      (fun found => s.Reads behind fun rest => if found = true then StartsWithArrow rest
        else HeadKinds rest ∧ ∀ rest', rest ≠ .symbol .rightParen :: rest') (s.GivesUp behind) := by
    refine reads_accept rfl h.ne_nil hks (fun rest heq => ?_) fun hne => ⟨h, hne⟩
    rw [heq] at h
    cases h with
    | close harrow => exact ⟨_, _, rfl, harrow⟩
  refine reads_bind hclosed fun found s₁ ks₁ hks₁ h₁ => ?_
  cases found with
  | true => exact ⟨.refl s₁, ks₁, hks₁, h₁⟩
  | false =>
    obtain ⟨h₁, hne⟩ : HeadKinds ks₁ ∧ ∀ rest', ks₁ ≠ .symbol .rightParen :: rest' := h₁
    have hclose : s₁.kind.isSymbol .rightParen = false := by
      cases ks₁ with
      | nil => exact absurd rfl h₁.ne_nil
      | cons k rest =>
        refine Bool.eq_false_iff.2 fun hkind => hne rest ?_
        rw [State.kind_eq hks₁] at hkind
        rw [TokenKind.eq_of_isSymbol hkind]
    refine reads_bind (reads_firstName hg h₁ hks₁ hclose) fun first s₂ ks₂ hks₂ h₂ => ?_
    refine reads_bind (reads_comma h₂ hks₂) fun found s₃ ks₃ hks₃ h₃ => ?_
    cases found with
    | true =>
      exact reads_bind (reads_names hg h₃ hks₃) fun _ s₄ ks₄ hks₄ h => ⟨.refl s₄, ks₄, hks₄, h⟩
    | false =>
      exact reads_bind (reads_expect_rightParen (.inr h₃) hks₃) fun _ s₄ ks₄ hks₄ h =>
        ⟨.refl s₄, ks₄, hks₄, h⟩

/-- After something enclosed the context is what it was before. -/
theorem reads_enclosed {α : Type} (setting : Setting) (s : State) {p : Parser α}
    {holds : List TokenKind → Prop}
    (h : (p setting { s with context := .anything }).EndsWith
      (fun _ => State.Reads { s with context := .anything } behind holds)
      (State.GivesUp { s with context := .anything } behind)) :
    (enclosed p setting s).EndsWith
      (fun _ after => s.Reads behind holds after ∧ after.context = s.context)
      (s.GivesUp behind) := by
  have hcongr {s' : State} (h : State.Strolls { s with context := .anything } s') :
      s.Strolls { s' with context := s.context } :=
    (State.Strolls.congr rfl rfl rfl rfl : s.Strolls { s with context := .anything }).trans
      (h.trans (.congr rfl rfl rfl rfl))
  unfold enclosed withContext
  cases hreply : p setting { s with context := .anything } with
  | ok a after =>
    rw [hreply] at h
    exact ⟨⟨hcongr h.1, h.2⟩, rfl⟩
  | fail e after =>
    rw [hreply] at h
    exact ⟨h.1, hcongr h.2.1, h.2.2⟩

theorem context_advance (s : State) : s.advance.context = s.context := by
  unfold State.advance
  split <;> rfl

/-- Where a lambda head stands, a reading of it as brackets ends before its first arrow or colon. -/
theorem reads_parenOrTuple (setting : Setting) (hg : g.ReadsNames)
    (hks : s.kinds = .symbol .leftParen :: ks ++ behind)
    (h : HeadKinds ks) :
    (parenOrTuple g setting s).EndsWith
      (fun _ after => s.advance.Reads behind StartsWithArrow after ∧ after.context = s.context)
      (s.advance.GivesUp behind) := by
  have hinner := reads_enclosed setting s.advance
    (reads_brackets hg h (State.kinds_advance hks).1)
  rw [context_advance] at hinner
  exact hinner

/-- Where a lambda head stands, a reading of it as brackets ends before an arrow, if it ends. -/
theorem parenOrTuple_stopsAtArrow (hg : g.ReadsNames) (hks : s.kinds = .symbol .leftParen :: ks)
    (h : HeadKinds ks) (hlambdas : s.context.lambdas = true) :
    StopsAtArrow (parenOrTuple g) setting s := by
  have hks : s.kinds = .symbol .leftParen :: ks ++ [] := hks.trans (List.append_nil _).symm
  have hbrackets := reads_parenOrTuple setting hg hks h
  intro a after hreply
  rw [hreply] at hbrackets
  obtain ⟨⟨-, _, hkinds, k, rest, rfl, harrow⟩, hcontext⟩ := hbrackets
  rw [State.kind_eq hkinds, hcontext]
  exact ⟨harrow, hlambdas⟩

/-- Where the head of a lambda can be read in one of two sequences that are the same up to a cut, a
reading of brackets in the other one ends before an arrow, if it ends. -/
theorem parenOrTuple_stopsAtArrow_of_lambdaHead {cut : Cut} {g' : Rules} {setting' : Setting}
    {head : List LambdaParam × Option TypeExpr} {after : State} (hg : g.ReadsNames)
    (halike : Lexeme.AlikeUpTo L cut s.rest s'.rest) (hlambdas : s.context.lambdas = true)
    (hhead : lambdaHead g' setting' s' = .ok head after) :
    StopsAtArrow (parenOrTuple g) setting s := by
  have hkinds : ∃ ks, s'.kinds = .symbol .leftParen :: ks ∧ HeadKinds ks := by
    have hleads : (lambdaHead g' setting' s').Leads _ := leads_lambdaHead
    rw [hhead] at hleads
    exact hleads
  obtain ⟨ks, hks, h⟩ := hkinds
  obtain ⟨rest, rest', hkinds, rfl, halike⟩ := halike.uncons hks nofun nofun nofun
  exact parenOrTuple_stopsAtArrow hg hkinds (h.of_alikeUpTo halike) hlambdas

/-! ## Names are read as names -/

theorem path_eq_of_name {name : String} (hs : s.kind = .ident name)
    (hcolons : s.advance.kind.isSymbol .colonColon = false) :
    path setting s = .ok [name] s.advance := by
  have hmore : collect pathTurn setting s.advance = .ok [] s.advance := by
    apply collect_eq
    rw [pathTurn, query_bind, hcolons]
    rfl
  have hname : Parser.name setting s = .ok name s.advance := by
    rw [Parser.name, valueOf_eq, hs]
  rw [path, bind_ok hname]
  exact (bind_ok hmore).trans rfl

/-- A name is an operand by itself if neither a path nor the fields of a struct follow. -/
theorem operand_eq_of_name (g : Rules) (setting : Setting) {name : String} (hs : s.kind = .ident name)
    (hcolons : s.advance.kind.isSymbol .colonColon = false)
    (hbrace : s.advance.kind.isSymbol .leftBrace = false) :
    ∃ e, operand g setting s = .ok e { s.advance with nextId := s.advance.nextId + 1 } := by
  have hkind : pathExpr g setting s = .ok (.ident name) s.advance := by
    rw [pathExpr, bind_ok (path_eq_of_name hs hcolons), query_bind, hbrace]
    rfl
  have hoperand : operand g setting s =
      exprNode (s.span setting).start (.ident name) setting s.advance := by
    rw [operand, kind_bind, hs]
    change asExpr (pathExpr g) setting s = _
    rw [asExpr, start_bind, bind_ok hkind]
  exact ⟨_, hoperand⟩

theorem Rules.readsNames_within (levels : Nat) : (Rules.within levels).ReadsNames := by
  cases levels with
  | zero => exact fun _ s _ _ _ _ _ => ⟨rfl, .refl s, rfl⟩
  | succ levels =>
    intro setting s name k ks hks hk
    change (nested (exprRule (.within levels) 0) setting s).EndsWith _ _
    unfold nested
    split
    · exact ⟨rfl, .refl s, rfl⟩
    · let deeper : State := { s with depth := s.depth + 1 }
      have hadvance : deeper.advance.kinds = k :: ks := (State.kinds_advance (s := deeper) hks).1
      have hkind := State.kind_eq hadvance
      have hstops : Stops 0 (k :: ks) := by
        rw [Stops.cons_iff]
        rcases hk with rfl | rfl | rfl <;> exact nofun
      obtain ⟨e, he⟩ := operand_eq_of_name (.within levels) setting
        (s := deeper) (State.kind_eq hks)
        (by rw [hkind]; rcases hk with rfl | rfl | rfl <;> rfl)
        (by rw [hkind]; rcases hk with rfl | rfl | rfl <;> rfl)
      have hlast : loop (extend (Rules.within levels) 0) e setting
          { deeper.advance with nextId := deeper.advance.nextId + 1 } =
            .ok e { deeper.advance with nextId := deeper.advance.nextId + 1 } :=
        repeatAlong_last (extend_eq (hadvance.symm ▸ hstops : Stops 0 deeper.advance.kinds))
      have hrule : exprRule (Rules.within levels) 0 setting deeper =
          .ok e { deeper.advance with nextId := deeper.advance.nextId + 1 } := by
        rw [exprRule, bind_ok he]
        exact hlast
      rw [hrule]
      refine ⟨?_, hadvance⟩
      exact (State.Strolls.congr rfl rfl rfl rfl : s.Strolls deeper).trans
        ((State.Strolls.advance (s := deeper) (by rw [State.kind_eq (s := deeper) hks]; rfl)).trans
          (.congr rfl rfl rfl rfl))

/-! ## A head that is read only beyond the missing semicolon -/

/-- An arrow that is passed over before the missing semicolon in the second sequence is passed over in
the first one, too. -/
theorem arrow_beyond {behind rest rest' lexemes lexemes' : List Lexeme} {arrow : Lexeme}
    (hgapped : Lexeme.Gapped behind lexemes lexemes') (hsuffix : arrow :: rest' <:+ lexemes')
    (harrow : arrow.token.kind = .symbol .fatArrow)
    (hpasses : Lexeme.PassesOver TokenKind.inHead lexemes rest) (hrest : rest.length ≤ behind.length) :
    (arrow :: rest').length ≤ behind.length := by
  refine (hgapped.suffix_cases hsuffix).resolve_right ?_
  rintro (hsemicolon | ⟨a, more, hmore, ha, hlength⟩)
  · cases harrow.symm.trans hsemicolon
  · have ha := ha.eq_of_right harrow nofun
    obtain ⟨before, rfl, hbefore⟩ := hpasses
    have hmem : a ∈ before := by
      obtain ⟨first, hfirst⟩ := hmore
      have hbeyond : rest <:+ more := by
        refine List.suffix_of_suffix_length_le (List.suffix_append before rest) ?_ (by omega)
        exact ⟨first ++ [a], by rw [← hfirst, List.append_assoc]; rfl⟩
      obtain ⟨middle, rfl⟩ := hbeyond
      have heq : first ++ a :: middle = before := by
        refine List.append_cancel_right (?_ : _ ++ rest = _ ++ rest)
        rw [← hfirst]
        simp
      rw [← heq]
      simp
    have hin := hbefore a hmem
    rw [ha] at hin
    cases hin

/-- Where the head of a lambda can be read only because of the semicolon, and the reading without it
comes to where that is missing, a reading as brackets ends before. -/
theorem parenOrTuple_slips {behind : List Lexeme} {g' : Rules} {setting' : Setting} {e : ParseError}
    {head : List LambdaParam × Option TypeExpr} {after after' : State} (hg : g.ReadsNames)
    (htypes : g.ReadsTypes) (htypes' : g'.ReadsTypes)
    (hgapped : Lexeme.Gapped behind s.rest s'.rest) (hlt : behind.length < s.rest.length)
    (hlambdas : s.context.lambdas = true) (hfails : lambdaHead g setting s = .fail e after)
    (hreaches : after.rest.length ≤ behind.length)
    (hhead : lambdaHead g' setting' s' = .ok head after') :
    (parenOrTuple g setting s).Slips behind s := by
  have hkinds : ∃ ks, s'.kinds = .symbol .leftParen :: ks ∧ HeadKinds ks := by
    have hleads : (lambdaHead g' setting' s').Leads _ := leads_lambdaHead
    rw [hhead] at hleads
    exact hleads
  obtain ⟨ks, hks, hheadKinds⟩ := hkinds
  have hnext := hgapped.advance hlt
  have hopens : s.kinds = .symbol .leftParen :: s.advance.kinds := by
    refine State.kinds_eq ?_ (by simp)
    exact (hgapped.kind_resembles hlt).eq_of_right (State.kind_eq hks) nofun
  rw [← (State.kinds_advance hks).1] at hheadKinds
  obtain ⟨ks, hadvance, hheadKinds⟩ := hheadKinds.of_gapped hnext
  -- the text of the head in the second sequence, as far as the first one has it
  have htext : Lexeme.HeadText behind 0 s.advance.rest := by
    have hread := readsHead_lambdaHead setting' s' htypes'
    have hpasses := readsHead_lambdaHead setting s htypes
    rw [hhead] at hread
    rw [hfails] at hpasses
    obtain ⟨arrow, harrow, htext⟩ := hread
    rw [← State.rest_advance] at htext
    refine htext.of_gapped hnext (arrow_beyond hgapped ?_ harrow hpasses hreaches)
    exact htext.suffix.trans s'.rest_advance_suffix
  have hbefore : s.kinds = .symbol .leftParen :: ks ++ behind.map fun l => l.token.kind := by
    rw [hopens, State.kinds, hadvance]
    rfl
  have hends := reads_parenOrTuple setting hg hbefore hheadKinds
  have hslips {t : State} (hread : s.advance.Reads (behind.map fun l => l.token.kind) (· ≠ []) t) :
      (∃ k, t.rest = s.rest.drop k ∧ t.previousEnd = (s.skip k).previousEnd) ∧
        behind.length < t.rest.length ∧ Lexeme.HeadText behind 0 t.rest ∧ t.errors = s.errors ∧
        t.halted = s.halted := by
    obtain ⟨⟨⟨k, hrest, hend, hplain⟩, herrors, hhalted⟩, before, hkinds, hne⟩ := hread
    have hlength : behind.length < t.rest.length := by
      have hlength := congrArg List.length hkinds
      have hpos := List.length_pos_iff.2 hne
      simp only [State.kinds, List.length_append, List.length_map] at hlength
      omega
    refine ⟨⟨k + 1, ?_, hend⟩, hlength, ?_, ?_, ?_⟩
    · rw [hrest, State.rest_advance, List.drop_drop, Nat.add_comm]
    · rw [hrest] at hlength ⊢
      exact htext.drop_of_plain k (Nat.le_of_lt hlength) hplain
    · rw [herrors]
      unfold State.advance
      split <;> rfl
    · rw [hhalted]
      unfold State.advance
      split <;> rfl
  cases hreply : parenOrTuple g setting s with
  | ok kind t =>
    rw [hreply] at hends
    obtain ⟨⟨hstrolls, before, hkinds, harrow⟩, hcontext⟩ := hends
    have hne : before ≠ [] := by
      rintro rfl
      obtain ⟨_, _, heq, _⟩ := harrow
      cases heq
    obtain ⟨hplace, hlength, htext, herrors, hhalted⟩ := hslips ⟨hstrolls, before, hkinds, hne⟩
    refine ⟨hplace, hlength, htext, herrors, hhalted, ?_, by rw [hcontext]; exact hlambdas⟩
    obtain ⟨k, rest, rfl, harrow⟩ := harrow
    have hkind := State.kind_eq hkinds
    unfold State.kind at hkind ⊢
    cases hrest : t.rest with
    | nil =>
      rw [hrest] at hlength
      cases hlength
    | cons lexeme more =>
      rw [hrest] at htext hlength hkind
      have hin := (htext.uncons (Nat.le_of_lt_succ hlength)).1.kind
      change lexeme.token.kind = k at hkind
      change lexeme.token.kind = _
      rw [hkind] at hin ⊢
      unfold TokenKind.isArrow at harrow
      split at harrow
      · rfl
      · cases hin
      · cases harrow
  | fail e t =>
    rw [hreply] at hends
    obtain ⟨hstops, hread⟩ := hends
    obtain ⟨hplace, hlength, htext, herrors, hhalted⟩ := hslips hread
    exact ⟨hplace, hlength, htext, herrors, hhalted, hstops⟩

end ActorFrontend
