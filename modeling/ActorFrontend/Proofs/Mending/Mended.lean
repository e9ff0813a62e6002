import ActorFrontend.Proofs.Mending.Lost

/-!
# Token sequences with a semicolon more

Where a semicolon is put in a source, the tokens before it stay where they are, and those behind it
move by one byte.  It may stand between the tokens of a sequence or in a splice of one of them.
-/

namespace ActorFrontend

open ActorFrontend.Parser

variable {p : Nat} {s s' : State} {rest rest' behind : List Lexeme}

/-- Where the semicolon stands that only the second of two token sequences has. -/
inductive Spot where
  | nowhere
  /-- Between the tokens, before those that follow in the first sequence. -/
  | before (behind : List Lexeme)
  /-- In a splice of one of the tokens. -/
  | within

/-- How many tokens the second sequence has more. -/
def Spot.extra : Spot → Nat
  | .before _ => 1
  | _ => 0

mutual

/-- The same token once a semicolon stands at `p`, which is in a splice of the token if `within`. -/
inductive Token.Mended (p : Nat) : (within : Bool) → Token → Token → Prop where
  | plain {t t' : Token} (hstring : ∀ fragments, t.kind ≠ .interpolated fragments)
      (hkind : t'.kind = t.kind) (htext : t'.text = t.text) (hspan : t'.span = t.span.insertAt p) :
      Token.Mended p false t t'
  | interpolated {t t' : Token} {fragments fragments' : List Fragment} {within : Bool}
      (hkind : t.kind = .interpolated fragments) (hkind' : t'.kind = .interpolated fragments')
      (hspan : t'.span = t.span.insertAt p) (h : Fragment.MendedAll p within fragments fragments') :
      Token.Mended p within t t'

inductive Fragment.MendedAll (p : Nat) :
    (within : Bool) → List Fragment → List Fragment → Prop where
  | nil : Fragment.MendedAll p false [] []
  | text {within : Bool} {fragments fragments' : List Fragment} (value : String) (span span' : Span)
      (h : Fragment.MendedAll p within fragments fragments') :
      Fragment.MendedAll p within (.text value span :: fragments) (.text value span' :: fragments')
  | splice {within : Bool} {fragments fragments' : List Fragment} {tokens tokens' : List Token}
      {span span' : Span} (hstop : Span.empty span'.stop = (Span.empty span.stop).insertAt p)
      (htokens : Lexeme.Mended p .nowhere (Lexeme.significant false tokens)
        (Lexeme.significant false tokens'))
      (h : Fragment.MendedAll p within fragments fragments') :
      Fragment.MendedAll p within (.splice tokens span :: fragments)
        (.splice tokens' span' :: fragments')
  | gap {spot : Spot} {fragments fragments' : List Fragment} {tokens tokens' : List Token}
      {span span' : Span} (hstop : Span.empty span'.stop = (Span.empty span.stop).insertAt p)
      (hspot : spot ≠ .nowhere)
      (htokens : Lexeme.Mended p spot (Lexeme.significant false tokens)
        (Lexeme.significant false tokens'))
      (h : Fragment.MendedAll p false fragments fragments') :
      Fragment.MendedAll p true (.splice tokens span :: fragments)
        (.splice tokens' span' :: fragments')

/-- The same tokens, and a semicolon more at `p`. -/
inductive Lexeme.Mended (p : Nat) : Spot → List Lexeme → List Lexeme → Prop where
  | nil : Lexeme.Mended p .nowhere [] []
  | cons {spot : Spot} {a a' : Lexeme} {rest rest' : List Lexeme}
      (hbreak : a'.afterLineBreak = a.afterLineBreak) (htoken : Token.Mended p false a.token a'.token)
      (havoid : a.token.Avoids p) (hbefore : spot ≠ .nowhere → a.token.span.start < p)
      (hle : a.token.span.start ≤ a.token.span.stop) (h : Lexeme.Mended p spot rest rest') :
      Lexeme.Mended p spot (a :: rest) (a' :: rest')
  | string {a a' : Lexeme} {rest rest' : List Lexeme} (hbreak : a'.afterLineBreak = a.afterLineBreak)
      (htoken : Token.Mended p true a.token a'.token) (hbefore : a.token.span.start < p)
      (hstop : a.token.span.stop ≠ p) (h : Lexeme.Mended p .nowhere rest rest') :
      Lexeme.Mended p .within (a :: rest) (a' :: rest')
  | last {a a' semicolon : Lexeme} {behind behind' : List Lexeme}
      (hbreak : a'.afterLineBreak = a.afterLineBreak) (htoken : Token.Mended p false a.token a'.token)
      (hbefore : a.token.span.start < p) (hstop : a.token.span.stop = p)
      (hkind : semicolon.token.kind = .symbol .semicolon) (hspan : semicolon.token.span = ⟨p, p + 1⟩)
      (h : Lexeme.Mended p .nowhere behind behind') :
      Lexeme.Mended p (.before behind) (a :: behind) (a' :: semicolon :: behind')

end

/-! ## The token at hand -/

namespace Token.Mended

variable {within : Bool} {t t' : Token}

theorem span (h : Token.Mended p within t t') : t'.span = t.span.insertAt p := by
  cases h with
  | plain _ _ _ hspan => exact hspan
  | interpolated _ _ hspan => exact hspan

theorem kind (h : Token.Mended p within t t') : t.kind.Resembles t'.kind := by
  cases h with
  | plain _ hkind =>
    rw [hkind]
    exact .same _
  | interpolated hkind hkind' =>
    rw [hkind, hkind']
    exact .interpolated _ _

end Token.Mended

namespace Lexeme.Mended

variable {spot : Spot}

theorem avoiding (h : Mended p .nowhere rest rest') : Avoiding p rest := by
  induction rest generalizing rest' with
  | nil => nofun
  | cons a rest ih =>
    cases h with
    | cons _ _ havoid _ _ h => exact List.forall_mem_cons.2 ⟨havoid, ih h⟩

theorem length_eq (h : Mended p spot rest rest') : rest'.length = rest.length + spot.extra := by
  induction rest generalizing rest' spot with
  | nil =>
    cases h with
    | nil => rfl
  | cons a rest ih =>
    cases h with
    | cons _ _ _ _ _ h =>
      rw [List.length_cons, List.length_cons, ih h]
      omega
    | string _ _ _ _ h => exact congrArg (· + 1) (ih h)
    | last _ _ _ _ _ _ h => exact congrArg (· + 2) (ih h)

theorem resembling (h : Mended p spot rest rest') (hspot : spot.extra = 0) :
    Resembling rest rest' := by
  induction rest generalizing rest' spot with
  | nil =>
    cases h with
    | nil => exact .nil
  | cons a rest ih =>
    cases h with
    | cons _ htoken _ _ _ h => exact .cons htoken.kind (ih h hspot)
    | string _ htoken _ _ h => exact .cons htoken.kind (ih h rfl)
    | last => cases hspot

theorem gapped (h : Mended p (.before behind) rest rest') :
    Gapped behind rest rest' ∧ behind.length < rest.length := by
  induction rest generalizing rest' with
  | nil => cases h
  | cons a rest ih =>
    cases h with
    | cons _ htoken _ _ _ h =>
      obtain ⟨hgapped, hlt⟩ := ih h
      exact ⟨.cons htoken.kind hgapped, Nat.lt_succ_of_lt hlt⟩
    | last _ htoken _ _ hkind _ h =>
      exact ⟨.cons htoken.kind (.here hkind (h.resembling rfl)), Nat.lt_succ_self _⟩

/-- Behind the place no token ends there. -/
theorem avoiding_behind (h : Mended p (.before behind) rest rest') : Avoiding p behind := by
  induction rest generalizing rest' with
  | nil => cases h
  | cons a rest ih =>
    cases h with
    | cons _ _ _ _ _ h => exact ih h
    | last _ _ _ _ _ _ h => exact h.avoiding

theorem kind_resembles (h : Mended p spot s.rest s'.rest) : s.kind.Resembles s'.kind := by
  unfold State.kind
  generalize s.rest = rest at h
  generalize s'.rest = rest' at h
  cases h with
  | nil => exact .same _
  | cons _ htoken => exact htoken.kind
  | string _ htoken => exact htoken.kind
  | last _ htoken => exact htoken.kind

theorem atEnd_eq (h : Mended p spot s.rest s'.rest) : s.atEnd = s'.atEnd := by
  unfold State.atEnd
  generalize s.rest = rest at h
  generalize s'.rest = rest' at h
  cases h <;> rfl

theorem afterLineBreak_eq (h : Mended p spot s.rest s'.rest) :
    s'.afterLineBreak = s.afterLineBreak := by
  unfold State.afterLineBreak
  generalize s.rest = rest at h
  generalize s'.rest = rest' at h
  cases h with
  | nil => rfl
  | cons hbreak => exact hbreak
  | string hbreak => exact hbreak
  | last hbreak => exact hbreak

theorem text_eq (h : Mended p spot s.rest s'.rest)
    (hstring : ∀ fragments, s.kind ≠ .interpolated fragments) : s'.text = s.text := by
  have htoken {within : Bool} {t t' : Token} (h : Token.Mended p within t t')
      (hstring : ∀ fragments, t.kind ≠ .interpolated fragments) : t'.text = t.text := by
    cases h with
    | plain _ _ htext => exact htext
    | interpolated hkind => exact absurd hkind (hstring _)
  unfold State.kind at hstring
  unfold State.text
  generalize s.rest = rest at *
  generalize s'.rest = rest' at *
  cases h with
  | nil => rfl
  | cons _ h => exact htoken h hstring
  | string _ h => exact htoken h hstring
  | last _ h => exact htoken h hstring

/-- The token at hand stands at its place, or the end of the input does. -/
theorem span_eq (h : Mended p spot s.rest s'.rest) {setting setting' : Setting}
    (hend : setting'.endOfInput = setting.endOfInput.insertAt p) :
    s'.span setting' = (s.span setting).insertAt p := by
  unfold State.span
  generalize s.rest = rest at h
  generalize s'.rest = rest' at h
  cases h with
  | nil => exact hend
  | cons _ htoken => exact htoken.span
  | string _ htoken => exact htoken.span
  | last _ htoken => exact htoken.span

end Lexeme.Mended

/-! ## Recovery -/

namespace Recovery

variable {f : Nat → List Lexeme → Nat} {depth : Nat}

/-- The function decides token by token whether to go on, by nothing but the kinds of the tokens. -/
structure Scans (f : Nat → List Lexeme → Nat) : Prop where
  nil : ∀ depth, f depth [] = 0
  cons : ∀ depth k k', k.Resembles k' →
    (∃ n, ∀ lexeme rest, lexeme.token.kind = k ∨ lexeme.token.kind = k' →
      f depth (lexeme :: rest) = n) ∨
    ∃ depth', ∀ lexeme rest, lexeme.token.kind = k ∨ lexeme.token.kind = k' →
      f depth (lexeme :: rest) = f depth' rest + 1

namespace Scans

theorem resembling (hf : Scans f) (h : Lexeme.Resembling rest rest') :
    f depth rest' = f depth rest := by
  induction h generalizing depth with
  | nil => rfl
  | cons hkind _ ih =>
    obtain ⟨n, hn⟩ | ⟨depth', hgo⟩ := hf.cons depth _ _ hkind
    · rw [hn _ _ (.inr rfl), hn _ _ (.inl rfl)]
    · rw [hgo _ _ (.inr rfl), hgo _ _ (.inl rfl), ih]

/-- Before the missing semicolon the scans go the same way. -/
theorem gapped (hf : Scans f) (depth : Nat) (h : Lexeme.Gapped behind rest rest') :
    f depth rest' = f depth rest ∨ (rest.drop (f depth rest)).length ≤ behind.length := by
  induction h generalizing depth with
  | here => exact .inr (List.drop_suffix _ _).length_le
  | cons hkind _ ih =>
    obtain ⟨n, hn⟩ | ⟨depth', hgo⟩ := hf.cons depth _ _ hkind
    · exact .inl ((hn _ _ (.inr rfl)).trans (hn _ _ (.inl rfl)).symm)
    · rw [hgo _ _ (.inr rfl), hgo _ _ (.inl rfl)]
      exact (ih depth').imp_left (congrArg (· + 1))

end Scans

theorem scans_toStatement : Scans toStatement := by
  refine ⟨fun _ => by simp [toStatement], fun depth k k' hk => ?_⟩
  cases hk with
  | interpolated =>
    refine .inr ⟨depth, fun lexeme rest hkind => ?_⟩
    obtain hkind | hkind := hkind <;> simp [toStatement, hkind]
  | same =>
    simp only [or_self]
    cases k with
    | symbol symbol =>
      by_cases hsemicolon : symbol = .semicolon ∧ depth = 0
      · exact .inl ⟨1, fun lexeme rest hkind => by simp [toStatement, hkind, hsemicolon]⟩
      by_cases hbrace : symbol = .rightBrace ∧ depth = 0
      · exact .inl ⟨0, fun lexeme rest hkind => by simp [toStatement, hkind, hbrace]⟩
      refine .inr ⟨depthAfter symbol depth, fun lexeme rest hkind => ?_⟩
      conv => lhs; unfold toStatement
      split <;> simp_all
    | keyword keyword =>
      by_cases hstarts : keyword.startsStatement = true ∧ depth = 0
      · exact .inl ⟨0, fun lexeme rest hkind => by simp [toStatement, hkind, hstarts]⟩
      refine .inr ⟨depth, fun lexeme rest hkind => ?_⟩
      conv => lhs; unfold toStatement
      split <;> simp_all
    | _ => exact .inr ⟨depth, fun lexeme rest hkind => by simp [toStatement, hkind]⟩

theorem scans_toMember : Scans toMember := by
  refine ⟨fun _ => by simp [toMember], fun depth k k' hk => ?_⟩
  cases hk with
  | interpolated =>
    refine .inr ⟨depth, fun lexeme rest hkind => ?_⟩
    obtain hkind | hkind := hkind <;> simp [toMember, hkind]
  | same =>
    simp only [or_self]
    cases k with
    | symbol symbol =>
      by_cases hsemicolon : symbol = .semicolon ∧ depth = 0
      · exact .inl ⟨1, fun lexeme rest hkind => by simp [toMember, hkind, hsemicolon]⟩
      by_cases hbrace : symbol = .rightBrace ∧ depth = 0
      · exact .inl ⟨0, fun lexeme rest hkind => by simp [toMember, hkind, hbrace]⟩
      by_cases hgroup : symbol = .rightBrace ∧ depth = 1
      · exact .inl ⟨1, fun lexeme rest hkind => by simp [toMember, hkind, hgroup]⟩
      refine .inr ⟨depthAfter symbol depth, fun lexeme rest hkind => ?_⟩
      conv => lhs; unfold toMember
      split <;> simp_all
    | keyword keyword =>
      by_cases hstarts : keyword.startsMember = true ∧ depth = 0
      · exact .inl ⟨0, fun lexeme rest hkind => by simp [toMember, hkind, hstarts]⟩
      refine .inr ⟨depth, fun lexeme rest hkind => ?_⟩
      conv => lhs; unfold toMember
      split <;> simp_all
    | _ => exact .inr ⟨depth, fun lexeme rest hkind => by simp [toMember, hkind]⟩

theorem scans_toItem : Scans toItem := by
  refine ⟨fun _ => by simp [toItem], fun depth k k' hk => ?_⟩
  cases hk with
  | interpolated =>
    refine .inr ⟨depth, fun lexeme rest hkind => ?_⟩
    obtain hkind | hkind := hkind <;> simp [toItem, hkind]
  | same =>
    simp only [or_self]
    cases k with
    | symbol symbol =>
      by_cases hsemicolon : symbol = .semicolon ∧ depth = 0
      · exact .inl ⟨1, fun lexeme rest hkind => by simp [toItem, hkind, hsemicolon]⟩
      by_cases hleft : symbol = .leftBrace
      · exact .inr ⟨depth + 1, fun lexeme rest hkind => by simp [toItem, hkind, hleft]⟩
      by_cases hright : symbol = .rightBrace
      · obtain _ | _ | depth := depth
        · exact .inr ⟨0, fun lexeme rest hkind => by simp [toItem, hkind, hright]⟩
        · exact .inl ⟨1, fun lexeme rest hkind => by simp [toItem, hkind, hright]⟩
        · exact .inr ⟨depth + 1, fun lexeme rest hkind => by simp [toItem, hkind, hright]⟩
      refine .inr ⟨depth, fun lexeme rest hkind => ?_⟩
      conv => lhs; unfold toItem
      split <;> simp_all
    | keyword keyword =>
      by_cases hstarts : keyword.startsItem = true ∧ depth = 0
      · exact .inl ⟨0, fun lexeme rest hkind => by simp [toItem, hkind, hstarts]⟩
      refine .inr ⟨depth, fun lexeme rest hkind => ?_⟩
      conv => lhs; unfold toItem
      split <;> simp_all
    | _ => exact .inr ⟨depth, fun lexeme rest hkind => by simp [toItem, hkind]⟩

end Recovery

/-- Where a construct goes on after an error, whatever the tokens are made of. -/
theorem Parts.exists_scans (parts : Parts) :
    ∃ f, Recovery.Scans f ∧ parts.recovery.resume = f 0 := by
  cases parts with
  | statements => exact ⟨_, Recovery.scans_toStatement, rfl⟩
  | members => exact ⟨_, Recovery.scans_toMember, rfl⟩
  | items => exact ⟨_, Recovery.scans_toItem, rfl⟩

end ActorFrontend
