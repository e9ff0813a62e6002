import ActorFrontend.Proofs.Bracketed.Arguments
import ActorFrontend.Proofs.Indices.Statements
import ActorFrontend.Proofs.Lexing.Onward
import ActorFrontend.Proofs.Motion.Splices
import ActorFrontend.Proofs.Tiling.Spans

/-!
# Two indices in one number

Behind a dot a number with a point in it is read as two indices of a tuple.
-/

namespace ActorFrontend

open ActorFrontend.Parser

/-! ## The tree -/

namespace Parser

variable {g : Rules} {setting : Setting} {s : State} {object : Expr} {lexeme : Lexeme}
  {rest : List Lexeme}

/-- An index of a tuple. -/
theorem member_int {value : UInt64} (hs : s.rest = lexeme :: rest)
    (hkind : lexeme.token.kind = .int value) :
    member g object setting s =
      .ok ⟨s.nextId, ⟨object.span.start, max lexeme.token.span.stop object.span.start⟩,
          .field object lexeme.token.text⟩
        { s with rest, previousEnd := lexeme.token.span.stop, nextId := s.nextId + 1 } := by
  obtain ⟨rest, previousEnd, context, depth, nextId, errors, halted⟩ := s
  obtain ⟨⟨kind, text, span⟩, lineBreak⟩ := lexeme
  subst hs
  obtain rfl : kind = .int value := hkind
  rfl

/-- Two indices in one number. -/
theorem member_float {value : Binary64} (hs : s.rest = lexeme :: rest)
    (hkind : lexeme.token.kind = .float value) :
    member g object setting s =
      .ok ⟨s.nextId + 1, ⟨object.span.start, max lexeme.token.span.stop object.span.start⟩,
          .field ⟨s.nextId, ⟨object.span.start,
              lexeme.token.span.start + Source.byteLength (splitIndices lexeme.token.text).1⟩,
            .field object (String.ofList (splitIndices lexeme.token.text).1)⟩
            (String.ofList (splitIndices lexeme.token.text).2)⟩
        { s with rest, previousEnd := lexeme.token.span.stop, nextId := s.nextId + 2 } := by
  obtain ⟨rest, previousEnd, context, depth, nextId, errors, halted⟩ := s
  obtain ⟨⟨kind, text, span⟩, lineBreak⟩ := lexeme
  subst hs
  obtain rfl : kind = .float value := hkind
  rfl

end Parser


/-- A number behind a dot, and two indices with a point between them that say the same at the same
place. -/
structure IndexPair where
  dot : Lexeme
  number : Lexeme
  first : Lexeme
  point : Lexeme
  second : Lexeme
  isDot : dot.token.kind = .symbol .dot
  isFloat : ∃ value, number.token.kind = .float value
  firstInt : ∃ value, first.token.kind = .int value
  isPoint : point.token.kind = .symbol .dot
  secondInt : ∃ value, second.token.kind = .int value
  texts : splitIndices number.token.text = (first.token.text.toList, second.token.text.toList)
  start : dot.token.span.start ≤ first.token.span.stop
  middle : number.token.span.start + Source.byteLength first.token.text.toList = first.token.span.stop
  stop : number.token.span.stop = second.token.span.stop

namespace IndexPair

/-- The two ways meet behind the second index. -/
def detour (p : IndexPair) (setting : Setting) : Detour where
  setting := setting
  dot := p.dot
  left := [p.number]
  right := [p.first, p.point, p.second]
  isDot := p.isDot
  left_number := by
    obtain ⟨value, hvalue⟩ := p.isFloat
    exact ⟨p.number, [], rfl, by rw [hvalue]; rfl⟩
  right_number := by
    obtain ⟨value, hvalue⟩ := p.firstInt
    exact ⟨p.first, [p.point, p.second], rfl, by rw [hvalue]; rfl⟩
  meets := by
    intro g minPower object s hg hrest hstart hpower
    obtain ⟨value, hnumber⟩ := p.isFloat
    obtain ⟨i, hfirst⟩ := p.firstInt
    obtain ⟨j, hsecond⟩ := p.secondInt
    let after : State :=
      { s with rest := [], previousEnd := p.second.token.span.stop, nextId := s.nextId + 2 }
    let inner : Expr :=
      ⟨s.nextId, ⟨object.span.start, p.first.token.span.stop⟩, .field object p.first.token.text⟩
    let outer : Expr :=
      ⟨s.nextId + 1, ⟨object.span.start, max p.second.token.span.stop object.span.start⟩,
        .field inner p.second.token.text⟩
    have hobject : max p.first.token.span.stop object.span.start = p.first.token.span.stop :=
      Nat.max_eq_left (Nat.le_trans hstart p.start)
    have hpair : member g object setting s = .ok outer after := by
      rw [member_float hrest hnumber, p.texts, p.middle, p.stop, String.ofList_toList,
        String.ofList_toList]
    let between : State :=
      { s with
        rest := [p.point, p.second]
        previousEnd := p.first.token.span.stop
        nextId := s.nextId + 1 }
    have hinner : member g object setting { s with rest := [p.first, p.point, p.second] } =
        .ok inner between := by
      rw [member_int rfl hfirst, hobject]
    have houter : member g inner setting between.advance = .ok outer after := member_int rfl hsecond
    -- the dot between the indices is taken in by a turn of its own
    have hpoint : between.kind = .symbol .dot := p.isPoint
    rw [bind_ok hpair, bind_ok hinner, loop_extend_dot hg inner hpoint hpower, bind_ok houter]

end IndexPair

/-! ## Readings of whole texts -/

namespace Expr.ReadFrom

variable {setting : Setting} {lexemes lexemes' : List Lexeme} {e : Expr}

/-- Where only the places of tokens differ the same expression is read. -/
theorem alike (h : e.ReadFrom setting lexemes) (setting' : Setting)
    (hlimits : setting.limits = setting'.limits)
    (hlexemes : Lexeme.AlikeUpTo ⟨false, true, false⟩ .none lexemes lexemes') :
    ∃ e' : Expr, e'.ReadFrom setting' lexemes' ∧
      relabel .withoutSpans e = relabel .withoutSpans e' := by
  let L : Likeness := ⟨false, true, false⟩
  obtain ⟨after, hexpr, hend, hsilent⟩ := h
  have halike := (Rules.alike_within (L := L) Limits.standard.maxDepth).expr 0
  have htogether : (State.initial setting lexemes).Together L .none setting setting' [] .unread none
      (State.initial setting' lexemes') :=
    State.together_initial (.of_unplaced rfl) hlexemes (by rw [hlimits]) rfl
  have hruns := halike.together (.of_unplaced rfl) htogether
  have hkept := halike.keepAlike.left setting (.initial setting lexemes)
  have hreply : (Rules.within Limits.standard.maxDepth).expr 0 setting (.initial setting lexemes) =
      .ok e after := hexpr
  rw [hreply] at hruns hkept
  have hquiet : ¬ after.Noted := by
    rintro (hnoted | hnoted)
    · exact hnoted hsilent
    · exact absurd ((hkept.unspent hsilent).symm.trans hnoted) Bool.false_ne_true
  obtain ⟨e', after', hexpr', hafter, hsame⟩ := hruns.of_done hend hquiet
  refine ⟨e', ⟨after', hexpr', ?_, hafter.errors_right⟩, hsame⟩
  cases hafter.meet with
  | behind hcut => exact absurd rfl hcut
  | before hleft =>
    rw [hend] at hleft
    generalize after'.rest = left at hleft
    cases hleft
    rfl

/-- Where the ways meet again the same expression is read on both of them. -/
theorem rejoin {d : Detour} {us : List Lexeme} (h : e.ReadFrom d.setting (us ++ d.dot :: d.left))
    (hstart : ∀ lexeme ∈ us, lexeme.token.span.start ≤ d.dot.token.span.start) :
    e.ReadFrom d.setting (us ++ d.dot :: d.right) := by
  obtain ⟨after, hexpr, hend, hsilent⟩ := h
  have hbefore : d.Before (.initial d.setting (us ++ d.dot :: d.left))
      (.initial d.setting (us ++ d.dot :: d.right)) :=
    ⟨⟨us, hstart, rfl, rfl⟩, by cases us <;> rfl, rfl, rfl⟩
  obtain ⟨after', hexpr', hinside | rfl⟩ :=
    ((Rules.rejoin_within Limits.standard.maxDepth).expr 0 _).rejoins d _ _ e after rfl hbefore hexpr
      hsilent
  · obtain ⟨ts, -, hrest, -⟩ := hinside.rest
    rw [hend] at hrest
    exact absurd hrest.symm (by simp)
  · exact ⟨after', hexpr', hend, hsilent⟩

end Expr.ReadFrom

/-! ## The tokens of both texts -/

/-- What stands before some tokens does not depend on them. -/
theorem Lexeme.exists_significant_append {ts : List Token}
    (hts : ∀ t ∈ ts, t.kind.isEndOfFile = false) (lineBreak : Bool) :
    ∃ lineBreak', ∀ us, significant lineBreak (ts ++ us) =
      significant lineBreak ts ++ significant lineBreak' us := by
  induction ts generalizing lineBreak with
  | nil => exact ⟨lineBreak, fun _ => rfl⟩
  | cons t ts ih =>
    obtain ⟨ht, hts⟩ := List.forall_mem_cons.1 hts
    cases htrivia : t.isTrivia with
    | true =>
      obtain ⟨lineBreak', hmore⟩ := ih hts (lineBreak || t.hasLineBreak)
      exact ⟨lineBreak', fun us => by simp [significant, htrivia, hmore]⟩
    | false =>
      obtain ⟨lineBreak', hmore⟩ := ih hts false
      exact ⟨lineBreak', fun us => by simp [significant, htrivia, ht, hmore]⟩

/-- A space does not end a line. -/
theorem Lexeme.significant_space (lineBreak : Bool) (span : Span) (ts : List Token) :
    significant lineBreak (⟨.whitespace, " ", span⟩ :: ts) = significant lineBreak ts := by
  have hspace : (⟨.whitespace, " ", span⟩ : Token).hasLineBreak = false := by simp [Token.hasLineBreak]
  rw [significant, hspace, Bool.or_false]
  rfl

/-- The same token at another place. -/
def Lexeme.movedTo (span : Span) (lexeme : Lexeme) : Lexeme :=
  ⟨{ lexeme.token with span }, lexeme.afterLineBreak⟩

/-- The token of a dot. -/
def Token.dotAt (offset : Nat) : Token := ⟨.symbol .dot, ".", ⟨offset, offset + 1⟩⟩

/-- Behind a text that ends with a word or a closing bracket stand a dot and the tokens of what
follows. -/
theorem tokenize_append_dot {t : String}
    (ht : ∃ last ∈ (tokenize t).tokens.dropLast.getLast?, last.kind.isWordOrCloser = true) :
    ∃ us lineBreak, (∀ lexeme ∈ us, lexeme.token.span.start ≤ Source.byteLength t.toList) ∧
      ∀ (u : String) (c : Char) (cs : List Char), u.toList = c :: cs → c ≠ '.' →
        let lexed := Token.readAll (Source.byteLength t.toList + 1) u.toList
        Lexeme.significant false (tokenize (t ++ "." ++ u)).tokens =
            us ++ ⟨Token.dotAt (Source.byteLength t.toList), lineBreak⟩ ::
              Lexeme.significant false lexed.tokens ∧
          (tokenize (t ++ "." ++ u)).errors = (tokenize t).errors ++ lexed.errors := by
  obtain ⟨last, hlast, hcloses⟩ := ht
  rw [tokenize, Lexer.finish_ofSource, List.dropLast_concat] at hlast
  obtain ⟨ts, hts⟩ := List.getLast?_eq_some_iff.1 hlast
  have hspells := spells_readAll t.toList 0 (List.Subset.refl _)
  obtain ⟨lineBreak, hsignificant⟩ :=
    Lexeme.exists_significant_append hspells.isEndOfFile_kind false
  refine ⟨Lexeme.significant false (Token.readAll 0 t.toList).tokens, lineBreak, ?_, ?_⟩
  · intro lexeme hlexeme
    have hmem := List.mem_map_of_mem (f := Token.span) (Lexeme.token_mem_of_mem_significant hlexeme)
    obtain ⟨-, hlt, hle⟩ := hspells.tile.within _ hmem
    omega
  · intro u c cs hu hc
    have hread := Token.readAll_append_dot hts hcloses u.toList
    rw [Nat.zero_add, hu, Token.readAll_dot _ hc, ← hu] at hread
    have htext : (t ++ "." ++ u).toList = t.toList ++ '.' :: u.toList := by simp
    rw [tokenize, tokenize, Lexer.finish_ofSource, Lexer.finish_ofSource, Lexeme.significant_endAt,
      htext, hread.1, hread.2, hsignificant]
    exact ⟨rfl, rfl⟩

/-! ## Both texts -/

section

variable {a b : String} {i j : UInt64}

theorem splitIndices_append (ha : IsToken a (.int i)) :
    splitIndices (a ++ "." ++ b) = (a.toList, b.toList) := by
  have hbefore : ∀ c ∈ a.toList, decide (c ≠ '.') = true := fun c hc =>
    decide_eq_true fun hdot => ha.dot_notMem (hdot ▸ hc)
  have htext : (a ++ "." ++ b).toList = a.toList ++ '.' :: b.toList := by simp
  rw [splitIndices, htext, List.takeWhile_append_of_pos hbefore, List.dropWhile_append_of_pos hbefore]
  simp

/-- The two indices that a number says, behind a dot. -/
def IndexPair.ofTexts (ha : IsToken a (.int i)) (b : String) (j : UInt64) (value : Binary64)
    (offset : Nat) (lineBreak : Bool) : IndexPair :=
  let first := offset + 1
  let point := first + Source.byteLength a.toList + 1
  let stop := point + 1 + Source.byteLength b.toList
  { dot := ⟨Token.dotAt offset, lineBreak⟩
    number := ⟨⟨.float value, a ++ "." ++ b, ⟨first, stop⟩⟩, false⟩
    first := ⟨⟨.int i, a, ⟨first, first + Source.byteLength a.toList⟩⟩, false⟩
    point := ⟨Token.dotAt point, false⟩
    second := ⟨⟨.int j, b, ⟨point + 1, stop⟩⟩, false⟩
    isDot := rfl
    isFloat := ⟨value, rfl⟩
    firstInt := ⟨i, rfl⟩
    isPoint := rfl
    secondInt := ⟨j, rfl⟩
    texts := splitIndices_append ha
    start := by
      show offset ≤ offset + 1 + Source.byteLength a.toList
      omega
    middle := rfl
    stop := rfl }

/-- With a space before the dot between them the indices are tokens of their own. -/
theorem readAll_spaced (ha : IsToken a (.int i)) (hb : IsToken b (.int j)) (offset : Nat) :
    let point := offset + Source.byteLength a.toList + 1
    Token.readAll offset (a ++ " ." ++ b).toList =
      ⟨[⟨.int i, a, ⟨offset, offset + Source.byteLength a.toList⟩⟩,
        ⟨.whitespace, " ", ⟨offset + Source.byteLength a.toList, point⟩⟩, Token.dotAt point,
        ⟨.int j, b, ⟨point + 1, point + 1 + Source.byteLength b.toList⟩⟩], []⟩ := by
  obtain ⟨c, cs, hbc, hc⟩ := hb.exists_cons
  have htext : (a ++ " ." ++ b).toList = a.toList ++ ' ' :: '.' :: b.toList := by simp
  rw [htext, ha.readAll_append_space, Token.readAll_space _ (by decide), hbc, Token.readAll_dot _ hc,
    ← hbc, hb.readAll_eq nofun]
  rfl

/-- The tokens of the two texts are the same up to the dot behind which the indices stand, and the same
is wrong with them. -/
theorem tokenize_indices {t : String} {value : Binary64}
    (ht : ∃ last ∈ (tokenize t).tokens.dropLast.getLast?, last.kind.isWordOrCloser = true)
    (hab : IsToken (a ++ "." ++ b) (.float value)) (ha : IsToken a (.int i)) (hb : IsToken b (.int j)) :
    ∃ (p : IndexPair) (us : List Lexeme) (span : Span),
      (∀ lexeme ∈ us, lexeme.token.span.start ≤ p.dot.token.span.start) ∧
      Lexeme.significant false (tokenize (t ++ "." ++ (a ++ "." ++ b))).tokens =
        us ++ [p.dot, p.number.movedTo span] ∧
      Lexeme.significant false (tokenize (t ++ "." ++ (a ++ " ." ++ b))).tokens =
        us ++ p.dot :: [p.first, p.point, p.second] ∧
      (tokenize (t ++ "." ++ (a ++ "." ++ b))).errors =
        (tokenize (t ++ "." ++ (a ++ " ." ++ b))).errors := by
  obtain ⟨us, lineBreak, hstart, hmore⟩ := tokenize_append_dot ht
  obtain ⟨c, cs, hac, hc⟩ := ha.exists_cons
  have hjoined : (a ++ "." ++ b).toList = c :: (cs ++ '.' :: b.toList) := by simp [hac]
  have hspaced : (a ++ " ." ++ b).toList = c :: (cs ++ ' ' :: '.' :: b.toList) := by simp [hac]
  obtain ⟨hlexemes, herrors⟩ := hmore (a ++ "." ++ b) _ _ hjoined hc
  obtain ⟨hlexemes', herrors'⟩ := hmore (a ++ " ." ++ b) _ _ hspaced hc
  have hread := hab.readAll_eq nofun (Source.byteLength t.toList + 1)
  have hread' := readAll_spaced ha hb (Source.byteLength t.toList + 1)
  simp only at hread'
  rw [hread] at hlexemes herrors
  rw [hread'] at hlexemes' herrors'
  refine ⟨.ofTexts ha b j value (Source.byteLength t.toList) lineBreak, us, _, hstart, hlexemes,
    hlexemes'.trans ?_, herrors.trans herrors'.symm⟩
  change us ++ _ :: _ :: Lexeme.significant false (⟨.whitespace, " ", _⟩ :: _) = _
  rw [Lexeme.significant_space]
  rfl

/-- Where a number with a point in it stands behind a dot it is read as the two indices that it is made
of: the same expression is read, or none, where they are written apart. -/
theorem parseExpression_indices (t a b : String) (i j : UInt64) (value : Binary64)
    (ht : ∃ last ∈ (tokenize t).tokens.dropLast.getLast?, last.kind.isWordOrCloser = true)
    (hab : IsToken (a ++ "." ++ b) (.float value)) (ha : IsToken a (.int i)) (hb : IsToken b (.int j)) :
    (parseExpression (t ++ "." ++ a ++ "." ++ b)).toOption.map (relabel .withoutSpans) =
      (parseExpression (t ++ "." ++ a ++ " ." ++ b)).toOption.map (relabel .withoutSpans) := by
  have hassoc : t ++ "." ++ a ++ "." ++ b = t ++ "." ++ (a ++ "." ++ b) := by
    simp only [String.append_assoc]
  have hassoc' : t ++ "." ++ a ++ " ." ++ b = t ++ "." ++ (a ++ " ." ++ b) := by
    simp only [String.append_assoc]
  obtain ⟨p, us, span, hstart, hjoined, hspaced, herrors⟩ := tokenize_indices ht hab ha hb
  rw [hassoc, hassoc']
  generalize t ++ "." ++ (a ++ "." ++ b) = joined at *
  generalize t ++ "." ++ (a ++ " ." ++ b) = spaced at *
  let setting (text : String) : Setting := ⟨.standard, Session.endOf (tokenize text).tokens⟩
  -- the number stands at another place than the indices
  have hplace (number number' : Lexeme) (hkind : number.token.kind = number'.token.kind)
      (htext : number.token.text = number'.token.text) :
      Lexeme.AlikeUpTo ⟨false, true, false⟩ .none (us ++ [p.dot, number]) (us ++ [p.dot, number']) := by
    have hnumber : Lexeme.AlikeUpTo ⟨false, true, false⟩ .none [number] [number'] :=
      .cons (hkind ▸ .same _) (fun _ => htext) nofun (fun _ _ => rfl) .nil
    have hdot : Lexeme.AlikeUpTo ⟨false, true, false⟩ .none [p.dot, number] [p.dot, number'] := by
      refine .cons (.same _) (fun _ => rfl) nofun (fun value hint => ?_) hnumber
      rw [p.isDot] at hint
      cases hint
    exact hdot.prepend us
  have hforth {e : Expr} (h : parseExpression joined = .ok e) :
      ∃ e', parseExpression spaced = .ok e' ∧ relabel .withoutSpans e = relabel .withoutSpans e' := by
    obtain ⟨hlexical, hread⟩ := parseExpression_eq_ok_iff.1 h
    rw [hjoined] at hread
    obtain ⟨e', hread', hsame⟩ := hread.alike (setting spaced) rfl (hplace _ p.number rfl rfl)
    have hrejoins : e'.ReadFrom (setting spaced) (us ++ p.dot :: [p.first, p.point, p.second]) :=
      Expr.ReadFrom.rejoin (d := p.detour (setting spaced)) hread' hstart
    exact ⟨e', parseExpression_eq_ok_iff.2 ⟨herrors ▸ hlexical, hspaced ▸ hrejoins⟩, hsame⟩
  have hback {e : Expr} (h : parseExpression spaced = .ok e) :
      ∃ e', parseExpression joined = .ok e' ∧ relabel .withoutSpans e = relabel .withoutSpans e' := by
    obtain ⟨hlexical, hread⟩ := parseExpression_eq_ok_iff.1 h
    rw [hspaced] at hread
    have hrejoins : e.ReadFrom (setting spaced) (us ++ p.dot :: [p.number]) :=
      Expr.ReadFrom.rejoin (d := (p.detour (setting spaced)).swap) hread hstart
    obtain ⟨e', hread', hsame⟩ :=
      hrejoins.alike (setting joined) rfl (hplace _ (p.number.movedTo span) rfl rfl)
    exact ⟨e', parseExpression_eq_ok_iff.2 ⟨herrors ▸ hlexical, hjoined ▸ hread'⟩, hsame⟩
  cases h : parseExpression joined with
  | ok e =>
    obtain ⟨e', h', hsame⟩ := hforth h
    rw [h']
    exact congrArg some hsame
  | error errors =>
    cases h' : parseExpression spaced with
    | ok e' =>
      obtain ⟨e, hread, -⟩ := hback h'
      rw [h] at hread
      cases hread
    | error errors' => rfl

end

/-- Two indices of what a call answers. -/
theorem parseExpression_indices_of_call :
    (∃ last ∈ (tokenize "f(x)").tokens.dropLast.getLast?, last.kind.isWordOrCloser = true) ∧
      IsToken ("0" ++ "." ++ "1_0") (.float (Binary64.read "0.1_0".toList)) ∧ IsToken "0" (.int 0) ∧
      IsToken "1_0" (.int 10) ∧ (parseExpression "f(x).0.1_0").toOption.isSome = true ∧
      (parseExpression ("f(x)" ++ "." ++ "0" ++ "." ++ "1_0")).toOption.map (relabel .withoutSpans) =
        (parseExpression ("f(x)" ++ "." ++ "0" ++ " ." ++ "1_0")).toOption.map
          (relabel .withoutSpans) := by
  have hlast : ∃ last ∈ (tokenize "f(x)").tokens.dropLast.getLast?, last.kind.isWordOrCloser = true := by
    decide +kernel
  have hfloat : IsToken ("0" ++ "." ++ "1_0") (.float (Binary64.read "0.1_0".toList)) := ⟨rfl, rfl⟩
  have hfirst : IsToken "0" (.int 0) := ⟨rfl, rfl⟩
  have hsecond : IsToken "1_0" (.int 10) := ⟨rfl, rfl⟩
  exact ⟨hlast, hfloat, hfirst, hsecond, by decide +kernel,
    parseExpression_indices "f(x)" "0" "1_0" 0 10 _ hlast hfloat hfirst hsecond⟩

/-- A number with an exponent, or with more digits than fit an index, is read as two indices as well, and
written apart it is not. -/
theorem parseExpression_indices_ne_of_exponent :
    (IsToken ("1" ++ "." ++ "5e3") (.float (Binary64.read "1.5e3".toList)) ∧
      (parseExpression ("t" ++ "." ++ "1" ++ "." ++ "5e3")).toOption.isSome = true ∧
      (parseExpression ("t" ++ "." ++ "1" ++ " ." ++ "5e3")).toOption.isSome = false) ∧
    (IsToken ("0" ++ "." ++ "99999999999999999999")
        (.float (Binary64.read "0.99999999999999999999".toList)) ∧
      (parseExpression ("t" ++ "." ++ "0" ++ "." ++ "99999999999999999999")).toOption.isSome = true ∧
      (parseExpression ("t" ++ "." ++ "0" ++ " ." ++ "99999999999999999999")).toOption.isSome = false) := by
  refine ⟨⟨⟨rfl, rfl⟩, ?_, ?_⟩, ⟨rfl, rfl⟩, ?_, ?_⟩ <;> decide +kernel

end ActorFrontend
