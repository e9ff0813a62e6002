import ActorFrontend.Grammar.Items
import ActorFrontend.Proofs.Course.Types

/-!
# Looking past type parameters

Behind `type Name` the tokens of a group in angle brackets are passed over one by one, without being
read as types.  The group is given up at a semicolon, and of all types only arrays with a length hold
one.  So the look ends where the type parameters end, or in the first array that stands in a bound.
-/

namespace ActorFrontend

variable {α β : Type} {setting : Setting} {s : State} {g : Rules}

/-! ## Arrays in types -/

mutual

/-- Whether an array with a length stands somewhere in the type. -/
def TypeExpr.hasArray : TypeExpr → Bool
  | ⟨_, _, kind⟩ => kind.hasArray

def TypeKind.hasArray : TypeKind → Bool
  | .named _ args => haveArray args
  | .unit => false
  | .tuple elems => haveArray elems
  | .array _ _ => true
  | .slice elem => elem.hasArray
  | .function params none => haveArray params
  | .function params (some ret) => haveArray params || ret.hasArray
  | .pointer _ pointee => pointee.hasArray
  | .traitObject bounds => boundsHaveArray bounds

def Bound.hasArray : Bound → Bool
  | ⟨_, args, _⟩ => haveArray args

def haveArray : List TypeExpr → Bool
  | [] => false
  | t :: ts => t.hasArray || haveArray ts

def boundsHaveArray : List Bound → Bool
  | [] => false
  | b :: bs => b.hasArray || boundsHaveArray bs

end

theorem haveArray_eq (ts : List TypeExpr) : haveArray ts = ts.any TypeExpr.hasArray := by
  induction ts with
  | nil => rfl
  | cons t ts ih => rw [haveArray, List.any_cons, ih]

theorem boundsHaveArray_eq (bs : List Bound) : boundsHaveArray bs = bs.any Bound.hasArray := by
  induction bs with
  | nil => rfl
  | cons b bs ih => rw [boundsHaveArray, List.any_cons, ih]

/-- Whether an array with a length stands in one of the bounds of the parameter. -/
def TypeParam.hasArray (p : TypeParam) : Bool := p.bounds.any Bound.hasArray

/-! ## What the look passes over -/

open ActorFrontend.Parser

namespace TokenKind

/-- Whether the token neither opens nor closes a group in angle brackets, nor gives one up. -/
def isSteppedOver : TokenKind → Bool
  | .symbol .lt | .symbol .gt | .symbol .leftBrace | .symbol .semicolon | .symbol .eq => false
  | _ => true

end TokenKind

theorem afterAngles_of_isSteppedOver {lexeme : Lexeme} {rest : List Lexeme} (depth : Nat)
    (h : lexeme.token.kind.isSteppedOver = true) :
    afterAngles depth (lexeme :: rest) = afterAngles depth rest := by
  rw [afterAngles]
  split
  case h_6 => rfl
  all_goals
    rename_i hkind
    rw [hkind] at h
    exact absurd h Bool.false_ne_true

/-- Within a group in angle brackets, the look does not get past a semicolon that stands before the
second place. -/
def GivesUp (rest rest' : List Lexeme) : Prop :=
  ∀ depth, ∃ lexeme behind, afterAngles (depth + 1) rest = lexeme :: behind ∧
    lexeme.token.kind = .symbol .semicolon ∧ rest' <:+ behind

/-- Within a group in angle brackets, the look passes from the first place on to the second one, or
it gives up between them at the semicolon of an array. -/
def Passes (array : Bool) (rest rest' : List Lexeme) : Prop :=
  rest' <:+ rest ∧
    if array = true then GivesUp rest rest'
    else ∀ depth, afterAngles (depth + 1) rest = afterAngles (depth + 1) rest'

/-- Where the reading succeeds, the look passes over all that was read since `rest`. -/
def Reply.Passed (rest : List Lexeme) (array : α → Bool) (r : Reply α) : Prop :=
  r.Ends (fun a after => Passes (array a) rest after.rest) fun _ => True

/-- The look passes over what the parser reads, unless it holds an array. -/
def Parser.Skips (array : α → Bool) (p : Parser α) : Prop :=
  ∀ setting s, (p setting s).Passed s.rest array

/-- Elements that no array stands in. -/
def plain : α → Bool := fun _ => false

namespace Passes

variable {held more : Bool} {lexeme : Lexeme} {rest rest' rest'' : List Lexeme}

theorem refl (rest : List Lexeme) : Passes false rest rest := ⟨List.suffix_rfl, fun _ => rfl⟩

theorem suffix (h : Passes held rest rest') : rest' <:+ rest := h.1

theorem givesUp (h : Passes true rest rest') : GivesUp rest rest' := h.2

theorem afterAngles_eq (h : Passes false rest rest') (depth : Nat) :
    afterAngles (depth + 1) rest = afterAngles (depth + 1) rest' := h.2 depth

theorem trans (h : Passes held rest rest') (h' : Passes more rest' rest'') :
    Passes (held || more) rest rest'' := by
  refine ⟨h'.suffix.trans h.suffix, ?_⟩
  cases held with
  | true =>
    intro depth
    obtain ⟨lexeme, behind, heq, hkind, hsuffix⟩ := h.givesUp depth
    exact ⟨lexeme, behind, heq, hkind, h'.suffix.trans hsuffix⟩
  | false =>
    cases more with
    | false => exact fun depth => (h.afterAngles_eq depth).trans (h'.afterAngles_eq depth)
    | true =>
      -- the look comes to the second place and gives up behind it
      intro depth
      rw [h.afterAngles_eq depth]
      exact h'.givesUp depth

/-- A token that is stepped over. -/
theorem steppedOver (h : lexeme.token.kind.isSteppedOver = true) : Passes false (lexeme :: rest) rest :=
  ⟨List.suffix_cons _ _, fun depth => afterAngles_of_isSteppedOver (depth + 1) h⟩

theorem semicolon (h : lexeme.token.kind = .symbol .semicolon) :
    Passes true (lexeme :: rest) rest := by
  refine ⟨List.suffix_cons _ _, fun depth => ⟨lexeme, rest, ?_, h, List.suffix_rfl⟩⟩
  rw [afterAngles, h]

variable {opening closing : Lexeme}

theorem afterAngles_opening (h : opening.token.kind = .symbol .lt) (depth : Nat) :
    afterAngles depth (opening :: rest) = afterAngles (depth + 1) rest := by
  rw [afterAngles, h]

/-- A whole group within another one. -/
theorem group (hopening : opening.token.kind = .symbol .lt)
    (hclosing : closing.token.kind = .symbol .gt) (h : Passes held rest (closing :: rest')) :
    Passes held (opening :: rest) rest' := by
  have hclosed : rest' <:+ closing :: rest' := List.suffix_cons _ _
  refine ⟨(hclosed.trans h.suffix).trans (List.suffix_cons _ _), ?_⟩
  cases held with
  | true =>
    intro depth
    rw [afterAngles_opening hopening]
    obtain ⟨lexeme, behind, heq, hkind, hsuffix⟩ := h.givesUp (depth + 1)
    exact ⟨lexeme, behind, heq, hkind, hclosed.trans hsuffix⟩
  | false =>
    intro depth
    have hdepth : ¬ depth + 2 ≤ 1 := by omega
    rw [afterAngles_opening hopening, h.afterAngles_eq (depth + 1), afterAngles, hclosing]
    exact if_neg hdepth

/-- The group that is looked past, if no array stands in it. -/
theorem outermost (hopening : opening.token.kind = .symbol .lt)
    (hclosing : closing.token.kind = .symbol .gt) (h : Passes false rest (closing :: rest')) :
    afterAngles 0 (opening :: rest) = rest' := by
  rw [afterAngles_opening hopening, h.afterAngles_eq 0, afterAngles, hclosing]
  exact if_pos (Nat.le_refl 1)

/-! ### Steps of a reading -/

variable {array : α → Bool} {array' : β → Bool} {p : Parser α} {q : α → Parser β}

theorem value {a : α} (h : Passes held rest s.rest) (heq : array a = held) :
    ((pure a : Parser α) setting s).Passed rest array := by
  have hvalue : Passes (array a) rest s.rest := by rw [heq]; exact h
  exact hvalue

theorem bind (h : Passes held rest s.rest) (hp : p.Skips array)
    (hq : ∀ a s', Passes (held || array a) rest s'.rest → (q a setting s').Passed rest array') :
    ((p >>= q) setting s).Passed rest array' := by
  have hfirst : (p setting s).Passed rest fun a => held || array a :=
    (hp setting s).imp (fun a after hread => h.trans hread) fun _ _ => trivial
  exact Reply.Ends.bind hfirst hq

/-- A reading that no array can stand in. -/
theorem step (h : Passes held rest s.rest) (hp : p.Skips plain)
    (hq : ∀ a s', Passes held rest s'.rest → (q a setting s').Passed rest array') :
    ((p >>= q) setting s).Passed rest array' := by
  refine h.bind hp fun a s' h => hq a s' ?_
  rwa [plain, Bool.or_false] at h

/-- What was read, with its place. -/
theorem part {start : Nat} {make : Span → α} (h : Passes held rest s.rest)
    (heq : ∀ span, array (make span) = held) :
    ((spanFrom start >>= fun span => pure (make span)) setting s).Passed rest array :=
  @value _ setting s _ _ _ _ h (heq _)

theorem kind {q : TokenKind → Parser β}
    (hq : ∀ kind, s.kind = kind → (q kind setting s).Passed rest array') :
    ((Parser.kind >>= q) setting s).Passed rest array' := hq s.kind rfl

/-- The node around what was read. -/
theorem node {start : Nat} {make : NodeId → Span → α} (h : Passes held rest s.rest)
    (heq : ∀ id span, array (make id span) = held) :
    (Parser.node start make setting s).Passed rest array :=
  @value _ setting { s with nextId := s.nextId + 1 } _ _ _ _ h (heq _ _)

/-- The token at hand, if that is stepped over. -/
theorem advance (h : Passes held rest s.rest) (hkind : s.kind.isSteppedOver = true) :
    Passes held rest s.advance.rest := by
  unfold State.kind at hkind
  unfold State.advance
  cases hrest : s.rest with
  | nil =>
    show Passes held rest s.rest
    exact h
  | cons lexeme behind =>
    rw [hrest] at h hkind
    have hover : Passes false (lexeme :: behind) behind := steppedOver hkind
    have hnext := h.trans hover
    rwa [Bool.or_false] at hnext

end Passes

namespace Parser

variable {array : α → Bool} {p : Parser α} {announced : Parser Bool} {close : Symbol}

/-! ## Tokens and lists -/

theorem skips_acceptIf {test : TokenKind → Bool}
    (htest : ∀ kind, test kind = true → kind.isSteppedOver = true) : (acceptIf test).Skips plain := by
  intro setting s
  rw [acceptIf_eq]
  split
  case isTrue h => exact (Passes.refl s.rest).advance (htest _ h)
  case isFalse => exact Passes.refl s.rest

theorem skips_require {test : TokenKind → Bool} (wanted : Expected)
    (htest : ∀ kind, test kind = true → kind.isSteppedOver = true) :
    (require test wanted).Skips plain := by
  intro setting s
  refine (Passes.refl s.rest).step (skips_acceptIf htest) fun found s' h => ?_
  cases found with
  | true => exact h.value rfl
  | false => trivial

theorem skips_valueOf {value? : TokenKind → Option α} (wanted : Expected)
    (htest : ∀ kind a, value? kind = some a → kind.isSteppedOver = true) :
    (valueOf value? wanted).Skips plain := by
  intro setting s
  rw [valueOf_eq]
  split
  case h_1 a hvalue => exact (Passes.refl s.rest).advance (htest _ a hvalue)
  case h_2 => trivial

theorem isSteppedOver_of_isSymbol {symbol : Symbol} (hsymbol : (TokenKind.symbol symbol).isSteppedOver = true) {kind : TokenKind}
    (h : kind.isSymbol symbol = true) : kind.isSteppedOver = true := by
  rw [TokenKind.eq_of_isSymbol h]
  exact hsymbol

theorem skips_accept {symbol : Symbol} (h : (TokenKind.symbol symbol).isSteppedOver = true) :
    (accept symbol).Skips plain := skips_acceptIf fun _ => isSteppedOver_of_isSymbol h

theorem skips_expect {symbol : Symbol} (h : (TokenKind.symbol symbol).isSteppedOver = true) :
    (expect symbol).Skips plain := skips_require _ fun _ => isSteppedOver_of_isSymbol h

theorem skips_name : name.Skips plain := by
  refine skips_valueOf _ fun kind a h => ?_
  cases kind with
  | ident _ => rfl
  | _ => cases h

/-- Whether an array stands in something found in one of the turns. -/
def turnsHave (array : α → Bool) (turns : List (List α)) : Bool := turns.any fun found => found.any array

theorem skips_collect {step : Parser (Bool × List α)} (hstep : step.Skips fun r => r.2.any array) :
    (collect step).Skips fun found => found.any array := by
  intro setting s
  have hturns : (loop (collectTurn step) [] setting s).Passed s.rest (turnsHave array) := by
    refine ends_loop (fun turns after => Passes (turnsHave array turns) s.rest after.rest) ?_
      (Passes.refl s.rest)
    intro turns s' h
    refine h.bind hstep fun r s'' h => ?_
    show Passes (turnsHave array (r.2 :: turns)) s.rest s''.rest
    rwa [turnsHave, List.any_cons, Bool.or_comm]
  refine Reply.Ends.bind hturns fun turns s' h => ?_
  show Passes (turns.reverse.flatten.any array) s.rest s'.rest
  rwa [List.any_flatten, List.any_reverse]

theorem skips_pathTurn : pathTurn.Skips fun r => r.2.any (plain : String → Bool) := by
  intro setting s
  unfold pathTurn
  rw [query_bind]
  split
  case isTrue hmore =>
    obtain ⟨hkind, _⟩ := Bool.and_eq_true_iff.1 hmore
    have h := (Passes.refl s.rest).advance (isSteppedOver_of_isSymbol rfl hkind)
    rw [advance_bind]
    exact h.step skips_name fun part s h => h.value rfl
  case isFalse => exact Passes.refl s.rest

theorem skips_path : path.Skips plain := by
  intro setting s
  refine (Passes.refl s.rest).step skips_name fun first s h => ?_
  refine h.bind (skips_collect skips_pathTurn) fun more s h => h.value ?_
  simp [plain]

theorem skips_commaElems (hp : p.Skips array) :
    (collect (commaTurn close p)).Skips fun found => found.any array := by
  refine skips_collect fun setting s => ?_
  unfold commaTurn
  rw [sees, query_bind]
  split
  case isTrue => exact Passes.refl s.rest
  case isFalse =>
    refine (Passes.refl s.rest).bind hp fun a s h => ?_
    refine h.step (skips_accept rfl) fun again s h => h.value ?_
    simp

/-- Elements up to a token that is stepped over. -/
theorem skips_commaList (hclose : (TokenKind.symbol close).isSteppedOver = true)
    (hp : p.Skips array) : (commaList close p).Skips fun found => found.any array := by
  intro setting s
  refine (Passes.refl s.rest).bind (skips_commaElems hp) fun elems s h => ?_
  rw [Bool.false_or] at h
  exact h.step (skips_expect hclose) fun _ s h => h.value rfl

/-- The token at hand and those behind it. -/
theorem rest_eq_of_kind {symbol : Symbol} (h : s.kind = .symbol symbol) :
    ∃ lexeme, lexeme.token.kind = .symbol symbol ∧ s.rest = lexeme :: s.advance.rest := by
  unfold State.kind at h
  unfold State.advance
  cases hrest : s.rest with
  | nil =>
    rw [hrest] at h
    cases h
  | cons lexeme behind =>
    rw [hrest] at h
    exact ⟨lexeme, h, rfl⟩

/-- Elements in angle brackets, or nothing: where the brackets stand. -/
theorem ends_angleList (hp : p.Skips array) :
    (listIf (accept .lt) (commaList .gt p) setting s).Ends
      (fun elems after => (s.kind.isSymbol .lt = false ∧ elems = [] ∧ after = s) ∨
        ∃ opening closing inner, opening.token.kind = .symbol .lt ∧
          closing.token.kind = .symbol .gt ∧ s.rest = opening :: inner ∧
          Passes (elems.any array) inner (closing :: after.rest)) fun _ => True := by
  show ((acceptIf _ >>= _ : Parser (List α)) setting s).Ends _ _
  by_cases hopens : s.kind.isSymbol .lt = true
  case neg =>
    have hnone : acceptIf (·.isSymbol .lt) setting s = .ok false s := by rw [acceptIf_eq, if_neg hopens]
    rw [bind_ok hnone]
    exact .inl ⟨Bool.eq_false_iff.2 hopens, rfl, rfl⟩
  case pos =>
    have hopen : acceptIf (·.isSymbol .lt) setting s = .ok true s.advance := by
      rw [acceptIf_eq, if_pos hopens]
    obtain ⟨opening, hopening, hrest⟩ := rest_eq_of_kind (TokenKind.eq_of_isSymbol hopens)
    rw [bind_ok hopen]
    refine Reply.Ends.bind (skips_commaElems hp setting s.advance) fun elems t h => ?_
    -- the elements end at the closing bracket, or the list is no list
    by_cases hcloses : t.kind.isSymbol .gt = true
    · obtain ⟨closing, hclosing, hbehind⟩ := rest_eq_of_kind (TokenKind.eq_of_isSymbol hcloses)
      have hclose : expect .gt setting t = .ok () t.advance := by rw [expect, require_eq, if_pos hcloses]
      rw [bind_ok hclose]
      rw [hbehind] at h
      exact .inr ⟨opening, closing, s.advance.rest, hopening, hclosing, hrest, h⟩
    · have hfail : (expect .gt setting t).Ends (fun _ _ => False) fun _ => True := by
        rw [expect, require_eq, if_neg hcloses]
        trivial
      exact Reply.Ends.bind hfail fun _ _ h => h.elim

/-- Such a list is passed over within another group. -/
theorem skips_angleList (hp : p.Skips array) :
    (listIf (accept .lt) (commaList .gt p)).Skips fun found => found.any array := by
  intro setting s
  refine (ends_angleList hp).imp (fun elems after h => ?_) fun _ _ => trivial
  obtain ⟨-, rfl, rfl⟩ | ⟨opening, closing, inner, hopening, hclosing, hrest, h⟩ := h
  · exact Passes.refl after.rest
  · rw [hrest]
    exact h.group hopening hclosing

theorem skips_listIf (hannounced : announced.Skips plain) {p : Parser (List α)}
    (hp : p.Skips fun found => found.any array) :
    (listIf announced p).Skips fun found => found.any array := by
  intro setting s
  refine (Passes.refl s.rest).step hannounced fun found s h => ?_
  split
  · exact (hp setting s).imp (fun a after hread => h.trans hread) fun _ _ => trivial
  · exact h.value rfl

theorem skips_optional (hannounced : announced.Skips plain) (hp : p.Skips array) :
    (optional announced p).Skips fun found => found.any array := by
  intro setting s
  refine (Passes.refl s.rest).step hannounced fun found s h => ?_
  split
  · exact h.bind hp fun a s h => h.value rfl
  · exact h.value rfl

/-! ## Types -/

/-- Readings of types that the look passes over, unless an array stands in them. -/
abbrev SkipsTypes (g : Rules) : Prop := g.type.Skips TypeExpr.hasArray

theorem skips_typeArgs (hg : SkipsTypes g) : (typeArgs g).Skips haveArray := by
  have h := skips_angleList hg
  rwa [← funext haveArray_eq] at h

theorem skips_bound (hg : SkipsTypes g) : (bound g).Skips Bound.hasArray := by
  intro setting s
  rw [bound, start_bind]
  refine (Passes.refl s.rest).step skips_path fun path s h => ?_
  exact h.bind (skips_typeArgs hg) fun args s h => h.part fun _ => rfl

theorem skips_bounds (hg : SkipsTypes g) : (bounds g).Skips boundsHaveArray := by
  intro setting s
  refine (Passes.refl s.rest).bind (skips_bound hg) fun first s h => ?_
  have hturn : (boundTurn g).Skips fun r => r.2.any Bound.hasArray := by
    intro setting s
    refine (Passes.refl s.rest).step (skips_accept rfl) fun found s h => ?_
    split
    · exact h.bind (skips_bound hg) fun next s h => h.value (by simp)
    · exact h
  refine h.bind (skips_collect hturn) fun more s h => h.value ?_
  rw [boundsHaveArray, boundsHaveArray_eq, Bool.false_or]

theorem skips_typeParam (hg : SkipsTypes g) : (typeParam g).Skips TypeParam.hasArray := by
  intro setting s
  rw [typeParam, start_bind]
  refine (Passes.refl s.rest).step skips_name fun name s h => ?_
  have hbounds : (boundsAfterColon g).Skips fun bounds => bounds.any Bound.hasArray := by
    have h := skips_bounds hg
    rw [funext boundsHaveArray_eq] at h
    exact skips_listIf (skips_accept rfl) h
  exact h.bind hbounds fun bounds s h => h.part fun _ => rfl

theorem skips_parenType (hg : SkipsTypes g) {start : Nat} (hs : s.kind = .symbol .leftParen) :
    (parenType g start setting s).Passed s.rest TypeExpr.hasArray := by
  have h := (Passes.refl s.rest).advance (by rw [hs]; rfl)
  rw [parenType, advance_bind]
  refine h.step (skips_accept rfl) fun empty t h => ?_
  split
  · exact h.node fun _ _ => rfl
  · refine h.bind hg fun first t h => h.step (skips_accept rfl) fun several t h => ?_
    split
    · refine h.bind (skips_commaList rfl hg) fun more t h => h.node fun _ _ => ?_
      rw [TypeExpr.hasArray, TypeKind.hasArray, haveArray, haveArray_eq, Bool.false_or]
    · exact h.step (skips_expect rfl) fun _ t h => h.value rfl

theorem skips_integer : integer.Skips plain := by
  refine skips_valueOf _ fun kind a h => ?_
  cases kind with
  | int _ => rfl
  | _ => cases h

/-- The length of an array: here the look gives up. -/
theorem skips_length : (optional (accept .semicolon) integer).Skips Option.isSome := by
  intro setting s
  show ((acceptIf _ >>= _ : Parser (Option UInt64)) setting s).Passed s.rest _
  by_cases hlength : s.kind.isSymbol .semicolon = true
  case neg =>
    have hnone : acceptIf (·.isSymbol .semicolon) setting s = .ok false s := by
      rw [acceptIf_eq, if_neg hlength]
    rw [bind_ok hnone]
    exact Passes.refl s.rest
  case pos =>
    have hsome : acceptIf (·.isSymbol .semicolon) setting s = .ok true s.advance := by
      rw [acceptIf_eq, if_pos hlength]
    obtain ⟨lexeme, hkind, hrest⟩ := rest_eq_of_kind (TokenKind.eq_of_isSymbol hlength)
    have h : Passes true s.rest s.advance.rest := by
      rw [hrest]
      exact .semicolon hkind
    rw [bind_ok hsome]
    exact h.step skips_integer fun length t h => h.value rfl

theorem skips_bracketType (hg : SkipsTypes g) (hs : s.kind = .symbol .leftBracket) :
    (bracketType g setting s).Passed s.rest TypeKind.hasArray := by
  have h := (Passes.refl s.rest).advance (by rw [hs]; rfl)
  rw [bracketType, advance_bind]
  refine h.bind hg fun elem t h => ?_
  refine h.bind skips_length fun length t h => ?_
  refine h.step (skips_expect rfl) fun _ t h => ?_
  cases length with
  | some length => exact h.value (by simp [TypeKind.hasArray])
  | none => exact h.value (by simp [TypeKind.hasArray])

theorem skips_functionType (hg : SkipsTypes g) (hs : s.kind = .keyword .fnKw) :
    (functionType g setting s).Passed s.rest TypeKind.hasArray := by
  have h := (Passes.refl s.rest).advance (by rw [hs]; rfl)
  rw [functionType, advance_bind]
  refine h.step (skips_expect rfl) fun _ t h => ?_
  refine h.bind (skips_commaList rfl hg) fun params t h => ?_
  refine h.bind (skips_optional (skips_accept rfl) hg) fun ret t h => h.value ?_
  cases ret with
  | none => simp [TypeKind.hasArray, haveArray_eq]
  | some ret => simp [TypeKind.hasArray, haveArray_eq]

theorem skips_pointerType (hg : SkipsTypes g) (hs : s.kind = .symbol .star) :
    (pointerType g setting s).Passed s.rest TypeKind.hasArray := by
  have h := (Passes.refl s.rest).advance (by rw [hs]; rfl)
  rw [pointerType, advance_bind]
  have hconst : (acceptKeyword .constKw).Skips plain := by
    refine skips_acceptIf fun kind h => ?_
    cases kind with
    | keyword _ => rfl
    | _ => cases h
  have hmut : (acceptWord "mut").Skips plain := by
    refine skips_acceptIf fun kind h => ?_
    cases kind with
    | ident _ => rfl
    | _ => cases h
  refine h.step hconst fun isConst t h => ?_
  split
  · exact h.bind hg fun pointee t h => h.value rfl
  · refine h.step hmut fun isMut t h => ?_
    split
    · exact h.bind hg fun pointee t h => h.value rfl
    · exact h.bind hg fun pointee t h => h.value rfl

theorem skips_traitObjectType (hg : SkipsTypes g) (hs : s.kind = .keyword .dynKw) :
    (traitObjectType g setting s).Passed s.rest TypeKind.hasArray := by
  have h := (Passes.refl s.rest).advance (by rw [hs]; rfl)
  rw [traitObjectType, advance_bind]
  refine h.step (skips_accept rfl) fun several t h => ?_
  split
  · refine h.bind (skips_bounds hg) fun bounds t h => ?_
    exact h.step (skips_expect rfl) fun _ t h => h.value rfl
  · refine h.bind (skips_bound hg) fun only t h => h.value ?_
    simp [TypeKind.hasArray, boundsHaveArray]

theorem skips_namedType (hg : SkipsTypes g) : (namedType g).Skips TypeKind.hasArray := by
  intro setting s
  refine (Passes.refl s.rest).step skips_path fun path s h => ?_
  exact h.bind (skips_typeArgs hg) fun args s h => h.value rfl

theorem skips_typeRule (hg : SkipsTypes g) : (typeRule g).Skips TypeExpr.hasArray := by
  intro setting s
  have hfinish {kind : Parser TypeKind} (h : (kind setting s).Passed s.rest TypeKind.hasArray) :
      ((kind >>= fun kind => node (s.span setting).start fun id span => (⟨id, span, kind⟩ : TypeExpr))
        setting s).Passed s.rest TypeExpr.hasArray :=
    Reply.Ends.bind h fun kind t h => Passes.node h fun _ _ => rfl
  rw [typeRule, start_bind]
  refine Passes.kind fun kind hkind => ?_
  split
  case h_1 => exact hfinish (skips_namedType hg setting s)
  case h_2 => exact skips_parenType hg hkind
  case h_3 => exact hfinish (skips_bracketType hg hkind)
  case h_4 => exact hfinish (skips_functionType hg hkind)
  case h_5 => exact hfinish (skips_pointerType hg hkind)
  case h_6 => exact hfinish (skips_traitObjectType hg hkind)
  case h_7 => trivial

theorem skips_within (levels : Nat) : SkipsTypes (.within levels) := by
  induction levels with
  | zero => exact fun _ _ => trivial
  | succ levels ih =>
    intro setting s
    show (nested (typeRule (.within levels)) setting s).Passed s.rest _
    unfold nested
    split
    · trivial
    · have hinner := skips_typeRule ih setting { s with depth := s.depth + 1 }
      cases hreply : typeRule (.within levels) setting { s with depth := s.depth + 1 } with
      | ok t after =>
        rw [hreply] at hinner
        exact hinner
      | fail e after => trivial

/-! ## Type parameters -/

/-- Behind its name, the type parameters of a declaration are passed over exactly, unless an array
stands in one of their bounds. -/
theorem ends_typeParams (hg : SkipsTypes g) :
    (typeParams g setting s).Ends
      (fun params after =>
        let behind := if s.kind.isSymbol .lt then afterAngles 0 s.rest else s.rest
        if params.any TypeParam.hasArray = true then
          ∃ lexeme rest, behind = lexeme :: rest ∧ lexeme.token.kind = .symbol .semicolon ∧
            after.rest <:+ rest
        else behind = after.rest) fun _ => True := by
  refine (ends_angleList (skips_typeParam hg)).imp (fun params after h => ?_) fun _ _ => trivial
  intro behind
  obtain ⟨hopens, rfl, rfl⟩ | ⟨opening, closing, inner, hopening, hclosing, hrest, h⟩ := h
  · have hbehind : behind = after.rest := if_neg (by simp [hopens])
    exact hbehind
  · have hopens : s.kind.isSymbol .lt = true := by
      unfold State.kind
      rw [hrest]
      show opening.token.kind.isSymbol .lt = true
      rw [hopening]
      rfl
    have hbehind : behind = afterAngles 0 (opening :: inner) := by
      rw [← hrest]
      exact if_pos hopens
    rw [hbehind]
    cases harray : params.any TypeParam.hasArray with
    | true =>
      rw [harray] at h
      rw [if_pos rfl, Passes.afterAngles_opening hopening]
      obtain ⟨lexeme, rest, heq, hkind, hsuffix⟩ := h.givesUp 0
      exact ⟨lexeme, rest, heq, hkind, (List.suffix_cons _ _).trans hsuffix⟩
    | false =>
      rw [harray] at h
      rw [if_neg Bool.false_ne_true]
      exact h.outermost hopening hclosing

end Parser

end ActorFrontend
