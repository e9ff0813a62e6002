import ActorFrontend.Proofs.Lexing.Semicolons
import ActorFrontend.Proofs.Mending.Strings
import ActorFrontend.Proofs.Motion.Basic

/-!
# The tokens of a source with a semicolon more

Where a significant token ends, a semicolon may be put into the source: the tokens before it stay where
they are, it is a token of its own, and those behind it move by one byte.  This holds in the splices of
interpolated strings as well.
-/

namespace ActorFrontend

variable {p n offset start stop start' stop' : Nat} {c : Char} {cs front back : List Char}
  {t t' : Token} {span : Span} {pieces : List Piece}

/-! ## Before and behind the place -/

/-- What stands between these offsets stays where it is, before `p`, or moves by a byte, behind it. -/
def Apart (p n start stop : Nat) : Prop := n = 0 ∧ stop < p ∨ n = 1 ∧ p ≤ start

namespace Apart

theorem mono (h : Apart p n start stop) (hstart : start ≤ start') (hstop : stop' ≤ stop) :
    Apart p n start' stop' :=
  h.imp (.imp_right fun hlt => Nat.lt_of_le_of_lt hstop hlt) (.imp_right fun hle => hle.trans hstart)

theorem insertAt (h : Apart p n span.start span.stop) (hle : span.start ≤ span.stop) :
    span.insertAt p = span.shift n := by
  unfold Span.insertAt Span.shift
  obtain ⟨rfl, hlt⟩ | ⟨rfl, hp⟩ := h
  · rw [if_neg (by omega), if_neg (by omega)]
    rfl
  · rw [if_pos hp]

theorem insertAt_empty (h : Apart p n start stop) (hle : start ≤ stop) :
    (Span.empty stop).insertAt p = (Span.empty stop).shift n :=
  (h.mono hle (Nat.le_refl stop) : Apart p n stop stop).insertAt (Nat.le_refl stop)

end Apart

namespace Token

/-- The token of a match is significant, unless it is white space or a comment. -/
theorem significant_cons (offset : Nat) (lineBreak : Bool) (m : Match) (behind : Lexed) :
    let first := ofMatch readAll offset m
    Lexeme.significant lineBreak (behind.cons first.1 first.2).tokens =
      if first.1.isTrivia then Lexeme.significant (lineBreak || first.1.hasLineBreak) behind.tokens
      else ⟨first.1, lineBreak⟩ :: Lexeme.significant false behind.tokens := by
  intro first
  have hend : first.1.kind.isEndOfFile = false := isEndOfFile_interpret ..
  rw [Lexed.cons, Lexeme.significant, hend, if_neg Bool.false_ne_true]

theorem byteLength_splice (chars : List Char) (closed : Bool) :
    Source.byteLength (Piece.splice chars closed).source = 1 + Source.byteLength chars + closed.toNat := by
  have hopen : Char.utf8Size '{' = 1 := rfl
  have hclose : Char.utf8Size '}' = 1 := rfl
  cases closed <;> simp [Piece.source, closing, hopen, hclose, Nat.add_assoc]

/-- A splice is read behind its brace, and what follows is read behind the splice. -/
theorem fragments_splice (offset : Nat) (chars : List Char) (closed : Bool) (pieces : List Piece) :
    let behind := offset + Source.byteLength (Piece.splice chars closed).source
    (fragments readAll offset (.splice chars closed :: pieces)).1 =
        .splice (readAll (offset + 1) chars).tokens
          ⟨offset + 1, offset + 1 + Source.byteLength chars⟩ :: (fragments readAll behind pieces).1 ∧
      (fragments readAll offset (.splice chars closed :: pieces)).2 =
        (if closed then []
          else [⟨.unterminatedInterpolation, offset, offset + 1 + Source.byteLength chars⟩]) ++
          (readAll (offset + 1) chars).errors ++ (fragments readAll behind pieces).2 := by
  have hbehind : (if closed = true then offset + 1 + Source.byteLength chars + 1
      else offset + 1 + Source.byteLength chars) =
        offset + Source.byteLength (Piece.splice chars closed).source := by
    rw [byteLength_splice]
    cases closed <;> simp <;> omega
  simp only [fragments, hbehind, and_self]

/-- The pieces of a string apart from the place, if the texts of its splices are read in this way. -/
theorem mendedAll_fragments
    (h : Apart p n offset (offset + Source.byteLength (pieces.flatMap Piece.source)))
    (hread : ∀ chars closed, .splice chars closed ∈ pieces → ∀ offset,
      Apart p n offset (offset + Source.byteLength chars) →
        Lexeme.Mended p .nowhere (Lexeme.significant false (readAll offset chars).tokens)
          (Lexeme.significant false (readAll (offset + n) chars).tokens)) :
    Fragment.MendedAll p false (fragments readAll offset pieces).1
      (fragments readAll (offset + n) pieces).1 := by
  induction pieces generalizing offset with
  | nil => exact .nil
  | cons piece pieces ih =>
    rw [List.flatMap_cons, Source.byteLength_append] at h
    have hmore := @ih (offset + Source.byteLength piece.source)
      (h.mono (Nat.le_add_right _ _) (by omega))
      fun chars closed hmem => hread chars closed (List.mem_cons_of_mem _ hmem)
    rw [Nat.add_right_comm] at hmore
    cases piece with
    | text chars =>
      simp only [fragments, Escape.decode_add]
      exact .text _ _ _ hmore
    | splice chars closed =>
      rw [byteLength_splice] at h
      rw [(fragments_splice _ _ _ _).1, (fragments_splice _ _ _ _).1]
      have hinner : Apart p n (offset + 1) (offset + 1 + Source.byteLength chars) :=
        h.mono (by omega) (by omega)
      refine .splice ?_ ?_ hmore
      · rw [hinner.insertAt_empty (Nat.le_add_right _ _)]
        simp only [Span.empty, Span.shift, Nat.add_right_comm _ n]
      · rw [Nat.add_right_comm offset n]
        exact hread chars closed List.mem_cons_self (offset + 1) hinner

theorem ofMatch_add_fst (offset n : Nat) (m : Match) :
    (ofMatch readAll (offset + n) m).1 = (ofMatch readAll offset m).1.shift n :=
  congrArg Prod.fst (ofMatch_add (fun _ _ _ _ _ _ offset => readAll_add offset n _) offset)

/-- An opening, the pieces, and a quote if the string is closed. -/
theorem byteLength_interpolated {closed : Bool}
    (h : (Match.longest c cs).shape = .interpolated pieces closed) :
    Source.byteLength (Match.longest c cs).text =
      2 + Source.byteLength (pieces.flatMap Piece.source) + closed.toNat := by
  obtain ⟨body, -, hlongest⟩ := Match.longest_eq_interpolated h
  rw [hlongest] at h ⊢
  obtain ⟨rfl, rfl⟩ := Shape.interpolated.inj h
  have hf : Char.utf8Size 'f' = 1 := rfl
  have hquote : Char.utf8Size '"' = 1 := rfl
  simp only [Match.interpolated, Body.source, List.cons_append, Source.byteLength_cons,
    Source.byteLength_append, hf, hquote, ← Nat.add_assoc]
  cases (interpolatedBody .text body).closed <;> simp [closing, hquote]

theorem kind_ofMatch_interpolated {m : Match} {closed : Bool}
    (h : m.shape = .interpolated pieces closed) (offset : Nat) :
    (ofMatch readAll offset m).1.kind = .interpolated (fragments readAll (offset + 2) pieces).1 := by
  simp only [ofMatch, interpret, h]

/-- A token apart from the place, if the texts of its splices are read in this way. -/
theorem mended_ofMatch (hspan : (ofMatch readAll offset (Match.longest c cs)).1.span.insertAt p =
      (ofMatch readAll offset (Match.longest c cs)).1.span.shift n)
    (hinner : ∀ pieces closed, (Match.longest c cs).shape = .interpolated pieces closed →
      Apart p n (offset + 2) (offset + 2 + Source.byteLength (pieces.flatMap Piece.source)))
    (hread : ∀ pieces closed, (Match.longest c cs).shape = .interpolated pieces closed →
      ∀ chars ended, .splice chars ended ∈ pieces → ∀ offset,
        Apart p n offset (offset + Source.byteLength chars) →
          Lexeme.Mended p .nowhere (Lexeme.significant false (readAll offset chars).tokens)
            (Lexeme.significant false (readAll (offset + n) chars).tokens)) :
    Token.Mended p false (ofMatch readAll offset (Match.longest c cs)).1
      (ofMatch readAll (offset + n) (Match.longest c cs)).1 := by
  by_cases hshape : ∃ pieces closed, (Match.longest c cs).shape = .interpolated pieces closed
  · obtain ⟨pieces, closed, hshape⟩ := hshape
    have hkind := kind_ofMatch_interpolated hshape
    refine .interpolated (hkind offset) (hkind (offset + n)) (by rw [ofMatch_add_fst, hspan]; rfl) ?_
    rw [Nat.add_right_comm]
    exact mendedAll_fragments (hinner pieces closed hshape) (hread pieces closed hshape)
  · have hstring : ∀ fragments, (ofMatch readAll offset (Match.longest c cs)).1.kind ≠
        .interpolated fragments :=
      kind_interpret_ne fun pieces closed h => hshape ⟨pieces, closed, h⟩
    rw [ofMatch_add_fst]
    exact .plain hstring (TokenKind.shift_of_ne hstring) rfl (by rw [hspan]; rfl)

/-- A token that does not end at the place, and is read in this way, avoids it. -/
theorem Mended.avoids (h : Token.Mended p false t t') (hstop : t.span.stop ≠ p) : t.Avoids p := by
  refine .mk hstop fun fragments tokens span hkind hmem => ?_
  cases h with
  | plain hstring => exact absurd hkind (hstring _)
  | interpolated hkind' _ _ h =>
    obtain rfl := TokenKind.interpolated.inj (hkind'.symm.trans hkind)
    exact h.avoiding hmem

theorem start_lt_stop (offset : Nat) (c : Char) (cs : List Char) :
    offset < (ofMatch readAll offset (Match.longest c cs)).1.span.stop :=
  Nat.lt_add_of_pos_right (Source.byteLength_pos (Match.splits_longest c cs).2)

/-- The tokens of a text apart from the place. -/
theorem mended_readAll (h : Apart p n offset (offset + Source.byteLength cs)) (lineBreak : Bool) :
    Lexeme.Mended p .nowhere (Lexeme.significant lineBreak (readAll offset cs).tokens)
      (Lexeme.significant lineBreak (readAll (offset + n) cs).tokens) := by
  induction hlength : cs.length using Nat.strongRecOn generalizing cs offset lineBreak with
  | ind length ih =>
    cases cs with
    | nil => exact .nil
    | cons c cs =>
      have hrest := Match.length_rest_longest c cs
      rw [List.length_cons] at hlength
      have hlt := start_lt_stop offset c cs
      have hstop := stop_ofMatch offset c cs
      have hbehind (lineBreak : Bool) := ih (Match.longest c cs).rest.length (by omega)
        (h.mono (Nat.le_of_lt hlt) (Nat.le_of_eq hstop)) lineBreak rfl
      have htoken : Token.Mended p false (ofMatch readAll offset (Match.longest c cs)).1
          (ofMatch readAll (offset + n) (Match.longest c cs)).1 := by
        refine mended_ofMatch (Apart.insertAt (h.mono (Nat.le_refl _) (by omega)) (Nat.le_of_lt hlt)) ?_ ?_
        · intro pieces closed hshape
          have htext := byteLength_interpolated hshape
          have hspan : (ofMatch readAll offset (Match.longest c cs)).1.span.stop =
            offset + Source.byteLength (Match.longest c cs).text := rfl
          exact h.mono (by omega) (by omega)
        · intro pieces closed hshape chars ended hmem offset hchars
          have hshort := Match.length_lt_of_splice hshape hmem
          rw [List.length_cons] at hshort
          exact ih _ (by omega) hchars false rfl
      have hne : (ofMatch readAll offset (Match.longest c cs)).1.span.stop ≠ p := by
        obtain ⟨-, hp⟩ | ⟨-, hp⟩ := h <;> omega
      rw [ofMatch_add_fst] at htoken
      rw [readAll_cons, readAll_cons, significant_cons, significant_cons, ofMatch_add_fst, isTrivia_shift,
        hasLineBreak_shift, span_shift]
      split
      case isTrue => exact hbehind _
      case isFalse =>
        exact .cons rfl htoken (htoken.avoids hne) (fun h => absurd rfl h) (Nat.le_of_lt hlt)
          (hbehind false)

/-! ## At the place -/

/-- In the text a semicolon is put at `p`, which is behind `front`: the tokens are the same, with that
one more, and nothing is wrong with them. -/
structure Mending (p offset : Nat) (front back : List Char) : Prop where
  place : offset + Source.byteLength front = p
  nonempty : front ≠ []
  /-- Behind a backslash the semicolon might be hidden. -/
  last : front.getLast? ≠ some '\\'
  errors : (readAll offset (front ++ ';' :: back)).errors = []
  mended : ∃ spot, spot ≠ .nowhere ∧ ∀ lineBreak,
    Lexeme.Mended p spot (Lexeme.significant lineBreak (readAll offset (front ++ back)).tokens)
      (Lexeme.significant lineBreak (readAll offset (front ++ ';' :: back)).tokens)

/-- A token before the place stays where it is. -/
theorem mended_self (hstop : (ofMatch readAll offset (Match.longest c cs)).1.span.stop ≤ p)
    (hinner : ∀ pieces closed, (Match.longest c cs).shape = .interpolated pieces closed →
      (ofMatch readAll offset (Match.longest c cs)).1.span.stop < p ∨ closed = true) :
    Token.Mended p false (ofMatch readAll offset (Match.longest c cs)).1
      (ofMatch readAll offset (Match.longest c cs)).1 := by
  have hlt := start_lt_stop offset c cs
  refine mended_ofMatch (n := 0) ?_ ?_ fun _ _ _ _ _ _ _ hchars => mended_readAll hchars false
  · unfold Span.insertAt Span.shift
    have hstart : (ofMatch readAll offset (Match.longest c cs)).1.span.start = offset := rfl
    rw [if_neg (by omega), if_neg (by omega)]
    rfl
  · intro pieces closed hshape
    have htext := byteLength_interpolated hshape
    have hspan : (ofMatch readAll offset (Match.longest c cs)).1.span.stop =
      offset + Source.byteLength (Match.longest c cs).text := rfl
    refine .inl ⟨rfl, ?_⟩
    obtain hbefore | rfl := hinner pieces closed hshape
    · omega
    · have hclosed : true.toNat = 1 := rfl
      omega

/-- The first token stays as it is where a semicolon is put somewhere behind it. -/
theorem readAll_append_semicolon {more : List Char} (hrest : (Match.longest c cs).rest = more ++ back)
    (h : more ≠ [] ∨ (Match.longest c cs).shape.endsBefore ';' = true) :
    ∃ front, cs = front ++ back ∧ c :: front = (Match.longest c cs).text ++ more ∧
      readAll offset (c :: front ++ ';' :: back) =
        (readAll (ofMatch readAll offset (Match.longest c cs)).1.span.stop (more ++ ';' :: back)).cons
          (ofMatch readAll offset (Match.longest c cs)).1
          (ofMatch readAll offset (Match.longest c cs)).2 := by
  obtain ⟨front, hcs, htext, hmatch⟩ := Match.longest_semicolon hrest h
  refine ⟨front, hcs, htext, ?_⟩
  rw [List.cons_append, readAll_cons, hmatch]
  rfl

/-- The semicolon stands somewhere behind the first token. -/
theorem Mending.cons (herrors : (ofMatch readAll offset (Match.longest c cs)).2 = [])
    (hrest : (Match.longest c cs).rest = front ++ back)
    (h : Mending p (ofMatch readAll offset (Match.longest c cs)).1.span.stop front back) :
    ∃ front, c :: cs = front ++ back ∧ Mending p offset front back := by
  obtain ⟨more, hcs, htext, hread⟩ := readAll_append_semicolon hrest (.inl h.nonempty)
  have hplace := h.place
  have hpos := Source.byteLength_pos h.nonempty
  have hlt := start_lt_stop offset c cs
  have hspan : (ofMatch readAll offset (Match.longest c cs)).1.span.stop =
    offset + Source.byteLength (Match.longest c cs).text := rfl
  have hself : Token.Mended p false (ofMatch readAll offset (Match.longest c cs)).1
      (ofMatch readAll offset (Match.longest c cs)).1 :=
    mended_self (by omega) fun _ _ _ => .inl (by omega)
  have hfirst := readAll_cons offset c cs
  simp only [hrest] at hfirst
  refine ⟨c :: more, by rw [hcs]; rfl, ?_, List.cons_ne_nil _ _, ?_, ?_, ?_⟩
  · rw [htext, Source.byteLength_append]
    omega
  · rw [htext, List.getLast?_append_of_ne_nil _ h.nonempty]
    exact h.last
  · rw [hread]
    exact List.append_eq_nil_iff.2 ⟨herrors, h.errors⟩
  · obtain ⟨spot, hspot, hmended⟩ := h.mended
    refine ⟨spot, hspot, fun lineBreak => ?_⟩
    rw [hread, List.cons_append, ← hcs, hfirst, significant_cons, significant_cons]
    split
    case isTrue => exact hmended _
    case isFalse =>
      exact .cons rfl hself (hself.avoids (by omega)) (fun _ => Nat.lt_trans hlt (by omega))
        (Nat.le_of_lt hlt) (hmended false)

/-- The semicolon stands right behind the first token. -/
theorem mending_behind (herrors : (ofMatch readAll offset (Match.longest c cs)).2 = [])
    (hbehind : (readAll (ofMatch readAll offset (Match.longest c cs)).1.span.stop
      (Match.longest c cs).rest).errors = [])
    (htrivia : (ofMatch readAll offset (Match.longest c cs)).1.isTrivia = false)
    (hstop : (ofMatch readAll offset (Match.longest c cs)).1.span.stop = p) :
    ∃ front back, c :: cs = front ++ back ∧ Mending p offset front back := by
  have hends := endsBefore_of_errors herrors htrivia
  obtain ⟨more, hcs, htext, hread⟩ :=
    readAll_append_semicolon (List.nil_append (Match.longest c cs).rest).symm (.inr hends)
  rw [List.append_nil] at htext
  rw [List.nil_append, hstop, readAll_semicolon] at hread
  have hlt : offset < p := hstop ▸ start_lt_stop offset c cs
  have hself : Token.Mended p false (ofMatch readAll offset (Match.longest c cs)).1
      (ofMatch readAll offset (Match.longest c cs)).1 := by
    refine mended_self (Nat.le_of_eq hstop) fun pieces closed hshape => .inr ?_
    simpa [hshape, Shape.endsBefore] using hends
  have hfirst := readAll_cons offset c cs
  simp only [hstop] at hfirst
  refine ⟨c :: more, (Match.longest c cs).rest, congrArg _ hcs, ?_, List.cons_ne_nil _ _, ?_, ?_,
    .before (Lexeme.significant false (readAll p (Match.longest c cs).rest).tokens), nofun,
    fun lineBreak => ?_⟩
  · rw [htext, ← hstop]
    rfl
  · rw [htext]
    exact Match.getLast?_longest hends
  · rw [hread, Lexed.cons, herrors, Lexed.cons, readAll_add, Lexed.shift, ← hstop, hbehind]
    rfl
  · rw [hread, List.cons_append, ← hcs, hfirst, significant_cons, significant_cons, htrivia,
      if_neg Bool.false_ne_true, if_neg Bool.false_ne_true]
    exact .last rfl hself hlt hstop rfl rfl
      (mended_readAll (.inr ⟨rfl, Nat.le_refl p⟩) false)

/-! ## In a string -/

/-- The pieces of a string gain a semicolon at `p`, which is behind `front`: the fragments are the same,
with that token more in one of them, and nothing is wrong with them. -/
structure GainsAt (p offset : Nat) (pieces pieces' : List Piece) (front back : List Char) : Prop where
  gains : Piece.Gains pieces pieces'
  source_eq : pieces.flatMap Piece.source = front ++ back
  source_eq' : pieces'.flatMap Piece.source = front ++ ';' :: back
  place : offset + Source.byteLength front = p
  nonempty : front ≠ []
  last : front.getLast? ≠ some '\\'
  errors : (fragments readAll offset pieces').2 = []
  mended : Fragment.MendedAll p true (fragments readAll offset pieces).1
    (fragments readAll offset pieces').1

namespace GainsAt

variable {pieces' : List Piece} {chars : List Char}

/-- The semicolon stands behind literal text. -/
theorem text (h : GainsAt p (offset + Source.byteLength chars) pieces pieces' front back)
    (herrors : (Escape.decode true offset chars).2 = []) :
    GainsAt p offset (.text chars :: pieces) (.text chars :: pieces') (chars ++ front) back where
  gains := .there _ h.gains
  source_eq := by rw [List.flatMap_cons, h.source_eq, List.append_assoc]; rfl
  source_eq' := by rw [List.flatMap_cons, h.source_eq', List.append_assoc]; rfl
  place := by rw [Source.byteLength_append, ← Nat.add_assoc, h.place]
  nonempty := List.append_ne_nil_of_right_ne_nil _ h.nonempty
  last := by rw [List.getLast?_append_of_ne_nil _ h.nonempty]; exact h.last
  errors := List.append_eq_nil_iff.2 ⟨herrors, h.errors⟩
  mended := .text _ _ _ h.mended

/-- The semicolon stands behind a closed splice. -/
theorem splice
    (h : GainsAt p (offset + Source.byteLength (Piece.splice chars true).source) pieces pieces' front back)
    (herrors : (readAll (offset + 1) chars).errors = []) :
    GainsAt p offset (.splice chars true :: pieces) (.splice chars true :: pieces')
      ((Piece.splice chars true).source ++ front) back where
  gains := .there _ h.gains
  source_eq := by rw [List.flatMap_cons, h.source_eq, List.append_assoc]
  source_eq' := by rw [List.flatMap_cons, h.source_eq', List.append_assoc]
  place := by rw [Source.byteLength_append, ← Nat.add_assoc, h.place]
  nonempty := List.append_ne_nil_of_right_ne_nil _ h.nonempty
  last := by rw [List.getLast?_append_of_ne_nil _ h.nonempty]; exact h.last
  errors := by rw [(fragments_splice _ _ _ _).2, herrors, h.errors]; rfl
  mended := by
    have hplace := h.place
    have hpos := Source.byteLength_pos h.nonempty
    rw [byteLength_splice, Bool.toNat_true] at hplace
    have hbefore : Apart p 0 (offset + 1) (offset + 1 + Source.byteLength chars) := .inl ⟨rfl, by omega⟩
    rw [(fragments_splice _ _ _ _).1, (fragments_splice _ _ _ _).1]
    exact .splice (hbefore.insertAt_empty (Nat.le_add_right _ _)).symm (mended_readAll hbefore false)
      h.mended

/-- The semicolon stands in a closed splice. -/
theorem inside (h : Mending p (offset + 1) front back)
    (herrors : (fragments readAll (offset + Source.byteLength (Piece.splice (front ++ back) true).source)
      pieces).2 = []) :
    GainsAt p offset (.splice (front ++ back) true :: pieces) (.splice (front ++ ';' :: back) true :: pieces)
      ('{' :: front) (back ++ '}' :: pieces.flatMap Piece.source) := by
  have hplace := h.place
  have hsemicolon : Char.utf8Size ';' = 1 := rfl
  have hlength : Source.byteLength (front ++ ';' :: back) = Source.byteLength (front ++ back) + 1 := by
    simp only [Source.byteLength_append, Source.byteLength_cons, hsemicolon]
    omega
  have hbehind : offset + Source.byteLength (Piece.splice (front ++ ';' :: back) true).source =
      offset + Source.byteLength (Piece.splice (front ++ back) true).source + 1 := by
    simp only [byteLength_splice, hlength]
    omega
  have hle : p ≤ offset + 1 + Source.byteLength (front ++ back) := by
    rw [Source.byteLength_append]
    omega
  obtain ⟨spot, hspot, hmended⟩ := h.mended
  refine ⟨.here h.last, by simp [Piece.source, closing], by simp [Piece.source, closing], ?_,
    List.cons_ne_nil _ _, ?_, ?_, ?_⟩
  · have hbrace : Char.utf8Size '{' = 1 := rfl
    rw [Source.byteLength_cons, hbrace]
    omega
  · rw [List.getLast?_cons_of_ne_nil h.nonempty]
    exact h.last
  · have hmoved := fragments_add (n := 1)
      (fun _ _ (_ : Piece.splice _ _ ∈ pieces) offset => readAll_add offset 1 _)
      (offset + Source.byteLength (Piece.splice (front ++ back) true).source)
    rw [(fragments_splice _ _ _ _).2, h.errors, hbehind, hmoved, herrors]
    rfl
  · rw [(fragments_splice _ _ _ _).1, (fragments_splice _ _ _ _).1, hbehind, hlength]
    refine .gap ?_ hspot (hmended false) (mendedAll_fragments (.inr ⟨rfl, ?_⟩)
      fun _ _ _ _ hchars => mended_readAll hchars false)
    · rw [Apart.insertAt_empty (.inr ⟨rfl, Nat.le_refl p⟩ : Apart p 1 p _) hle]
      rfl
    · rw [byteLength_splice]
      omega

end GainsAt

/-- Where a significant token in a splice of the string ends, a semicolon may be put in, if that is so
for the texts of the splices. -/
theorem exists_gainsAt (herrors : (fragments readAll offset pieces).2 = [])
    (hread : ∀ chars closed, .splice chars closed ∈ pieces → ∀ offset,
      (readAll offset chars).errors = [] →
      ¬ Avoiding p (Lexeme.significant false (readAll offset chars).tokens) →
        ∃ front back, chars = front ++ back ∧ Mending p offset front back)
    {tokens : List Token} (hmem : .splice tokens span ∈ (fragments readAll offset pieces).1)
    (hp : ¬ Avoiding p (Lexeme.significant false tokens)) :
    ∃ pieces' front back, GainsAt p offset pieces pieces' front back := by
  induction pieces generalizing offset with
  | nil => cases hmem
  | cons piece pieces ih =>
    have ih {offset : Nat} (herrors : (fragments readAll offset pieces).2 = []) :=
      @ih offset herrors fun chars closed hmem => hread chars closed (List.mem_cons_of_mem _ hmem)
    cases piece with
    | text chars =>
      obtain ⟨hdecoded, hmore⟩ := List.append_eq_nil_iff.1 herrors
      obtain ⟨pieces', front, back, h⟩ := ih hmore ((List.mem_cons.1 hmem).resolve_left nofun)
      exact ⟨_, _, _, h.text hdecoded⟩
    | splice chars closed =>
      rw [(fragments_splice _ _ _ _).2, List.append_eq_nil_iff, List.append_eq_nil_iff] at herrors
      rw [(fragments_splice _ _ _ _).1] at hmem
      obtain ⟨⟨hclosed, hinner⟩, hmore⟩ := herrors
      obtain rfl : closed = true := by
        cases closed with
        | true => rfl
        | false => cases hclosed
      by_cases havoid : Avoiding p (Lexeme.significant false (readAll (offset + 1) chars).tokens)
      · obtain hfirst | hmem := List.mem_cons.1 hmem
        · obtain ⟨rfl, -⟩ := Fragment.splice.inj hfirst
          exact absurd havoid hp
        · obtain ⟨pieces', front, back, h⟩ := ih hmore hmem
          exact ⟨_, _, _, h.splice hinner⟩
      · obtain ⟨front, back, rfl, h⟩ := hread chars true List.mem_cons_self (offset + 1) hinner havoid
        exact ⟨_, _, _, .inside h hmore⟩

/-- In a closed string nothing is wrong but what is wrong with its pieces. -/
theorem errors_ofMatch_interpolated {m : Match} (h : m.shape = .interpolated pieces true) (offset : Nat) :
    (ofMatch readAll offset m).2 = (fragments readAll (offset + 2) pieces).2 := by
  simp only [ofMatch, interpret, h, Bool.true_or, if_true]

/-- A string with a semicolon more in one of its splices. -/
theorem longest_of_gainsAt (hshape : (Match.longest c cs).shape = .interpolated pieces true)
    {pieces' : List Piece} (h : GainsAt p (offset + 2) pieces pieces' front back) :
    c :: cs = 'f' :: '"' :: front ++ (back ++ '"' :: (Match.longest c cs).rest) ∧
      ∃ text, Match.longest 'f' ('"' :: front ++ ';' :: (back ++ '"' :: (Match.longest c cs).rest)) =
        ⟨.interpolated pieces' true, text, (Match.longest c cs).rest⟩ := by
  obtain ⟨body, hbody, hlongest⟩ := Match.longest_eq_interpolated hshape
  rw [hlongest] at hshape
  obtain ⟨rfl, hclosed⟩ := Shape.interpolated.inj hshape
  have hrest : (Match.longest c cs).rest = (interpolatedBody .text body).rest := by rw [hlongest]; rfl
  rw [hrest]
  have hwhole : (interpolatedBody .text body).whole = body := accounts_interpolatedBody .text body
  have hlonger := interpolatedBody_of_gains h.gains
  have hwhole' : ((interpolatedBody .text body).recut pieces').whole =
      front ++ ';' :: (back ++ '"' :: (interpolatedBody .text body).rest) := by
    simp only [Body.whole, Body.source, Body.recut, h.source_eq', hclosed, closing, List.append_assoc,
      List.cons_append, List.nil_append]
  rw [hwhole'] at hlonger
  have hbodyEq : body = front ++ (back ++ '"' :: (interpolatedBody .text body).rest) := by
    refine hwhole.symm.trans ?_
    simp only [Body.whole, Body.source, h.source_eq, hclosed, closing, List.append_assoc,
      List.cons_append, List.nil_append]
  refine ⟨hbody.trans (congrArg (fun cs => 'f' :: '"' :: cs) hbodyEq),
    (Match.interpolated (front ++ ';' :: (back ++ '"' :: (interpolatedBody .text body).rest))).text, ?_⟩
  show Match.interpolated (front ++ ';' :: (back ++ '"' :: (interpolatedBody .text body).rest)) = _
  rw [Match.interpolated, hlonger]
  simp only [Body.recut, hclosed]

/-- The semicolon stands in a splice of the first token. -/
theorem mending_inside (hbehind : (readAll (ofMatch readAll offset (Match.longest c cs)).1.span.stop
      (Match.longest c cs).rest).errors = [])
    (hshape : (Match.longest c cs).shape = .interpolated pieces true)
    {pieces' : List Piece} (h : GainsAt p (offset + 2) pieces pieces' front back) :
    ∃ front back, c :: cs = front ++ back ∧ Mending p offset front back := by
  obtain ⟨htext, text, hlonger⟩ := longest_of_gainsAt hshape h
  have hread := readAll_cons offset c cs
  have hread' := readAll_cons offset 'f' ('"' :: front ++ ';' :: (back ++ '"' :: (Match.longest c cs).rest))
  have hlength := byteLength_interpolated hshape
  have hlength' := byteLength_interpolated (show (Match.longest 'f'
    ('"' :: front ++ ';' :: (back ++ '"' :: (Match.longest c cs).rest))).shape =
      .interpolated pieces' true by rw [hlonger])
  have hplace := h.place
  have hpos := Source.byteLength_pos h.nonempty
  have hsemicolon : Char.utf8Size ';' = 1 := rfl
  rw [h.source_eq, Source.byteLength_append, Bool.toNat_true] at hlength
  rw [h.source_eq', Source.byteLength_append, Source.byteLength_cons, hsemicolon, Bool.toNat_true]
    at hlength'
  rw [hlonger] at hread' hlength'
  simp only at hread hread' hlength'
  -- the string is longer by a byte, and so what follows is read a byte further on
  have hstop : (ofMatch readAll offset (Match.longest c cs)).1.span.stop =
    offset + Source.byteLength (Match.longest c cs).text := rfl
  have hstop' : (ofMatch readAll offset
      ⟨.interpolated pieces' true, text, (Match.longest c cs).rest⟩).1.span.stop =
      (ofMatch readAll offset (Match.longest c cs)).1.span.stop + 1 := by
    show offset + Source.byteLength text = _
    omega
  rw [hstop'] at hread'
  refine ⟨'f' :: '"' :: front, back ++ '"' :: (Match.longest c cs).rest, htext, ?_, List.cons_ne_nil _ _, ?_,
    ?_, .within, nofun, fun lineBreak => ?_⟩
  · have hf : Char.utf8Size 'f' = 1 := rfl
    have hquote : Char.utf8Size '"' = 1 := rfl
    simp only [Source.byteLength_cons, hf, hquote]
    omega
  · rw [List.getLast?_cons_of_ne_nil (List.cons_ne_nil _ _), List.getLast?_cons_of_ne_nil h.nonempty]
    exact h.last
  · rw [List.cons_append, hread', Lexed.cons, errors_ofMatch_interpolated rfl, h.errors, readAll_add,
      Lexed.shift, hbehind]
    rfl
  · show Lexeme.Mended p .within
      (Lexeme.significant lineBreak
        (readAll offset ('f' :: '"' :: front ++ (back ++ '"' :: (Match.longest c cs).rest))).tokens)
      (Lexeme.significant lineBreak
        (readAll offset ('f' :: ('"' :: front ++ ';' :: (back ++ '"' :: (Match.longest c cs).rest)))).tokens)
    rw [hread', ← htext, hread, significant_cons, significant_cons]
    have hkind := kind_ofMatch_interpolated hshape offset
    have hkind' := kind_ofMatch_interpolated (m := ⟨.interpolated pieces' true, text,
      (Match.longest c cs).rest⟩) rfl offset
    have htrivia : (ofMatch readAll offset (Match.longest c cs)).1.isTrivia = false := by
      rw [isTrivia, hkind]
      rfl
    have htrivia' : (ofMatch readAll offset
        ⟨.interpolated pieces' true, text, (Match.longest c cs).rest⟩).1.isTrivia = false := rfl
    rw [htrivia, htrivia', if_neg Bool.false_ne_true, if_neg Bool.false_ne_true]
    refine .string rfl (.interpolated hkind hkind' ?_ h.mended) ?_ ?_
      (mended_readAll (.inr ⟨rfl, by omega⟩) false)
    · have hspan : (ofMatch readAll offset
          ⟨.interpolated pieces' true, text, (Match.longest c cs).rest⟩).1.span =
          ⟨offset, (ofMatch readAll offset (Match.longest c cs)).1.span.stop + 1⟩ := by
        rw [← hstop']
        rfl
      have hself : (ofMatch readAll offset (Match.longest c cs)).1.span =
        ⟨offset, (ofMatch readAll offset (Match.longest c cs)).1.span.stop⟩ := rfl
      rw [hspan, hself, Span.insertAt, if_neg (by simp only; omega), if_pos (by simp only; omega)]
    · show offset < p
      omega
    · show (ofMatch readAll offset (Match.longest c cs)).1.span.stop ≠ p
      omega

/-- Whether tokens avoid a place does not depend on the line breaks between them. -/
theorem avoiding_significant {ts : List Token} {lineBreak lineBreak' : Bool}
    (h : Avoiding p (Lexeme.significant lineBreak ts)) : Avoiding p (Lexeme.significant lineBreak' ts) := by
  induction ts generalizing lineBreak lineBreak' with
  | nil => exact h
  | cons t ts ih =>
    unfold Lexeme.significant at h ⊢
    split at h
    case isTrue htrivia =>
      rw [if_pos htrivia]
      exact ih h
    case isFalse htrivia =>
      rw [if_neg htrivia]
      split at h
      case isTrue hend =>
        rw [if_pos hend]
        exact h
      case isFalse hend =>
        rw [if_neg hend]
        obtain ⟨ht, hts⟩ := List.forall_mem_cons.1 h
        exact List.forall_mem_cons.2 ⟨ht, hts⟩

/-- Where a significant token of a text ends, at any depth, a semicolon may be put in. -/
theorem exists_mending (herrors : (readAll offset cs).errors = [])
    (hp : ¬ Avoiding p (Lexeme.significant false (readAll offset cs).tokens)) :
    ∃ front back, cs = front ++ back ∧ Mending p offset front back := by
  induction hlength : cs.length using Nat.strongRecOn generalizing cs offset with
  | ind length ih =>
    cases cs with
    | nil => exact absurd (fun _ hmem => absurd hmem List.not_mem_nil) hp
    | cons c cs =>
      have hrest := Match.length_rest_longest c cs
      rw [List.length_cons] at hlength
      have hread := readAll_cons offset c cs
      simp only at hread
      rw [hread] at herrors
      obtain ⟨hfirst, hbehind⟩ := List.append_eq_nil_iff.1 herrors
      by_cases havoid : Avoiding p (Lexeme.significant false
        (readAll (ofMatch readAll offset (Match.longest c cs)).1.span.stop (Match.longest c cs).rest).tokens)
      · -- it is the first token that ends there, or one in a splice of it
        rw [hread, significant_cons] at hp
        split at hp
        case isTrue => exact absurd (avoiding_significant havoid) hp
        case isFalse htrivia =>
        have htrivia := Bool.not_eq_true _ ▸ htrivia
        have hfirstAt : ¬ (ofMatch readAll offset (Match.longest c cs)).1.Avoids p :=
          fun h => hp (List.forall_mem_cons.2 ⟨h, havoid⟩)
        by_cases hstop : (ofMatch readAll offset (Match.longest c cs)).1.span.stop = p
        · exact mending_behind hfirst hbehind htrivia hstop
        by_cases hshape : ∃ pieces closed, (Match.longest c cs).shape = .interpolated pieces closed
        · obtain ⟨pieces, closed, hshape⟩ := hshape
          have hends := endsBefore_of_errors hfirst htrivia
          rw [hshape] at hends
          obtain rfl : closed = true := hends
          obtain ⟨tokens, span, hmem, hin⟩ : ∃ tokens span,
              .splice tokens span ∈ (fragments readAll (offset + 2) pieces).1 ∧
                ¬ Avoiding p (Lexeme.significant false tokens) := by
            by_contra hnone
            refine hfirstAt (.mk hstop fun fragments tokens span hkind hmem => ?_)
            rw [kind_ofMatch_interpolated hshape] at hkind
            obtain rfl := TokenKind.interpolated.inj hkind
            by_contra hin
            exact hnone ⟨tokens, span, hmem, hin⟩
          have hinner := errors_ofMatch_interpolated hshape offset
          obtain ⟨pieces', front, back, h⟩ := exists_gainsAt (hinner.symm.trans hfirst)
            (fun chars ended hchars offset herrors hp => ih _
              (by have := Match.length_lt_of_splice hshape hchars; rw [List.length_cons] at this; omega)
              herrors hp rfl) hmem hin
          exact mending_inside hbehind hshape h
        · exact absurd (.mk hstop fun fragments _ _ hkind _ => absurd hkind
            (kind_interpret_ne (fun pieces closed h => hshape ⟨pieces, closed, h⟩) fragments)) hfirstAt
      · obtain ⟨front, back, hfront, h⟩ := ih _ (by omega) hbehind havoid rfl
        obtain ⟨more, hmore, h⟩ := h.cons hfirst hfront
        exact ⟨more, back, hmore, h⟩

end Token

end ActorFrontend
