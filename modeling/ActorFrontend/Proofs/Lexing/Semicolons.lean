import ActorFrontend.Proofs.Lexing.Onward

/-!
# A semicolon between characters

A semicolon that is put behind a token is a token of its own and changes no other one.  In a splice of
an interpolated string it may stand anywhere but behind a backslash: there the scan for the end of the
splice would take it for a hidden character.
-/

namespace ActorFrontend

/-! ## Behind a token -/

namespace Match

variable {c : Char} {cs : List Char}

theorem notMem_run {shape : List Char → Shape} {lead : List Char} {p : Char → Bool} {x : Char}
    (hlead : x ∉ lead) (hp : p x = false) : x ∉ (run shape lead p cs).text := by
  intro hx
  obtain hx | hx := List.mem_append.1 hx
  · exact hlead hx
  · exact Bool.false_ne_true (hp.symm.trans (List.all_eq_true.1 List.all_takeWhile x hx))

/-- No token ends with a backslash. -/
theorem getLast?_longest (h : (longest c cs).shape.endsBefore ';' = true) :
    (longest c cs).text.getLast? ≠ some '\\' := by
  have hfree {text : List Char} (h : '\\' ∉ text) : text.getLast? ≠ some '\\' :=
    fun hlast => h (List.mem_of_getLast? hlast)
  have hquoted {text : List Char} {closed : Bool} (hclosed : closed = true) :
      (text ++ closing '"' closed).getLast? ≠ some '\\' := by
    rw [hclosed, closing, List.getLast?_concat]
    decide
  have hstart {d : Char} (hd : isWordStart d = true) : '\\' ≠ d := by
    rintro rfl
    exact absurd hd (by decide)
  have hsymbol {c : Char} {cs : List Char} (h : (symbolOrUnknown c cs).shape.endsBefore ';' = true) :
      '\\' ∉ (symbolOrUnknown c cs).text := by
    unfold symbolOrUnknown at h ⊢
    split at h
    case h_1 s hs => cases s <;> simp [Symbol.chars]
    case h_2 => cases h
  revert h
  unfold longest
  split
  case h_1 | h_2 =>
    intro h
    cases h
  case h_3 | h_4 => exact hquoted
  case h_5 | h_6 | h_7 | h_8 => exact fun _ => hfree (notMem_run (by decide) (by decide))
  case h_9 d cs =>
    split
    case isTrue hd => exact fun _ => hfree (notMem_run (by simpa using hstart hd) (by decide))
    case isFalse => exact fun h => hfree (hsymbol h)
  case h_10 =>
    split
    case isTrue =>
      intro h
      cases h
    case isFalse =>
      split
      case isTrue =>
        exact fun _ => hfree fun hx => Bool.false_ne_true (numeric_decimal _ hx)
      case isFalse =>
        split
        case isTrue hc => exact fun _ => hfree (notMem_run (by simpa using hstart hc) (by decide))
        case isFalse => exact fun h => hfree (hsymbol h)

/-- A token stays as it is where a semicolon is put somewhere behind it. -/
theorem longest_semicolon {more back : List Char} (hrest : (longest c cs).rest = more ++ back)
    (h : more ≠ [] ∨ (longest c cs).shape.endsBefore ';' = true) :
    ∃ front, cs = front ++ back ∧ c :: front = (longest c cs).text ++ more ∧
      longest c (front ++ ';' :: back) = (longest c cs).cutAt (more ++ ';' :: back) := by
  obtain ⟨front, rfl, hcut⟩ := longest_cut hrest
  refine ⟨front, rfl, ?_, ?_⟩
  · have hsplit := (splits_longest c (front ++ back)).1
    rw [hrest, ← List.append_assoc] at hsplit
    exact (List.append_cancel_right hsplit).symm
  · rw [longest_append_cons (.inr rfl) (by rw [hcut]; exact h), hcut]
    rfl

end Match

namespace Token

/-- A token in which nothing is wrong ends before a semicolon, unless it is white space or a comment. -/
theorem endsBefore_of_errors {read : Nat → List Char → Lexed} {m : Match} {span : Span}
    (herrors : (interpret read m span).2 = [])
    (htrivia : (interpret read m span).1.isTrivia = false) : m.shape.endsBefore ';' = true := by
  cases hshape : m.shape with
  | word | label | integer | float => rfl
  | symbol s => exact Bool.or_true _
  | whitespace | lineComment | blockComment => simp [interpret, hshape, TokenKind.isTrivia] at htrivia
  | unknown => simp [interpret, hshape] at herrors
  | string body closed =>
    cases closed with
    | true => rfl
    | false => simp [interpret, hshape] at herrors
  | interpolated pieces closed =>
    cases closed with
    | true => rfl
    | false =>
      -- an open string without an open splice is reported
      simp only [interpret, hshape] at herrors
      split at herrors
      case isTrue hopen => simp [herrors] at hopen
      case isFalse => exact absurd herrors (List.append_ne_nil_of_right_ne_nil _ (List.cons_ne_nil _ _))

/-- A semicolon is a token of its own. -/
theorem readAll_semicolon (offset : Nat) (cs : List Char) :
    readAll offset (';' :: cs) =
      (readAll (offset + 1) cs).cons ⟨.symbol .semicolon, ";", ⟨offset, offset + 1⟩⟩ [] := by
  have hlongest : Symbol.longest? (';' :: cs) = some .semicolon := by
    simp [Symbol.longest?, Symbol.all, Symbol.chars, List.isPrefixOf]
  have hmatch : Match.longest ';' cs = ⟨.symbol .semicolon, [';'], cs⟩ := by
    change Match.symbolOrUnknown ';' cs = _
    rw [Match.symbolOrUnknown, hlongest]
    rfl
  rw [readAll_cons, hmatch]
  rfl

end Token

/-! ## In a splice -/

/-- The same pieces, with a semicolon more in a closed splice, but not behind a backslash. -/
inductive Piece.Gains : List Piece → List Piece → Prop where
  | here {front back : List Char} {pieces : List Piece} (hlast : front.getLast? ≠ some '\\') :
      Gains (.splice (front ++ back) true :: pieces) (.splice (front ++ ';' :: back) true :: pieces)
  | there (piece : Piece) {pieces pieces' : List Piece} (h : Gains pieces pieces') :
      Gains (piece :: pieces) (piece :: pieces')

namespace Piece.Gains

variable {chars : List Char} {closed : Bool} {pieces pieces' : List Piece}

theorem not_nil : ¬ Gains [] pieces := nofun

/-- The splice at the head gains the semicolon, or one of the other pieces does. -/
theorem splice_cases (h : Gains (.splice chars closed :: pieces) pieces') :
    (∃ front back, chars = front ++ back ∧ front.getLast? ≠ some '\\' ∧ closed = true ∧
      pieces' = .splice (front ++ ';' :: back) true :: pieces) ∨
      ∃ more, Gains pieces more ∧ pieces' = .splice chars closed :: more := by
  cases h with
  | here hlast => exact .inl ⟨_, _, rfl, hlast, rfl, rfl⟩
  | there _ h => exact .inr ⟨_, h, rfl⟩

end Piece.Gains

/-- In a splice, and in a string inside one, a semicolon is a character like any other. -/
theorem interpolatedBody_semicolon {r : Region} (hr : r ≠ .text) (cs : List Char) :
    interpolatedBody r (';' :: cs) = (interpolatedBody r cs).consSplice ';' := by
  match r with
  | .text => exact absurd rfl hr
  | .splice 0 | .splice (_ + 1) => rfl
  | .quoted _ => rfl

namespace Body

/-- The body with other pieces. -/
def recut (b : Body) (pieces : List Piece) : Body := { b with pieces }

/-- What a step of the reading makes of a body gains a semicolon only in that body, or, in a splice,
before all that is read. -/
def GainsBy (r : Region) (f : Body → Body) (b : Body) : Prop :=
  ∀ pieces', Piece.Gains (f b).pieces pieces' →
    (r ≠ .text ∧ (f b).recut pieces' = (f b).consSplice ';') ∨
      ∃ pieces, Piece.Gains b.pieces pieces ∧ (f b).recut pieces' = f (b.recut pieces)

variable {r : Region} {b : Body} {cs : List Char}

theorem gainsBy_consText (c : Char) : GainsBy r (consText c) b := by
  obtain ⟨pieces, closed, rest⟩ := b
  intro pieces' h
  right
  match pieces with
  | [] =>
    obtain _ | ⟨_, h⟩ := h
    exact absurd h Piece.Gains.not_nil
  | .text chars :: pieces =>
    obtain _ | ⟨_, h⟩ := h
    exact ⟨_, .there _ h, rfl⟩
  | .splice chars ended :: pieces =>
    obtain _ | ⟨_, h⟩ := h
    refine ⟨_, h, ?_⟩
    cases h <;> rfl

/-- A backslash and the character that it hides. -/
theorem gainsBy_consEscape (c : Char) : GainsBy .text (fun b => (b.consText c).consText '\\') b := by
  intro pieces' h
  obtain ⟨hr, -⟩ | ⟨more, hmore, heq⟩ := gainsBy_consText (r := .text) '\\' pieces' h
  · exact absurd rfl hr
  obtain ⟨hr, -⟩ | ⟨pieces, hpieces, hinner⟩ := gainsBy_consText (r := .text) c more hmore
  · exact absurd rfl hr
  · exact .inr ⟨pieces, hpieces, by rw [heq, hinner]⟩

theorem gainsBy_consSplice (hr : r ≠ .text) (hb : b.OpensOn cs) (c : Char) :
    GainsBy r (consSplice c) b := by
  obtain ⟨_, ended, rest⟩ := b
  obtain ⟨-, chars, closed, pieces, rfl⟩ := hb
  intro pieces' h
  obtain ⟨front, back, hchars, hlast, rfl, rfl⟩ | ⟨more, hmore, rfl⟩ := h.splice_cases
  · match front with
    | [] =>
      obtain rfl : c :: chars = back := hchars
      exact .inl ⟨hr, rfl⟩
    | d :: front =>
      obtain ⟨rfl, rfl⟩ := List.cons.inj hchars
      exact .inr ⟨_, .here fun h => hlast (by simp [List.getLast?_cons, h]), rfl⟩
  · exact .inr ⟨_, .there _ hmore, rfl⟩

/-- In a string inside a splice a backslash hides the next character. -/
theorem gainsBy_consHidden (hr : r ≠ .text) (hb : b.OpensOn cs) (c : Char) :
    GainsBy r (fun b => (b.consSplice c).consSplice '\\') b := by
  obtain ⟨_, ended, rest⟩ := b
  obtain ⟨-, chars, closed, pieces, rfl⟩ := hb
  intro pieces' h
  obtain ⟨front, back, hchars, hlast, rfl, rfl⟩ | ⟨more, hmore, rfl⟩ := h.splice_cases
  · match front with
    | [] =>
      obtain rfl : '\\' :: c :: chars = back := hchars
      exact .inl ⟨hr, rfl⟩
    | [d] =>
      obtain ⟨rfl, -⟩ := List.cons.inj hchars
      exact absurd rfl hlast
    | d :: e :: front =>
      simp only [List.cons_append, List.cons.injEq] at hchars
      obtain ⟨rfl, rfl, rfl⟩ := hchars
      exact .inr ⟨_, .here fun h => hlast (by simp [List.getLast?_cons, h]), rfl⟩
  · exact .inr ⟨_, .there _ hmore, rfl⟩

theorem gainsBy_endSplice (hr : r ≠ .text) : GainsBy r (endSplice true) b := by
  intro pieces' h
  obtain ⟨front, back, hchars, -, -, rfl⟩ | ⟨more, hmore, rfl⟩ := Piece.Gains.splice_cases h
  · obtain ⟨rfl, rfl⟩ := List.append_eq_nil_iff.1 hchars.symm
    exact .inl ⟨hr, rfl⟩
  · exact .inr ⟨more, hmore, rfl⟩

end Body

namespace Region

/-- Where a splice of a body that is read from a region on gains a semicolon, the body is read from
the characters with the semicolon among them. -/
def TakesIn (r : Region) (cs : List Char) : Prop :=
  ∀ pieces, Piece.Gains (interpolatedBody r cs).pieces pieces →
    ∃ front back, cs = front ++ back ∧
      interpolatedBody r (front ++ ';' :: back) = (interpolatedBody r cs).recut pieces

variable {r r' : Region} {cs : List Char}

/-- Some characters stand before others that are read in this way. -/
theorem TakesIn.after {l : List Char} {f : Body → Body} (h : r.TakesIn cs)
    (hread : ∀ more, interpolatedBody r' (l ++ more) = f (interpolatedBody r more))
    (hgains : Body.GainsBy r' f (interpolatedBody r cs)) : r'.TakesIn (l ++ cs) := by
  intro pieces' hpieces'
  rw [hread] at hpieces'
  obtain ⟨hr, hfront⟩ | ⟨pieces, hpieces, hinner⟩ := hgains pieces' hpieces'
  · refine ⟨[], l ++ cs, rfl, ?_⟩
    rw [List.nil_append, interpolatedBody_semicolon hr, hread, hfront]
  · obtain ⟨front, back, rfl, hfront⟩ := h pieces hpieces
    refine ⟨l ++ front, back, (List.append_assoc ..).symm, ?_⟩
    rw [List.append_assoc, hread, hread, hfront, hinner]

/-- There is no closed splice that could gain a semicolon. -/
theorem TakesIn.of_none (h : ∀ pieces, ¬ Piece.Gains (interpolatedBody r cs).pieces pieces) :
    r.TakesIn cs := fun pieces hpieces => absurd hpieces (h pieces)

theorem takesIn (r : Region) (cs : List Char) : r.TakesIn cs := by
  have hopen {rest : List Char} (pieces : List Piece) :
      ¬ Piece.Gains ((Body.cutOff rest).endSplice false).pieces pieces := by
    intro h
    obtain ⟨-, -, -, -, hclosed, -⟩ | ⟨_, hmore, -⟩ := Piece.Gains.splice_cases h
    · cases hclosed
    · exact Piece.Gains.not_nil hmore
  have hlone {pieces : List Piece} : ¬ Piece.Gains [.text ['\\']] pieces := by
    rintro (_ | ⟨_, h⟩)
    exact Piece.Gains.not_nil h
  have hsplice (depth : Nat) (cs : List Char) : (interpolatedBody (.splice depth) cs).OpensOn cs :=
    accounts_interpolatedBody (.splice depth) cs
  have hquoted (depth : Nat) (cs : List Char) : (interpolatedBody (.quoted depth) cs).OpensOn cs :=
    accounts_interpolatedBody (.quoted depth) cs
  fun_induction interpolatedBody r cs with
  | case1 | case2 | case3 => exact .of_none fun _ => Piece.Gains.not_nil
  | case4 => exact .of_none fun _ => hlone
  | case5 c cs hhidden ih =>
    refine ih.after (l := ['\\', c]) (fun more => ?_) (Body.gainsBy_consEscape c)
    rw [List.cons_append, List.cons_append, List.nil_append, interpolatedBody]
    exact hhidden
  | case6 cs ih =>
    exact ih.after (l := ['{']) (f := id) (fun _ => rfl) fun pieces h => .inr ⟨pieces, h, rfl⟩
  | case7 c cs hquote hfeed hhidden hescape hopen ih =>
    by_cases hslash : c = '\\'
    · -- a backslash with nothing behind it
      subst hslash
      cases cs with
      | nil => exact .of_none fun _ => hlone
      | cons d cs => exact absurd rfl (hescape d cs rfl)
    · refine ih.after (l := [c]) (fun more => ?_) (Body.gainsBy_consText c)
      rw [List.cons_append, List.nil_append, interpolatedBody]
      · exact hquote
      · exact hfeed
      · exact fun _ h _ => hslash h
      · exact fun _ _ h _ => hslash h
      · exact hopen
  | case8 | case9 | case15 | case16 => exact .of_none hopen
  | case10 depth cs ih =>
    exact ih.after (l := ['"']) (fun _ => by rw [List.cons_append, interpolatedBody]; rfl)
      (Body.gainsBy_consSplice (by simp) (hquoted depth cs) _)
  | case11 depth cs ih | case13 depth cs ih | case17 depth cs ih =>
    exact ih.after (l := [_]) (fun _ => by rw [List.cons_append, interpolatedBody]; rfl)
      (Body.gainsBy_consSplice (by simp) (hsplice _ cs) _)
  | case12 cs ih => exact ih.after (l := ['}']) (fun _ => rfl) (Body.gainsBy_endSplice (by simp))
  | case14 depth c cs hfeed hquote hopen hclose hclose' ih =>
    refine ih.after (l := [c]) (fun more => ?_) (Body.gainsBy_consSplice (by simp) (hsplice depth cs) c)
    rw [List.cons_append, List.nil_append, interpolatedBody]
    all_goals assumption
  | case18 =>
    refine .of_none fun pieces h => ?_
    obtain ⟨-, -, -, -, hclosed, -⟩ | ⟨_, hmore, -⟩ := Piece.Gains.splice_cases h
    · cases hclosed
    · exact Piece.Gains.not_nil hmore
  | case19 depth c cs ih =>
    exact ih.after (l := ['\\', c]) (fun _ => rfl) (Body.gainsBy_consHidden (by simp) (hquoted depth cs) c)
  | case20 depth c cs hfeed hquote hlone hescape ih =>
    have hslash : c ≠ '\\' := by
      rintro rfl
      cases cs with
      | nil => exact hlone rfl rfl
      | cons d cs => exact hescape d cs rfl rfl
    refine ih.after (l := [c]) (fun more => ?_) (Body.gainsBy_consSplice (by simp) (hquoted depth cs) c)
    rw [List.cons_append, List.nil_append, interpolatedBody]
    · exact hfeed
    · exact hquote
    · exact fun h _ => hslash h
    · exact fun _ _ h _ => hslash h

end Region

/-- A string with a semicolon more in one of its splices is read as the pieces that it is made of. -/
theorem interpolatedBody_of_gains {body : List Char} {pieces : List Piece}
    (h : Piece.Gains (interpolatedBody .text body).pieces pieces) :
    interpolatedBody .text ((interpolatedBody .text body).recut pieces).whole =
      (interpolatedBody .text body).recut pieces := by
  obtain ⟨front, back, -, hread⟩ := Region.takesIn .text body pieces h
  have hwhole : (interpolatedBody .text (front ++ ';' :: back)).whole = front ++ ';' :: back :=
    accounts_interpolatedBody .text (front ++ ';' :: back)
  rw [← hread, hwhole]

end ActorFrontend
