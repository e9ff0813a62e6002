import ActorFrontend.Proofs.Lexing.Numerals

/-!
# Where a dot or a semicolon follows

A token may change where more characters are put behind the text.  A word and a closing bracket at the
end of a text do not change where a dot is put there, and where a semicolon is put there hardly any
token does.  What stands before the last token of a text does not change either.
-/

namespace ActorFrontend

/-! ## Bodies -/

/-- What is found of the first characters with a property does not change if more characters follow
that the search does not come to. -/
theorem List.takeWhile_append_cons {α : Type} {p : α → Bool} {as : List α} {a : α}
    (h : as.dropWhile p ≠ [] ∨ p a = false) (more : List α) :
    (as ++ a :: more).takeWhile p = as.takeWhile p ∧
      (as ++ a :: more).dropWhile p = as.dropWhile p ++ a :: more := by
  induction as with
  | nil =>
    obtain h | h := h
    · exact absurd rfl h
    · simp [h]
  | cons b as ih =>
    cases hb : p b with
    | false => simp [hb]
    | true =>
      rw [List.dropWhile_cons_of_pos hb] at h
      simp [hb, ih h]

/-- A body that is closed, or behind which something is left, is read in the same way in a longer
text. -/
theorem plainBody_append_of_ends {cs : List Char}
    (h : (plainBody cs).2.1 = true ∨ (plainBody cs).2.2 ≠ []) (more : List Char) :
    plainBody (cs ++ more) =
      ((plainBody cs).1, (plainBody cs).2.1, (plainBody cs).2.2 ++ more) := by
  fun_induction plainBody cs with
  | case1 => simp at h
  | case2 | case3 | case4 => rfl
  | case5 c cs hline body closed rest hread ih =>
    rw [hread] at ih
    rw [List.cons_append, List.cons_append, plainBody, ih h]
    exact hline
  | case6 c cs hquote hline hhidden hescape body closed rest hread ih =>
    rw [hread] at ih
    have hne : cs ≠ [] := by
      rintro rfl
      cases hread
      simp at h
    obtain ⟨d, cs, rfl⟩ := List.exists_cons_of_ne_nil hne
    rw [List.cons_append, plainBody, ih h]
    · exact hquote
    · exact hline
    · intro cs' hc hcs
      obtain ⟨rfl, -⟩ := List.cons.inj hcs
      exact hhidden cs hc rfl
    · intro d' cs' hc hcs
      exact hescape d cs hc rfl

open Body in
/-- A body of an interpolated string that is closed, or behind which something is left, is read in the
same way in a longer text. -/
theorem interpolatedBody_append_of_ends {r : Region} {cs : List Char}
    (h : (interpolatedBody r cs).closed = true ∨ (interpolatedBody r cs).rest ≠ [])
    (more : List Char) :
    interpolatedBody r (cs ++ more) =
      (interpolatedBody r cs).cutAt ((interpolatedBody r cs).rest ++ more) := by
  have htext {c : Char} {b b' : Body} (hb : b' = b.cutAt (b.rest ++ more)) :
      b'.consText c = (b.consText c).cutAt ((b.consText c).rest ++ more) := by
    rw [hb, rest_consText, cutAt_consText]
  have hsplice {c : Char} {b b' : Body} (hb : b' = b.cutAt (b.rest ++ more)) :
      b'.consSplice c = (b.consSplice c).cutAt ((b.consSplice c).rest ++ more) := by
    rw [hb, rest_consSplice, cutAt_consSplice]
  fun_induction interpolatedBody r cs with
  | case1 | case8 | case15 | case18 => simp [cutOff, endSplice, consSplice] at h
  | case2 | case3 | case4 | case9 | case16 => rfl
  | case5 c cs hhidden ih =>
    rw [rest_consText, rest_consText, closed_consText, closed_consText] at h
    rw [List.cons_append, List.cons_append, interpolatedBody]
    · exact htext (htext (ih h))
    · exact hhidden
  | case6 cs ih => exact ih h
  | case7 c cs hquote hfeed hhidden hescape hbrace ih =>
    rw [rest_consText, closed_consText] at h
    obtain ⟨d, cs, rfl⟩ : ∃ d cs', cs = d :: cs' := by
      cases cs with
      | nil => simp [interpolatedBody, cutOff] at h
      | cons d cs => exact ⟨d, cs, rfl⟩
    rw [List.cons_append, interpolatedBody]
    · exact htext (ih h)
    · exact hquote
    · exact hfeed
    · intro cs' hc hcs
      obtain ⟨rfl, -⟩ := List.cons.inj hcs
      exact hhidden cs hc rfl
    · intro d' cs' hc _
      exact hescape d cs hc rfl
    · exact hbrace
  | case10 depth cs ih | case11 depth cs ih | case13 depth cs ih | case17 depth cs ih =>
    rw [rest_consSplice, closed_consSplice] at h
    rw [List.cons_append, interpolatedBody]
    exact hsplice (ih h)
  | case12 cs ih => exact congrArg (endSplice true) (ih h)
  | case14 depth c cs hfeed hquote hbrace hclose hclose' ih =>
    rw [rest_consSplice, closed_consSplice] at h
    rw [List.cons_append, interpolatedBody]
    · exact hsplice (ih h)
    all_goals assumption
  | case19 depth c cs ih =>
    rw [rest_consSplice, rest_consSplice, closed_consSplice, closed_consSplice] at h
    exact hsplice (hsplice (ih h))
  | case20 depth c cs hfeed hquote hlone hescape ih =>
    rw [rest_consSplice, closed_consSplice] at h
    obtain ⟨d, cs, rfl⟩ : ∃ d cs', cs = d :: cs' := by
      cases cs with
      | nil => simp [interpolatedBody, cutOff, endSplice] at h
      | cons d cs => exact ⟨d, cs, rfl⟩
    rw [List.cons_append, interpolatedBody]
    · exact hsplice (ih h)
    · exact hfeed
    · exact hquote
    · exact fun _ hcs => List.cons_ne_nil _ _ hcs
    · exact fun d' cs' hc _ => hescape d cs hc rfl

/-! ## Matches -/

/-- Words and closing brackets end where they do whatever follows, if only the word does not go on. -/
def TokenKind.isWordOrCloser : TokenKind → Bool
  | .ident _ | .keyword _ | .bool _ => true
  | .symbol s => s.closes
  | _ => false

/-- A token of this shape at the end of a text ends there as well where the character follows, which is
a dot or a semicolon. -/
def Shape.endsBefore (d : Char) : Shape → Bool
  | .word | .label _ => true
  | .symbol s => s.closes || d == ';'
  | .integer _ _ | .float => d == ';'
  | .string _ closed | .interpolated _ closed => closed
  | .whitespace | .lineComment | .blockComment _ | .unknown _ => false

namespace Match

variable {c d : Char} {cs : List Char}

theorem run_append_cons {shape : List Char → Shape} {lead : List Char} {p : Char → Bool}
    {more : List Char} (h : (run shape lead p cs).rest ≠ [] ∨ p d = false) :
    run shape lead p (cs ++ d :: more) =
      (run shape lead p cs).cutAt ((run shape lead p cs).rest ++ d :: more) := by
  obtain ⟨htake, hdrop⟩ := List.takeWhile_append_cons h more
  simp [run, cutAt, htake, hdrop]

theorem blockCommentBody_append_of_rest (h : (blockCommentBody cs).2.2 ≠ []) (more : List Char) :
    blockCommentBody (cs ++ more) =
      ((blockCommentBody cs).1, (blockCommentBody cs).2.1, (blockCommentBody cs).2.2 ++ more) := by
  fun_induction blockCommentBody cs with
  | case1 => exact absurd rfl h
  | case2 cs => rfl
  | case3 c cs hend body closed rest hread ih =>
    rw [hread] at ih
    obtain ⟨d, cs, rfl⟩ : ∃ d cs', cs = d :: cs' := by
      cases cs with
      | nil => exact absurd (Prod.ext_iff.1 (Prod.ext_iff.1 hread).2).2.symm h
      | cons d cs => exact ⟨d, cs, rfl⟩
    rw [List.cons_append, blockCommentBody, ih h]
    intro cs' hc hcs
    obtain ⟨rfl, -⟩ := List.cons.inj hcs
    exact hend cs hc rfl

/-- Only a symbol that starts with dots goes on with one, and none goes on with a semicolon. -/
theorem symbolOrUnknown_append_cons (hd : d = '.' ∨ d = ';')
    (h : d = '.' → c = '.' → (symbolOrUnknown c cs).rest ≠ []) (more : List Char) :
    symbolOrUnknown c (cs ++ d :: more) =
      (symbolOrUnknown c cs).cutAt ((symbolOrUnknown c cs).rest ++ d :: more) := by
  have hsame (s : Symbol) :
      s.chars.isPrefixOf (c :: (cs ++ d :: more)) = s.chars.isPrefixOf (c :: cs) := by
    by_cases hc : d = '.' ∧ c = '.'
    · obtain ⟨rfl, rfl⟩ := hc
      have hrest := h rfl rfl
      -- the symbols that start with a dot are told apart by the next two characters
      cases cs with
      | nil => exact absurd rfl hrest
      | cons d cs =>
        by_cases hd : d = '.'
        · subst hd
          cases cs with
          | nil => exact absurd rfl hrest
          | cons e cs => cases s <;> simp [Symbol.chars, List.isPrefixOf]
        · have hd : ('.' == d) = false := beq_eq_false_iff_ne.2 (Ne.symm hd)
          cases s <;> simp [Symbol.chars, List.isPrefixOf, hd]
    · obtain rfl | rfl := hd
      · -- the symbols with a dot behind their first character start with one as well
        have hdot : ('.' == c) = false := beq_eq_false_iff_ne.2 fun h => hc ⟨rfl, h.symm⟩
        cases cs <;> cases s <;> simp [Symbol.chars, List.isPrefixOf, hdot]
      · obtain _ | ⟨_, _ | ⟨_, _⟩⟩ := cs <;> cases s <;> simp [Symbol.chars, List.isPrefixOf]
  have hlongest : Symbol.longest? (c :: (cs ++ d :: more)) = Symbol.longest? (c :: cs) := by
    simp only [Symbol.longest?, hsame]
  unfold symbolOrUnknown
  rw [hlongest]
  cases hfound : Symbol.longest? (c :: cs) with
  | none => rfl
  | some s =>
    obtain ⟨rest, hrest⟩ := Symbol.isPrefixOf_longest? hfound
    simp only [cutAt]
    rw [← List.cons_append, ← hrest, List.append_assoc, List.drop_left, List.drop_left]

theorem exponent_append_cons (hd : d = '.' ∨ d = ';') (more : List Char) :
    exponent (cs ++ d :: more) = ((exponent cs).1, (exponent cs).2 ++ d :: more) := by
  have hdigits (as : List Char) :
      (as ++ d :: more).takeWhile Char.isDigit = as.takeWhile Char.isDigit ∧
        (as ++ d :: more).dropWhile Char.isDigit = as.dropWhile Char.isDigit ++ d :: more :=
    List.takeWhile_append_cons (.inr (by obtain rfl | rfl := hd <;> decide)) more
  match cs with
  | [] => obtain rfl | rfl := hd <;> cases more <;> simp [exponent]
  | [e] =>
    have hnone : exponent (e :: d :: more) = ([], e :: d :: more) := by
      rw [exponent_cons]
      obtain rfl | rfl := hd <;> simp
    exact hnone
  | e :: sign :: digits =>
    have hsign := hdigits (sign :: digits)
    rw [List.cons_append] at hsign
    rw [List.cons_append, List.cons_append, exponent_cons, exponent_cons, (hdigits digits).1,
      (hdigits digits).2, hsign.1, hsign.2]
    (repeat' split) <;> rfl

theorem decimal_append_cons (hd : d = '.' ∨ d = ';') (h : d = '.' → (decimal cs).rest ≠ [])
    (more : List Char) :
    decimal (cs ++ d :: more) = (decimal cs).cutAt ((decimal cs).rest ++ d :: more) := by
  have hdigits (as : List Char) :
      (as ++ d :: more).takeWhile isDigitOrUnderscore = as.takeWhile isDigitOrUnderscore ∧
        (as ++ d :: more).dropWhile isDigitOrUnderscore =
          as.dropWhile isDigitOrUnderscore ++ d :: more :=
    List.takeWhile_append_cons (.inr (by obtain rfl | rfl := hd <;> decide)) more
  obtain ⟨htake, hdrop⟩ := hdigits cs
  by_cases hfloat : ∃ d rest, cs.dropWhile isDigitOrUnderscore = '.' :: d :: rest ∧ d.isDigit = true
  · obtain ⟨first, rest, hrest, hfirst⟩ := hfloat
    rw [hrest, List.cons_append, List.cons_append] at hdrop
    rw [decimal_of_float hrest hfirst, decimal_of_float hdrop hfirst, htake, (hdigits rest).1,
      (hdigits rest).2, exponent_append_cons hd]
    rfl
  · have hinteger (d : Char) (rest : List Char)
        (hrest : cs.dropWhile isDigitOrUnderscore = '.' :: d :: rest) : d.isDigit = false := by
      by_contra hdigit
      exact hfloat ⟨d, rest, hrest, by simpa using hdigit⟩
    rw [decimal_of_integer rfl hinteger] at h ⊢
    rw [decimal_of_integer hdrop, htake]
    · rfl
    · -- a digit behind the point would stand in the text itself
      intro first rest hrest
      match hpoint : cs.dropWhile isDigitOrUnderscore with
      | [] =>
        rw [hpoint] at hrest
        exact absurd hpoint (h (List.cons.inj hrest).1)
      | [_] =>
        rw [hpoint] at hrest
        obtain ⟨rfl, -⟩ := List.cons.inj (List.cons.inj hrest).2
        obtain rfl | rfl := hd <;> rfl
      | a :: b :: as =>
        rw [hpoint] at hrest
        obtain ⟨rfl, hmore⟩ := List.cons.inj hrest
        obtain ⟨rfl, -⟩ := List.cons.inj hmore
        exact hinteger b as hpoint

theorem endsBefore_decimal (cs : List Char) : (decimal cs).shape.endsBefore '.' = false := by
  unfold decimal
  split
  case h_1 => split <;> rfl
  case h_2 => rfl

theorem endsBefore_symbolOrUnknown (cs : List Char) :
    (symbolOrUnknown '.' cs).shape.endsBefore '.' = false := by
  unfold symbolOrUnknown
  split
  case h_1 s hlongest =>
    have hprefix := Symbol.isPrefixOf_longest? hlongest
    -- no symbol that starts with a dot closes anything
    cases s <;> first | rfl | simp [Symbol.chars] at hprefix
  case h_2 => rfl

theorem string_append_of_ends
    (h : (string cs).shape.endsBefore d = true ∨ (string cs).rest ≠ []) (more : List Char) :
    string (cs ++ more) = (string cs).cutAt ((string cs).rest ++ more) := by
  simp [string, cutAt, plainBody_append_of_ends h more]

theorem interpolated_append_of_ends
    (h : (interpolated cs).shape.endsBefore d = true ∨ (interpolated cs).rest ≠ []) (more : List Char) :
    interpolated (cs ++ more) = (interpolated cs).cutAt ((interpolated cs).rest ++ more) := by
  simp [interpolated, cutAt, interpolatedBody_append_of_ends h more, Body.cutAt, Body.source]

/-- Where a dot or a semicolon follows a match stays as it is, if it ends before that or if something
else stood behind it already. -/
theorem longest_append_cons (hd : d = '.' ∨ d = ';')
    (h : (longest c cs).rest ≠ [] ∨ (longest c cs).shape.endsBefore d = true) (more : List Char) :
    longest c (cs ++ d :: more) = (longest c cs).cutAt ((longest c cs).rest ++ d :: more) := by
  generalize hm : longest c cs = m at h ⊢
  have hrest (hshape : m.shape.endsBefore d = false) : m.rest ≠ [] :=
    h.resolve_right (Bool.not_eq_true _ ▸ hshape)
  have hoff {p : Char → Bool} (hp : ['.', ';'].any p = false) : m.rest ≠ [] ∨ p d = false := by
    obtain rfl | rfl := hd <;> simp_all
  have hsymbol {c : Char} {cs : List Char} (hm : symbolOrUnknown c cs = m) :
      symbolOrUnknown c (cs ++ d :: more) = m.cutAt (m.rest ++ d :: more) := by
    subst hm
    refine symbolOrUnknown_append_cons hd ?_ more
    rintro rfl rfl
    exact hrest (endsBefore_symbolOrUnknown cs)
  unfold longest at hm
  split at hm
  case h_1 cs =>
    subst hm
    exact run_append_cons (.inl (hrest rfl))
  case h_2 cs =>
    subst hm
    have hbody := blockCommentBody_append_of_rest (hrest rfl) (d :: more)
    simp [longest, cutAt, hbody]
  case h_3 =>
    subst hm
    exact string_append_of_ends h.symm (d :: more)
  case h_4 =>
    subst hm
    exact interpolated_append_of_ends h.symm (d :: more)
  case h_5 | h_6 | h_7 | h_8 =>
    subst hm
    exact run_append_cons (hoff (by decide))
  case h_9 first cs =>
    rw [List.cons_append, longest]
    split at hm
    case isTrue hword =>
      subst hm
      rw [if_pos hword]
      exact run_append_cons (hoff (by decide))
    case isFalse hword =>
      rw [if_neg hword]
      exact hsymbol hm
  case h_10 h₁ h₂ h₃ h₄ h₅ h₆ h₇ h₈ h₉ =>
    have hplain :
        longest c (cs ++ d :: more) =
          if isBlank c then run (fun _ => .whitespace) [c] isBlank (cs ++ d :: more)
          else if c.isDigit then decimal (c :: cs ++ d :: more)
          else if isWordStart c then run (fun _ => .word) [c] isWordChar (cs ++ d :: more)
          else symbolOrUnknown c (cs ++ d :: more) := by
      clear hrest hsymbol hoff h hm
      unfold longest
      split
      case h_10 => rfl
      case h_9 first cs' hcs =>
        cases cs with
        | nil =>
          obtain ⟨rfl, rfl⟩ := List.cons.inj hcs
          obtain rfl | rfl := hd <;> rfl
        | cons first cs => exact absurd rfl (h₉ first cs rfl)
      all_goals obtain rfl | rfl := hd <;> cases cs <;> simp_all
    rw [hplain]
    split at hm
    case isTrue hblank =>
      subst hm
      rw [if_pos hblank]
      exact run_append_cons (hoff (by decide))
    case isFalse hblank =>
      rw [if_neg hblank]
      split at hm
      case isTrue hdigit =>
        subst hm
        rw [if_pos hdigit]
        refine decimal_append_cons hd ?_ more
        rintro rfl
        exact hrest (endsBefore_decimal _)
      case isFalse hdigit =>
        rw [if_neg hdigit]
        split at hm
        case isTrue hword =>
          subst hm
          rw [if_pos hword]
          exact run_append_cons (hoff (by decide))
        case isFalse hword =>
          rw [if_neg hword]
          exact hsymbol hm

end Match

/-! ## Texts -/

namespace Token

theorem endsBefore_of_isWordOrCloser {read : Nat → List Char → Lexed} {m : Match} {span : Span}
    (h : (interpret read m span).1.isWordOrCloser = true) : m.shape.endsBefore '.' = true := by
  unfold interpret at h
  split at h
  case h_4 s hshape =>
    rw [hshape]
    exact Bool.or_eq_true_iff.2 (.inl h)
  case h_5 => split at h <;> cases h
  case h_10 hshape =>
    rw [hshape]
    rfl
  all_goals cases h

/-- The rest of a text starts where the first token stops. -/
theorem stop_ofMatch (offset : Nat) (c : Char) (cs : List Char) :
    (ofMatch readAll offset (Match.longest c cs)).1.span.stop +
        Source.byteLength (Match.longest c cs).rest = offset + Source.byteLength (c :: cs) := by
  rw [← (Match.splits_longest c cs).1, Source.byteLength_append, ← Nat.add_assoc]
  rfl

/-- The first token of a text stays as it is where a dot or a semicolon follows. -/
theorem readAll_cons_append {c d : Char} {cs : List Char} (offset : Nat) (hd : d = '.' ∨ d = ';')
    (h : (Match.longest c cs).rest ≠ [] ∨ (Match.longest c cs).shape.endsBefore d = true)
    (more : List Char) :
    let first := ofMatch readAll offset (Match.longest c cs)
    readAll offset (c :: cs ++ d :: more) =
      (readAll first.1.span.stop ((Match.longest c cs).rest ++ d :: more)).cons first.1 first.2 := by
  have hmatch := Match.longest_append_cons hd h more
  rw [List.cons_append, readAll_cons, hmatch]
  rfl

/-- A text that ends with a word or a closing bracket is read in the same way where a dot follows, and
what follows is read as it is alone. -/
theorem readAll_append_dot {ts : List Token} {last : Token} {offset : Nat} {cs : List Char}
    (h : (readAll offset cs).tokens = ts ++ [last]) (hlast : last.kind.isWordOrCloser = true)
    (more : List Char) :
    (readAll offset (cs ++ '.' :: more)).tokens = (readAll offset cs).tokens ++
        (readAll (offset + Source.byteLength cs) ('.' :: more)).tokens ∧
      (readAll offset (cs ++ '.' :: more)).errors = (readAll offset cs).errors ++
        (readAll (offset + Source.byteLength cs) ('.' :: more)).errors := by
  induction ts generalizing offset cs with
  | nil =>
    cases cs with
    | nil => cases h
    | cons c cs =>
      have hread := readAll_cons offset c cs
      simp only at hread
      rw [hread] at h ⊢
      obtain ⟨rfl, hnone⟩ := List.cons.inj h
      have hspells := spells_readAll (Match.longest c cs).rest
        (ofMatch readAll offset (Match.longest c cs)).1.span.stop (List.Subset.refl _)
      have hrest : (Match.longest c cs).rest = [] := by
        rw [← hspells.flatMap_text, hnone]
        rfl
      rw [readAll_cons_append offset (.inl rfl) (.inr (endsBefore_of_isWordOrCloser hlast)),
        ← stop_ofMatch, hrest]
      simp [Lexed.cons, readAll, readWithin, Lexed.empty]
  | cons t ts ih =>
    cases cs with
    | nil => cases h
    | cons c cs =>
      have hread := readAll_cons offset c cs
      simp only at hread
      rw [hread] at h ⊢
      obtain ⟨rfl, htokens⟩ := List.cons.inj h
      have hrest : (Match.longest c cs).rest ≠ [] := fun hrest => by
        rw [hrest] at htokens
        exact List.append_ne_nil_of_right_ne_nil ts (by simp) htokens.symm
      obtain ⟨hmore, herrors⟩ := ih htokens
      rw [readAll_cons_append offset (.inl rfl) (.inl hrest), ← stop_ofMatch]
      simp only [Lexed.cons, hmore, herrors, List.cons_append, List.append_assoc, and_self]

/-- A dot before something else than a dot is a token of its own. -/
theorem readAll_dot (offset : Nat) {c : Char} (hc : c ≠ '.') (cs : List Char) :
    readAll offset ('.' :: c :: cs) =
      (readAll (offset + 1) (c :: cs)).cons ⟨.symbol .dot, ".", ⟨offset, offset + 1⟩⟩ [] := by
  have hdot : ('.' == c) = false := beq_eq_false_iff_ne.2 (Ne.symm hc)
  have hlongest : Symbol.longest? ('.' :: c :: cs) = some .dot := by
    simp [Symbol.longest?, Symbol.all, Symbol.chars, List.isPrefixOf, hdot]
  have hmatch : Match.longest '.' (c :: cs) = ⟨.symbol .dot, ['.'], c :: cs⟩ := by
    change Match.symbolOrUnknown '.' (c :: cs) = _
    rw [Match.symbolOrUnknown, hlongest]
    rfl
  rw [readAll_cons, hmatch]
  rfl

/-- A space before something else than white space is a token of its own. -/
theorem readAll_space (offset : Nat) {c : Char} (hc : Match.isBlank c = false) (cs : List Char) :
    readAll offset (' ' :: c :: cs) =
      (readAll (offset + 1) (c :: cs)).cons ⟨.whitespace, " ", ⟨offset, offset + 1⟩⟩ [] := by
  have hmatch : Match.longest ' ' (c :: cs) = ⟨.whitespace, [' '], c :: cs⟩ := by
    change Match.run (fun _ => .whitespace) [' '] Match.isBlank (c :: cs) = _
    simp [Match.run, hc]
  rw [readAll_cons, hmatch]
  rfl

end Token

/-! ## Single tokens -/

/-- The text is a single token of this kind, in which nothing is wrong. -/
def IsToken (text : String) (kind : TokenKind) : Prop :=
  (tokenize text).tokens.map (·.kind) = [kind, .endOfFile] ∧ (tokenize text).errors = []

namespace IsToken

variable {text : String} {kind : TokenKind} {value : UInt64}

/-- The token, wherever the text stands. -/
theorem readAll_eq (h : IsToken text kind) (hkind : ∀ fragments, kind ≠ .interpolated fragments)
    (offset : Nat) :
    Token.readAll offset text.toList =
      ⟨[⟨kind, text, ⟨offset, offset + Source.byteLength text.toList⟩⟩], []⟩ := by
  obtain ⟨hkinds, herrors⟩ := h
  rw [tokenize, Lexer.finish_ofSource] at hkinds herrors
  have hspells := spells_readAll text.toList 0 (List.Subset.refl _)
  have hread := Token.readAll_add 0 offset text.toList
  rw [Nat.zero_add] at hread
  obtain ⟨⟨kind', text', span⟩, htokens, rfl⟩ :
      ∃ t, (Token.readAll 0 text.toList).tokens = [t] ∧ t.kind = kind := by
    cases htokens : (Token.readAll 0 text.toList).tokens with
    | nil => simp [htokens] at hkinds
    | cons t ts =>
      simp only [htokens, List.cons_append, List.map_cons, List.map_append, List.cons.injEq] at hkinds
      obtain ⟨ht, hts⟩ := hkinds
      have hnil : ts = [] := by simpa [Token.endAt] using congrArg List.length hts
      exact ⟨t, by rw [hnil], ht⟩
  rw [htokens] at hspells
  obtain rfl : text' = text := String.toList_inj.1 (by simpa using hspells.flatMap_text)
  have hstart : span.start = 0 := by simpa using hspells.isChain_span.2
  have hstop : span.stop = span.start + Source.byteLength text'.toList := by
    simpa using hspells.span_stop
  have hspan : span.shift offset = ⟨offset, offset + Source.byteLength text'.toList⟩ := by
    simp [Span.shift, hstop, hstart, Nat.add_comm offset]
  rw [hread, Lexed.shift, htokens, herrors, List.map_singleton, Token.shift,
    TokenKind.shift_of_ne hkind, hspan]
  rfl

/-- Only the match of an integer that can be read means one without an error. -/
theorem integer_of_interpret {read : Nat → List Char → Lexed} {m : Match} {span : Span}
    (h : Token.interpret read m span = (.int value, [])) :
    ∃ r body, m.shape = .integer r body ∧ r.read? body = some value := by
  unfold Token.interpret at h
  split at h
  case h_5 r body hshape =>
    split at h
    case h_1 value' hread =>
      obtain ⟨hvalue, -⟩ := Prod.mk.inj h
      obtain rfl := TokenKind.int.inj hvalue
      exact ⟨r, body, hshape, hread⟩
    case h_2 => cases h
  case h_10 =>
    obtain ⟨hword, -⟩ := Prod.mk.inj h
    unfold Token.ofWord at hword
    split at hword <;> (try split at hword) <;> (try split at hword) <;> cases hword
  all_goals cases h

/-- An integer is a mark and the body of its number. -/
theorem exists_denotes (h : IsToken text (.int value)) :
    ∃ r mark body, Radix.Mark r mark ∧ r.Denotes body value.toNat ∧
      text.toList = mark ++ body := by
  have hall := h.readAll_eq nofun 0
  cases htext : text.toList with
  | nil =>
    rw [htext] at hall
    cases hall
  | cons c cs =>
    rw [htext, Token.readAll_cons] at hall
    obtain ⟨hfirst, hrest⟩ := List.cons.inj (Lexed.mk.inj hall).1
    obtain ⟨herrors, -⟩ := List.append_eq_nil_iff.1 (Lexed.mk.inj hall).2
    have hmeant : Token.interpret Token.readAll (Match.longest c cs)
        ⟨0, 0 + Source.byteLength (Match.longest c cs).text⟩ = (.int value, []) :=
      Prod.ext (congrArg Token.kind hfirst) herrors
    obtain ⟨r, body, hshape, hread⟩ := integer_of_interpret hmeant
    obtain ⟨mark, hmark, hbody⟩ := Match.marked_longest c cs r body hshape
    have hwhole : (Match.longest c cs).text = text.toList :=
      (String.toList_ofList ..).symm.trans (congrArg (fun t => t.text.toList) hfirst)
    exact ⟨r, mark, body, hmark, Radix.read?_eq_some_iff.1 hread, htext ▸ hwhole ▸ hbody⟩

/-- No dot stands in an integer. -/
theorem dot_notMem (h : IsToken text (.int value)) : '.' ∉ text.toList := by
  obtain ⟨r, mark, body, hmark, hbody, htext⟩ := h.exists_denotes
  rw [htext, List.mem_append, not_or]
  constructor
  · cases hmark with
    | decimal => exact List.not_mem_nil
    | hexadecimal hx => rcases hx with rfl | rfl <;> decide
    | binary hb => rcases hb with rfl | rfl <;> decide
  · intro hdot
    have hgoes := Radix.goesOn_of_denotes hbody '.' hdot
    cases r <;> cases hgoes

/-- An integer starts with something else than a dot. -/
theorem exists_cons (h : IsToken text (.int value)) : ∃ c cs, text.toList = c :: cs ∧ c ≠ '.' := by
  have hdot := h.dot_notMem
  have hread := h.readAll_eq nofun 0
  cases htext : text.toList with
  | nil =>
    rw [htext] at hread
    cases hread
  | cons c cs =>
    rw [htext] at hdot
    exact ⟨c, cs, rfl, fun hc => hdot (hc ▸ List.mem_cons_self)⟩

/-- An integer is a token of its own where a space follows. -/
theorem readAll_append_space (h : IsToken text (.int value)) (offset : Nat) (more : List Char) :
    Token.readAll offset (text.toList ++ ' ' :: more) =
      (Token.readAll (offset + Source.byteLength text.toList) (' ' :: more)).cons
        ⟨.int value, text, ⟨offset, offset + Source.byteLength text.toList⟩⟩ [] := by
  obtain ⟨r, mark, body, hmark, hbody, htext⟩ := h.exists_denotes
  have hne : mark ++ body ≠ [] := fun hnil =>
    hbody.2.1 (by rw [(List.append_eq_nil_iff.1 hnil).2, List.filter_nil])
  obtain ⟨c, cs, hcs⟩ := List.exists_cons_of_ne_nil hne
  have hblank (d : Char) (rest : List Char) (hrest : ' ' :: more = d :: rest) :
      Match.isBlank d = true := (List.cons.inj hrest).1 ▸ rfl
  have hwhole : c :: (cs ++ ' ' :: more) = mark ++ body ++ ' ' :: more := by
    rw [hcs, List.cons_append]
  have htoken := (Token.ofMatch_integer Token.readAll offset r body (mark ++ body)
    (' ' :: more)).1 value hbody
  simp only [← htext, String.ofList_toList] at htoken
  rw [htext, ← hwhole, Token.readAll_cons, Match.longest_of_denotes_blank hmark hbody hwhole hblank]
  simp only [← htext, htoken]

end IsToken

end ActorFrontend
