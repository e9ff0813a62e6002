import ActorFrontend.Proofs.Lexing.Numerals
import ActorFrontend.Proofs.Lossless

/-!
# Strings read back

A value can be written as a string literal in many ways: most characters stand for themselves, some
have an escape of their own, and those of one byte can be given by their number.  Finding the end of
the literal, cutting it into pieces and decoding them all step over the same escapes, so every way
of writing a value is read as this value.
-/

namespace ActorFrontend

namespace Escape

variable {interpolated : Bool} {c : Char} {w v ws rest : List Char} {offset : Nat}

/-- The letters of the escapes that plain and interpolated strings share. -/
def names : List (Char × Char) :=
  [('\n', 'n'), ('\r', 'r'), ('\t', 't'), ('\x00', '0'), ('\\', '\\'), ('"', '"')]

/-- A character of a value and what it is written as.  In an interpolated string an opening brace
does not stand for itself, but either brace does behind a backslash. -/
inductive Spells (interpolated : Bool) : Char → List Char → Prop where
  | itself {c : Char} (hslash : c ≠ '\\') (hquote : c ≠ '"') (hfeed : c ≠ '\n')
      (hbrace : interpolated = true → c ≠ '\x7b') : Spells interpolated c [c]
  | name {c letter : Char} (h : (c, letter) ∈ names) : Spells interpolated c ['\\', letter]
  | brace {c : Char} (hin : interpolated = true) (h : c = '\x7b' ∨ c = '\x7d') :
      Spells interpolated c ['\\', c]
  | number {c high low : Char} (hbyte : c.toNat < 256)
      (hhigh : high.toLower = Nat.digitChar (c.toNat / 16))
      (hlow : low.toLower = Nat.digitChar (c.toNat % 16)) :
      Spells interpolated c ['\\', 'x', high, low]

/-- A value and the body of a literal that it is written as, character by character. -/
inductive SpellsAll (interpolated : Bool) : List Char → List Char → Prop where
  | nil : SpellsAll interpolated [] []
  | cons {c : Char} {cs w ws : List Char} (head : Spells interpolated c w)
      (tail : SpellsAll interpolated cs ws) : SpellsAll interpolated (c :: cs) (w ++ ws)

/-- Every value can be written. -/
theorem exists_spellsAll (interpolated : Bool) (v : List Char) :
    ∃ w, SpellsAll interpolated v w := by
  induction v with
  | nil => exact ⟨[], .nil⟩
  | cons c cs ih =>
    obtain ⟨ws, htail⟩ := ih
    by_cases hname : ∃ letter, (c, letter) ∈ names
    · obtain ⟨letter, hletter⟩ := hname
      exact ⟨_, .cons (.name hletter) htail⟩
    have hno (letter d : Char) (h : (d, letter) ∈ names) : c ≠ d := fun hc =>
      hname ⟨letter, hc ▸ h⟩
    by_cases hbrace : interpolated = true ∧ c = '\x7b'
    · exact ⟨_, .cons (.brace hbrace.1 (.inl hbrace.2)) htail⟩
    · have hitself : Spells interpolated c [c] :=
        .itself (hno '\\' '\\' (by decide)) (hno '"' '"' (by decide)) (hno 'n' '\n' (by decide))
          fun hin hc => hbrace ⟨hin, hc⟩
      exact ⟨_, .cons hitself htail⟩

/-! ## One character -/

/-- Two digits are read as the character whose number they write. -/
theorem hex?_of_digits {high low : Char} {m n : Nat} (hhigh : Radix.hexValue? high = some m)
    (hlow : Radix.hexValue? low = some n) (hsum : 16 * m + n = c.toNat) : hex? high low = some c := by
  rw [hex?, hhigh, hlow, Option.bind_some, Option.map_some, hsum, Char.ofNat_toNat]

/-- A digit is one byte and stands for itself in a string. -/
theorem itself_of_toLower {d : Char} {n : Nat} (hn : n < 16) (h : d.toLower = Nat.digitChar n) :
    Radix.hexValue? d = some n ∧ d.utf8Size = 1 ∧ d ≠ '\\' ∧ d ≠ '"' ∧ d ≠ '\n' ∧ d ≠ '\x7b' := by
  have hvalue : Radix.hexValue? d = some n := Radix.hexValue?_eq_some_iff.2 ⟨hn, h⟩
  have hother {x : Char} (hx : Radix.hexValue? x = none) : d ≠ x := fun hd => by
    rw [hd, hx] at hvalue
    cases hvalue
  have hcode : d.toNat ≤ 127 := by
    have hrange := Radix.toNat_of_hexValue? hvalue
    omega
  have hsize : d.utf8Size = 1 := Char.utf8Size_eq_one_iff.2 hcode
  exact ⟨hvalue, hsize, hother (by decide), hother (by decide), hother (by decide),
    hother (by decide)⟩

theorem simple?_of_mem_names (interpolated : Bool) {letter : Char} (h : (c, letter) ∈ names) :
    letter ≠ 'x' ∧ letter ≠ '\n' ∧ simple? interpolated letter = some c := by
  revert h
  simp only [names, List.mem_cons, List.not_mem_nil, or_false, Prod.mk.injEq]
  intro h
  rcases h with ⟨rfl, rfl⟩ | ⟨rfl, rfl⟩ | ⟨rfl, rfl⟩ | ⟨rfl, rfl⟩ | ⟨rfl, rfl⟩ | ⟨rfl, rfl⟩
  all_goals exact ⟨by decide, by decide, rfl⟩

/-- The escapes of a backslash and one letter. -/
theorem decode_simple {letter : Char} (hx : letter ≠ 'x') (h : simple? interpolated letter = some c)
    (offset : Nat) (cs : List Char) : decode interpolated offset ('\\' :: letter :: cs) =
      Decoded.cons c (decode interpolated (offset + 1 + letter.utf8Size) cs) := by
  rw [decode.eq_4 _ _ _ _ fun _ _ _ hletter _ => hx hletter, h]

/-- What a character is written as stands for it alone. -/
theorem decode_spells (h : Spells interpolated c w) (offset : Nat) (cs : List Char) :
    decode interpolated offset (w ++ cs) =
      Decoded.cons c (decode interpolated (offset + Source.byteLength w) cs) := by
  have hslash : Char.utf8Size '\\' = 1 := rfl
  cases h with
  | itself hc _ _ _ =>
    exact decode.eq_5 _ _ _ _ (fun h _ => hc h) (fun _ _ _ h _ => hc h) fun _ _ h _ => hc h
  | name hname =>
    obtain ⟨hx, -, hsimple⟩ := simple?_of_mem_names interpolated hname
    rw [List.cons_append, List.singleton_append, decode_simple hx hsimple]
    simp only [Source.byteLength_cons, Source.byteLength_nil, hslash, Nat.add_zero, Nat.add_assoc]
  | brace hin hc =>
    have hsimple : simple? interpolated c = some c := by
      subst hin
      rcases hc with rfl | rfl <;> rfl
    have hx : c ≠ 'x' := by
      rcases hc with rfl | rfl <;> decide
    rw [List.cons_append, List.singleton_append, decode_simple hx hsimple]
    simp only [Source.byteLength_cons, Source.byteLength_nil, hslash, Nat.add_zero, Nat.add_assoc]
  | @number high low hbyte hhigh hlow =>
    obtain ⟨hhigh, hsize, -⟩ := itself_of_toLower (by omega) hhigh
    obtain ⟨hlow, hsize', -⟩ := itself_of_toLower (by omega) hlow
    have hlength : Source.byteLength ['\\', 'x', high, low] = 4 := by
      simp only [Source.byteLength_cons, Source.byteLength_nil, hslash, hsize, hsize']
      rfl
    have hhex : hex? high low = some c := hex?_of_digits hhigh hlow (Nat.div_add_mod _ 16)
    show decode interpolated offset ('\\' :: 'x' :: high :: low :: cs) = _
    rw [decode.eq_3, hhex, hlength]

theorem plainBody_itself (hslash : c ≠ '\\') (hquote : c ≠ '"') (hfeed : c ≠ '\n') (cs : List Char) :
    plainBody (c :: cs) = (c :: (plainBody cs).1, (plainBody cs).2) :=
  plainBody.eq_6 _ _ hquote hfeed (fun _ h _ => hslash h) fun _ _ h _ => hslash h

theorem plainBody_escape (hfeed : c ≠ '\n') (cs : List Char) :
    plainBody ('\\' :: c :: cs) = ('\\' :: c :: (plainBody cs).1, (plainBody cs).2) :=
  plainBody.eq_5 _ _ hfeed

/-- A literal does not end in what a character is written as. -/
theorem plainBody_spells (h : Spells interpolated c w) (cs : List Char) :
    plainBody (w ++ cs) = (w ++ (plainBody cs).1, (plainBody cs).2) := by
  cases h with
  | itself hslash hquote hfeed _ => exact plainBody_itself hslash hquote hfeed cs
  | name hname => exact plainBody_escape (simple?_of_mem_names false hname).2.1 cs
  | brace _ hc =>
    have hfeed : c ≠ '\n' := by
      rcases hc with rfl | rfl <;> decide
    exact plainBody_escape hfeed cs
  | @number high low hbyte hhigh hlow =>
    obtain ⟨-, -, hslash, hquote, hfeed, -⟩ := itself_of_toLower (by omega) hhigh
    obtain ⟨-, -, hslash', hquote', hfeed', -⟩ := itself_of_toLower (by omega) hlow
    show plainBody ('\\' :: 'x' :: high :: low :: cs) = _
    rw [plainBody_escape (by decide), plainBody_itself hslash hquote hfeed,
      plainBody_itself hslash' hquote' hfeed']
    rfl

theorem interpolatedBody_itself (hslash : c ≠ '\\') (hquote : c ≠ '"') (hfeed : c ≠ '\n')
    (hbrace : c ≠ '\x7b') (cs : List Char) :
    interpolatedBody .text (c :: cs) = .consText c (interpolatedBody .text cs) :=
  interpolatedBody.eq_7 _ _ hquote hfeed (fun _ h _ => hslash h) (fun _ _ h _ => hslash h) hbrace

theorem interpolatedBody_escape (hfeed : c ≠ '\n') (cs : List Char) :
    interpolatedBody .text ('\\' :: c :: cs) =
      .consText '\\' (.consText c (interpolatedBody .text cs)) :=
  interpolatedBody.eq_5 _ _ hfeed

/-- What a character is written as stays in the text that it is in, and no splice starts in it. -/
theorem interpolatedBody_spells (h : Spells true c w) (cs : List Char) :
    interpolatedBody .text (w ++ cs) = w.foldr Body.consText (interpolatedBody .text cs) := by
  cases h with
  | itself hslash hquote hfeed hbrace =>
    exact interpolatedBody_itself hslash hquote hfeed (hbrace rfl) cs
  | name hname =>
    exact interpolatedBody_escape (simple?_of_mem_names true hname).2.1 cs
  | brace _ hc =>
    have hfeed : c ≠ '\n' := by
      rcases hc with rfl | rfl <;> decide
    exact interpolatedBody_escape hfeed cs
  | @number high low hbyte hhigh hlow =>
    obtain ⟨-, -, hslash, hquote, hfeed, hbrace⟩ := itself_of_toLower (by omega) hhigh
    obtain ⟨-, -, hslash', hquote', hfeed', hbrace'⟩ := itself_of_toLower (by omega) hlow
    show interpolatedBody .text ('\\' :: 'x' :: high :: low :: cs) = _
    rw [interpolatedBody_escape (by decide), interpolatedBody_itself hslash hquote hfeed hbrace,
      interpolatedBody_itself hslash' hquote' hfeed' hbrace']
    rfl

/-! ## Whole literals -/

theorem decode_spellsAll (h : SpellsAll interpolated v w) (offset : Nat) :
    decode interpolated offset w = (v, []) := by
  induction h generalizing offset with
  | nil => rfl
  | cons head tail ih => rw [decode_spells head, ih, Decoded.cons]

theorem plainBody_spellsAll (h : SpellsAll interpolated v w) (rest : List Char) :
    plainBody (w ++ '"' :: rest) = (w, true, rest) := by
  induction h with
  | nil => rfl
  | cons head tail ih => rw [List.append_assoc, plainBody_spells head, ih]

theorem interpolatedBody_spellsAll (h : SpellsAll true v w) (rest : List Char) :
    interpolatedBody .text (w ++ '"' :: rest) = w.foldr Body.consText ⟨[], true, rest⟩ := by
  induction h with
  | nil => rfl
  | cons head tail ih => rw [List.append_assoc, interpolatedBody_spells head, ih, List.foldr_append]

/-- Text without a splice is one piece. -/
theorem foldr_consText (c : Char) (cs rest : List Char) :
    (c :: cs).foldr Body.consText ⟨[], true, rest⟩ = ⟨[.text (c :: cs)], true, rest⟩ := by
  induction cs generalizing c with
  | nil => rfl
  | cons d cs ih =>
    rw [List.foldr_cons, ih]
    rfl

theorem SpellsAll.ne_nil (h : SpellsAll interpolated v w) (hv : v ≠ []) : w ≠ [] := by
  cases h with
  | nil => exact absurd rfl hv
  | cons head tail =>
    cases head <;> simp

end Escape

/-- Strings read back.  Every value can be written as a string literal, and every way of writing it,
with the escapes of one's choice, is read without error as one token with this value.  A value that is
not empty can be written in an interpolated string as well, and is read as its only part, a text over
all that stands between the quotes. -/
theorem strings_read_back (value : String) :
    (∃ body, Escape.SpellsAll false value.toList body) ∧
    (∃ body, Escape.SpellsAll true value.toList body) ∧
    (∀ body, Escape.SpellsAll false value.toList body →
      let source := String.ofList ('"' :: body ++ ['"'])
      let stop := 2 + Source.byteLength body
      (tokenize source).tokens = [⟨.string value, source, ⟨0, stop⟩⟩, Token.endAt stop] ∧
      (tokenize source).errors = []) ∧
    (value ≠ "" → ∀ body, Escape.SpellsAll true value.toList body →
      let source := String.ofList ('f' :: '"' :: body ++ ['"'])
      let stop := 2 + Source.byteLength body
      (tokenize source).tokens =
        [⟨.interpolated [.text value ⟨2, stop⟩], source, ⟨0, stop + 1⟩⟩, Token.endAt (stop + 1)] ∧
      (tokenize source).errors = []) := by
  have hquote : Char.utf8Size '"' = 1 := rfl
  have hmark : Char.utf8Size 'f' = 1 := rfl
  refine ⟨Escape.exists_spellsAll false _, Escape.exists_spellsAll true _, ?_, ?_⟩
  · intro body h
    have hmatch : Match.longest '"' (body ++ ['"']) =
        ⟨.string body true, '"' :: (body ++ ['"']), []⟩ := by
      show Match.string (body ++ ['"']) = _
      rw [Match.string, Escape.plainBody_spellsAll h]
      rfl
    have hstop : Source.byteLength ('"' :: (body ++ ['"'])) = 2 + Source.byteLength body := by
      simp only [Source.byteLength_cons, Source.byteLength_append, Source.byteLength_nil, hquote]
      omega
    have hall := tokenize_of_longest hmatch
    simp only [Token.interpret, Escape.decode_spellsAll h, String.ofList_toList, hstop] at hall
    exact ⟨congrArg Lexed.tokens hall, congrArg Lexed.errors hall⟩
  · intro hvalue body h
    have hne : body ≠ [] := h.ne_nil fun hnil => hvalue (String.toList_eq_nil_iff.1 hnil)
    obtain ⟨c, cs, rfl⟩ := List.exists_cons_of_ne_nil hne
    have hmatch : Match.longest 'f' ('"' :: ((c :: cs) ++ ['"'])) =
        ⟨.interpolated [.text (c :: cs)] true, 'f' :: '"' :: ((c :: cs) ++ ['"']), []⟩ := by
      show Match.interpolated ((c :: cs) ++ ['"']) = _
      rw [Match.interpolated, Escape.interpolatedBody_spellsAll h, Escape.foldr_consText]
      simp only [Body.source, List.flatMap_singleton, Piece.source]
      rfl
    have hstop : Source.byteLength ('f' :: '"' :: ((c :: cs) ++ ['"'])) =
        2 + Source.byteLength (c :: cs) + 1 := by
      simp only [Source.byteLength_cons, Source.byteLength_append, Source.byteLength_nil, hquote,
        hmark]
      omega
    have hall := tokenize_of_longest hmatch
    simp only [Token.interpret, Token.fragments, Escape.decode_spellsAll h, String.ofList_toList,
      hstop, Nat.zero_add] at hall
    exact ⟨congrArg Lexed.tokens hall, congrArg Lexed.errors hall⟩

/-- A value with all sorts of escapes: a quote, a backslash, a line feed by name, a brace and an
umlaut by its number. -/
theorem strings_read_back_escapes :
    (let source := String.ofList ('"' :: "\\\"a\\\\\\n\\xfC".toList ++ ['"'])
     (tokenize source).tokens = [⟨.string "\"a\\\nü", source, ⟨0, 13⟩⟩, Token.endAt 13] ∧
      (tokenize source).errors = []) ∧
    (let source := String.ofList ('f' :: '"' :: "\\\x7b\x7dé".toList ++ ['"'])
     (tokenize source).tokens =
        [⟨.interpolated [.text "\x7b\x7dé" ⟨2, 7⟩], source, ⟨0, 8⟩⟩, Token.endAt 8] ∧
      (tokenize source).errors = []) := by
  have hplain : Escape.SpellsAll false "\"a\\\nü".toList "\\\"a\\\\\\n\\xfC".toList :=
    .cons (w := ['\\', '"']) (.name (by decide)) <|
    .cons (w := ['a']) (.itself (by decide) (by decide) (by decide) (by decide)) <|
    .cons (w := ['\\', '\\']) (.name (by decide)) <|
    .cons (w := ['\\', 'n']) (.name (by decide)) <|
    .cons (w := ['\\', 'x', 'f', 'C']) (.number (by decide) (by decide) (by decide)) .nil
  have hinterpolated : Escape.SpellsAll true "\x7b\x7dé".toList "\\\x7b\x7dé".toList :=
    .cons (w := ['\\', '\x7b']) (.brace rfl (.inl rfl)) <|
    .cons (w := ['\x7d']) (.itself (by decide) (by decide) (by decide) (by decide)) <|
    .cons (w := ['é']) (.itself (by decide) (by decide) (by decide) (by decide)) .nil
  exact ⟨(strings_read_back "\"a\\\nü").2.2.1 _ hplain,
    (strings_read_back "\x7b\x7dé").2.2.2 (by decide) _ hinterpolated⟩

end ActorFrontend
