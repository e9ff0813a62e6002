import ActorFrontend.Proofs.Nesting.Makes
import ActorFrontend.Proofs.Splices.Scan

/-!
# Where a splice is closed

Of the tokens behind the opening brace of a splice, the first closing brace that matches none of them
stands where the splice ends, as long as no token on the way deceives the scan for the end.
-/

namespace ActorFrontend

variable {c x : Char} {cs rest : List Char} {depth offset : Nat}

/-! ## Texts that do not steer the scan -/

namespace Source

theorem steers_eq_false_of_test {p : Char → Bool} (hx : p x = true)
    (hp : ['"', '{', '}', '\n'].any p = false) : steers x = false := by
  rw [← Bool.not_eq_true]
  intro hsteers
  have hmem : x ∈ ['"', '{', '}', '\n'] := by simpa [steers, or_assoc] using hsteers
  exact List.any_eq_false.1 hp x hmem hx

/-- Characters with a property that those which steer the scan do not have. -/
theorem ordinary_takeWhile {p : Char → Bool} (hp : ['"', '{', '}', '\n'].any p = false) :
    ∀ x ∈ cs.takeWhile p, steers x = false :=
  fun _ hx => steers_eq_false_of_test (List.all_eq_true.1 List.all_takeWhile _ hx) hp

end Source

namespace Match

theorem ordinary_decimal : ∀ x ∈ (decimal cs).text, Source.steers x = false :=
  fun x hx => Source.steers_eq_false_of_test (numeric_decimal x hx) (by decide +kernel)

theorem ordinary_symbolOrUnknown (hc : Source.steers c = false) :
    ∀ x ∈ (symbolOrUnknown c cs).text, Source.steers x = false := by
  -- only the braces are symbols with a character that steers the scan, and they start with it
  have hsymbol (s : Symbol) : s.chars.all (!Source.steers ·) = true ∨
      ∃ d, s.chars = [d] ∧ Source.steers d = true := by
    cases s <;> first | exact .inl rfl | exact .inr ⟨_, rfl, rfl⟩
  unfold symbolOrUnknown
  split
  case h_1 s hs =>
    obtain hordinary | ⟨d, hchars, hd⟩ := hsymbol s
    · simpa using hordinary
    · obtain ⟨tail, htail⟩ := Symbol.isPrefixOf_longest? hs
      rw [hchars] at htail
      obtain rfl : d = c := (List.cons.inj htail).1
      exact absurd (hc.symm.trans hd) Bool.false_ne_true
  case h_2 => simpa using hc

/-- The text of a match that starts with no character that steers the scan: it is ordinary as well,
but for comments, white space with a line feed, and interpolated strings. -/
theorem ordinary_longest (hc : Source.steers c = false) (hfeed : '\n' ∉ (longest c cs).text)
    (hline : (longest c cs).shape ≠ .lineComment)
    (hblock : ∀ closed, (longest c cs).shape = .blockComment closed →
      ∀ x ∈ (longest c cs).text, Source.steers x = false)
    (hstring : ∀ pieces closed, (longest c cs).shape ≠ .interpolated pieces closed) :
    ∀ x ∈ (longest c cs).text, Source.steers x = false := by
  have hrun {shape : List Char → Shape} {lead : List Char} {p : Char → Bool} {cs : List Char}
      (hlead : lead.any Source.steers = false) (hp : ['"', '{', '}', '\n'].any p = false) :
      ∀ x ∈ (run shape lead p cs).text, Source.steers x = false :=
    List.forall_mem_append.2 ⟨by simpa using hlead, Source.ordinary_takeWhile hp⟩
  have hhead : [c].any Source.steers = false := by simpa using hc
  revert hfeed hline hblock hstring
  unfold longest
  split
  case h_1 => exact fun _ hline => absurd rfl hline
  case h_2 => exact fun _ _ hblock _ => hblock _ rfl
  case h_3 => cases hc
  case h_4 => exact fun _ _ _ hstring => absurd rfl (hstring _ _)
  case h_5 | h_6 => exact fun _ _ _ _ => hrun (by decide +kernel) (by decide +kernel)
  case h_7 | h_8 => exact fun _ _ _ _ => hrun (by decide +kernel) (by decide +kernel)
  case h_9 d cs =>
    intro _ _ _ _
    split
    case isTrue hd =>
      have hfirst : Source.steers d = false := Source.steers_eq_false_of_test hd (by decide +kernel)
      exact hrun (by simpa [hfirst] using hc) (by decide +kernel)
    case isFalse => exact ordinary_symbolOrUnknown hc
  case h_10 =>
    intro hfeed _ _ _
    split
    case isTrue hblank =>
      rw [if_pos hblank] at hfeed
      intro x hx
      obtain hx | hx := List.mem_append.1 hx
      · rwa [List.mem_singleton.1 hx]
      · have hmember := List.all_eq_true.1 List.all_takeWhile x hx
        have hinline : x ≠ '\n' := fun h => hfeed (h ▸ List.mem_append_right [c] hx)
        exact Source.steers_eq_false_of_test (p := fun c => isBlank c && c != '\n')
          (by simp [hmember, hinline]) (by decide +kernel)
    case isFalse =>
      split
      case isTrue => exact ordinary_decimal
      case isFalse =>
        split
        case isTrue => exact hrun hhead (by decide +kernel)
        case isFalse => exact ordinary_symbolOrUnknown hc

end Match

/-! ## Tokens that do not deceive the scan -/

/-- The first closing brace that no opening one among the tokens before it belongs to, `depth` of them
being open. -/
def Token.closingBrace? : Nat → List Token → Option Token
  | _, [] => none
  | depth, t :: ts =>
      match t.kind, depth with
      | .symbol .leftBrace, depth => closingBrace? (depth + 1) ts
      | .symbol .rightBrace, 0 => some t
      | .symbol .rightBrace, depth + 1 => closingBrace? depth ts
      | _, depth => closingBrace? depth ts

/-- The scan for the end of a splice is not deceived by the text of the token: it is no line comment
and holds no line feed, a block comment holds neither quotes nor braces, and no quote stands in the
splices of a string. -/
structure Token.Scannable (t : Token) : Prop where
  not_lineComment : t.kind ≠ .lineComment
  oneLine : '\n' ∉ t.text.toList
  blockComment : t.kind = .blockComment → ∀ c ∈ t.text.toList, c ≠ '"' ∧ c ≠ '{' ∧ c ≠ '}'
  splices : ∀ tokens span, t.HasSplice tokens span → ∀ u ∈ tokens, '"' ∉ u.text.toList

namespace Token

/-- No quote stands in the splice, if the fragment is one. -/
def quoteFree : Fragment → Bool
  | .text _ _ => true
  | .splice tokens _ => tokens.all fun u => !u.text.toList.contains '"'

/-- The check that a token does not deceive the scan. -/
def scans (t : Token) : Bool :=
  !t.text.toList.contains '\n' &&
    match t.kind with
    | .lineComment => false
    | .blockComment => t.text.toList.all fun c => c != '"' && c != '{' && c != '}'
    | .interpolated fragments => fragments.all quoteFree
    | _ => true

theorem scannable_iff {t : Token} : t.Scannable ↔ t.scans = true := by
  constructor
  · rintro ⟨hline, hfeed, hblock, hsplices⟩
    have hfeed : (!t.text.toList.contains '\n') = true := by simpa using hfeed
    rw [scans, hfeed, Bool.true_and]
    split
    case h_1 hkind => exact absurd hkind hline
    case h_2 hkind => simpa [and_assoc] using hblock hkind
    case h_3 fragments hkind =>
      refine List.all_eq_true.2 fun fragment hmem => ?_
      cases fragment with
      | text => rfl
      | splice tokens span => simpa [quoteFree] using hsplices tokens span ⟨fragments, hkind, hmem⟩
    case h_4 => rfl
  · intro h
    obtain ⟨hfeed, hkind⟩ := Bool.and_eq_true_iff.1 h
    refine ⟨fun hline => ?_, by simpa using hfeed, fun hblock => ?_, ?_⟩
    · rw [hline] at hkind
      cases hkind
    · rw [hblock] at hkind
      simpa [and_assoc] using hkind
    · rintro tokens span ⟨fragments, hinterpolated, hmem⟩
      rw [hinterpolated] at hkind
      simpa [quoteFree] using List.all_eq_true.1 hkind _ hmem

instance {t : Token} : Decidable t.Scannable := decidable_of_iff _ scannable_iff.symm

variable {m : Match}

@[simp] theorem text_ofMatch (read : Nat → List Char → Lexed) :
    (ofMatch read offset m).1.text = String.ofList m.text := rfl

@[simp] theorem span_ofMatch (read : Nat → List Char → Lexed) :
    (ofMatch read offset m).1.span = ⟨offset, offset + Source.byteLength m.text⟩ := rfl

/-- The tokens of a splice are among the fragments of the string. -/
theorem exists_mem_fragments {read : Nat → List Char → Lexed} {pieces : List Piece}
    {chars : List Char} {ended : Bool} (h : .splice chars ended ∈ pieces) :
    ∃ start span, .splice (read start chars).tokens span ∈ (fragments read offset pieces).1 := by
  induction pieces generalizing offset with
  | nil => cases h
  | cons piece pieces ih =>
    cases piece with
    | text inner =>
      have hmore := (List.mem_cons.1 h).resolve_left nofun
      obtain ⟨start, span, hmem⟩ := ih hmore
      exact ⟨start, span, List.mem_cons_of_mem _ hmem⟩
    | splice inner closed =>
      obtain hfirst | hmore := List.mem_cons.1 h
      · obtain ⟨rfl, -⟩ := Piece.splice.inj hfirst
        exact ⟨_, _, List.mem_cons_self⟩
      · obtain ⟨start, span, hmem⟩ := ih hmore
        exact ⟨start, span, List.mem_cons_of_mem _ hmem⟩

theorem quoteFree_of_scannable {body : List Char}
    (h : (ofMatch readAll offset (Match.interpolated body)).1.Scannable) :
    (interpolatedBody .text body).QuoteFree := by
  intro chars ended hmem hquote
  obtain ⟨start, span, hfragment⟩ : ∃ start span, .splice (readAll start chars).tokens span ∈
      (fragments readAll (offset + 2) (interpolatedBody .text body).pieces).1 :=
    exists_mem_fragments hmem
  have hsplice : (ofMatch readAll offset (Match.interpolated body)).1.HasSplice
      (readAll start chars).tokens span := ⟨_, rfl, hfragment⟩
  -- the characters of the splice are those of its tokens
  have htexts := (spells_readAll chars start (fun _ h => h)).flatMap_text
  rw [← htexts] at hquote
  obtain ⟨u, hu, hquote⟩ := List.mem_flatMap.1 hquote
  exact h.splices _ _ hsplice u hu hquote

/-! ## The scan, token by token -/

end Token

/-- What the scan, in a splice, makes of a token that `rest` follows: it passes over it, finds no end,
or takes the line feed behind the token for a hidden character in a string. -/
def PassesOver (depth : Nat) (cs rest : List Char) : Prop :=
  (Region.splice depth).behindBrace cs = (Region.splice depth).behindBrace rest ∨
    (Region.splice depth).behindBrace cs = none ∨
    ∃ more, rest = '\n' :: more ∧
      (Region.splice depth).behindBrace cs = (Region.quoted depth).behindBrace more

theorem ScansString.passesOver {closed : Bool} {text : List Char}
    (h : ScansString depth cs closed rest)
    (htext : (Region.splice depth).behindBrace text = (Region.quoted depth).behindBrace cs) :
    PassesOver depth text rest := by
  unfold ScansString at h
  unfold PassesOver
  rw [htext]
  split at h
  · exact .inl h
  · exact .inr h

/-- The scan passes over a token that does not deceive it and is no brace. -/
theorem passesOver_longest (hopen : c ≠ '{') (hclose : c ≠ '}')
    (h : (Token.ofMatch Token.readAll offset (Match.longest c cs)).1.Scannable) :
    PassesOver depth (c :: cs) (Match.longest c cs).rest := by
  obtain ⟨hsplit, hne⟩ := Match.splits_longest c cs
  have hfeed : '\n' ∉ (Match.longest c cs).text := by simpa using h.oneLine
  by_cases hquote : c = '"'
  · subst hquote
    exact (scansString_plainBody depth cs).passesOver rfl
  by_cases hstring : ∃ pieces closed, (Match.longest c cs).shape = .interpolated pieces closed
  · obtain ⟨pieces, closed, hshape⟩ := hstring
    obtain ⟨body, hbody, hlongest⟩ := Match.longest_eq_interpolated hshape
    rw [hlongest] at h ⊢
    rw [hbody]
    exact (scansString_interpolatedBody depth .text body nofun (Token.quoteFree_of_scannable h)).1.passesOver
      rfl
  · have hc : Source.steers c = false := by
      have hfirst : c ≠ '\n' := by
        rintro rfl
        obtain ⟨d, text, htext⟩ := List.exists_cons_of_ne_nil hne
        rw [htext] at hsplit
        exact hfeed (by rw [htext, (List.cons.inj hsplit).1]; exact List.mem_cons_self)
      simp [Source.steers, hquote, hopen, hclose, hfirst]
    have hline : (Match.longest c cs).shape ≠ .lineComment := by
      intro hshape
      exact h.not_lineComment (by simp [Token.ofMatch, Token.interpret, hshape])
    have hblock (closed : Bool) (hshape : (Match.longest c cs).shape = .blockComment closed) :
        ∀ x ∈ (Match.longest c cs).text, Source.steers x = false := by
      intro x hx
      have hkind : (Token.ofMatch Token.readAll offset (Match.longest c cs)).1.kind = .blockComment := by
        simp [Token.ofMatch, Token.interpret, hshape]
      obtain ⟨hquote, hopen, hclose⟩ := h.blockComment hkind x (by simpa using hx)
      have hinline : x ≠ '\n' := fun h => hfeed (h ▸ hx)
      simp [Source.steers, hquote, hopen, hclose, hinline]
    have hordinary := Match.ordinary_longest hc hfeed hline hblock
      fun pieces closed hshape => hstring ⟨pieces, closed, hshape⟩
    refine .inl ?_
    rw [← hsplit]
    exact Region.behindBrace_ordinary hordinary

namespace Token

theorem closingBrace?_cons {t : Token} {ts : List Token} (hopen : t.kind ≠ .symbol .leftBrace)
    (hclose : t.kind ≠ .symbol .rightBrace) :
    closingBrace? depth (t :: ts) = closingBrace? depth ts := by
  simp [closingBrace?, hclose]

theorem closingBrace?_append {brace : Token} {ts us : List Token}
    (h : closingBrace? depth ts = some brace) : closingBrace? depth (ts ++ us) = some brace := by
  fun_induction closingBrace? depth ts with
  | case1 => cases h
  | case2 t ts depth hkind ih =>
    simp only [List.cons_append, closingBrace?, hkind]
    exact ih h
  | case3 t ts hkind =>
    simp only [List.cons_append, closingBrace?, hkind]
    exact h
  | case4 t ts depth hkind ih =>
    simp only [List.cons_append, closingBrace?, hkind]
    exact ih h
  | case5 t ts depth hopen hclose hclose' ih =>
    have hbrace : t.kind ≠ .symbol .rightBrace := by
      intro hkind
      cases depth with
      | zero => exact hclose hkind rfl
      | succ depth => exact hclose' depth hkind rfl
    rw [List.cons_append, closingBrace?_cons hopen hbrace]
    exact ih h

end Token

/-! ## Braces -/

/-- The text of a symbol. -/
theorem Match.text_of_symbol {s : Symbol} (h : (longest c cs).shape = .symbol s) :
    (longest c cs).text = s.chars := by
  have hsymbol (c : Char) (cs : List Char) (h : (symbolOrUnknown c cs).shape = .symbol s) :
      (symbolOrUnknown c cs).text = s.chars := by
    unfold symbolOrUnknown at h ⊢
    split at h
    · rw [Shape.symbol.inj h]
    · cases h
  have hdecimal (cs : List Char) : (decimal cs).shape ≠ .symbol s := by
    unfold decimal
    split <;> (try split) <;> nofun
  revert h
  unfold longest
  split <;> (try split) <;> (try split) <;> (try split) <;>
    simp_all [run, string, interpolated]

/-- Only a symbol means one. -/
theorem Token.shape_of_kind_symbol {m : Match} {s : Symbol}
    (h : (ofMatch readAll offset m).1.kind = .symbol s) : m.shape = .symbol s := by
  have hword (word : String) : ofWord word ≠ .symbol s := by
    unfold ofWord
    split <;> (try split) <;> (try split) <;> nofun
  have hkind : (interpret readAll m ⟨offset, offset + Source.byteLength m.text⟩).1 = .symbol s := h
  unfold interpret at hkind
  split at hkind
  case h_4 _ hshape => rw [hshape, TokenKind.symbol.inj hkind]
  case h_5 => split at hkind <;> cases hkind
  case h_10 => exact absurd hkind (hword _)
  all_goals cases hkind

/-- The token of a text that starts with no brace is none. -/
theorem Token.kind_ofMatch_ne {s : Symbol} (hs : s.chars = [x]) (hc : c ≠ x) :
    (ofMatch readAll offset (Match.longest c cs)).1.kind ≠ .symbol s := by
  intro hkind
  have htext := Match.text_of_symbol (shape_of_kind_symbol hkind)
  obtain ⟨hsplit, -⟩ := Match.splits_longest c cs
  rw [htext, hs] at hsplit
  exact hc (List.cons.inj hsplit).1.symm

/-! ## Where the scan ends -/

theorem Region.byteLength_lt_of_behindBrace {r : Region} (h : r.behindBrace cs = some rest) :
    Source.byteLength rest < Source.byteLength cs := by
  obtain ⟨front, rfl, -⟩ := exists_append_of_behindBrace h
  have hbrace : Char.utf8Size '}' = 1 := rfl
  simp only [Source.byteLength_append, Source.byteLength_cons]
  omega

/-- A scan that goes on in a string behind a line feed gets there only if the token before ends where
the line does, and the white space behind it is in the way. -/
theorem Token.not_scannable_of_lineFeed {stop : Nat}
    (htokens : ∀ u ∈ (readAll offset ('\n' :: cs)).tokens, u.span.start < stop → u.Scannable) :
    stop ≤ offset := by
  have hread := readAll_cons offset '\n' cs
  obtain ⟨hsplit, hne⟩ := Match.splits_longest '\n' cs
  obtain ⟨d, text, htext⟩ := List.exists_cons_of_ne_nil hne
  rw [htext] at hsplit
  have hfeed : '\n' ∈ (Match.longest '\n' cs).text := by
    rw [htext, (List.cons.inj hsplit).1]
    exact List.mem_cons_self
  rw [← Nat.not_lt]
  intro hlt
  have hfirst := htokens (ofMatch readAll offset (Match.longest '\n' cs)).1
    (by rw [hread]; exact List.mem_cons_self) hlt
  exact hfirst.oneLine (by simpa using hfeed)

/-- The scan for the end of a splice ends at the first closing brace token that matches none before
it, if no token on the way deceives the scan. -/
theorem Token.closingBrace?_of_behindBrace {stop : Nat}
    (hscan : (Region.splice depth).behindBrace cs = some rest)
    (hstop : stop + 1 + Source.byteLength rest = offset + Source.byteLength cs)
    (htokens : ∀ u ∈ (readAll offset cs).tokens, u.span.start < stop → u.Scannable) :
    ∃ brace, closingBrace? depth (readAll offset cs).tokens = some brace ∧ brace.span.start = stop := by
  induction hlength : cs.length using Nat.strongRecOn generalizing cs offset depth with
  | ind length ih =>
    cases cs with
    | nil => cases hscan
    | cons c cs =>
      have hrest := Match.length_rest_longest c cs
      rw [List.length_cons] at hlength
      obtain ⟨hsplit, -⟩ := Match.splits_longest c cs
      have hread : (readAll offset (c :: cs)).tokens =
          (ofMatch readAll offset (Match.longest c cs)).1 ::
            (readAll (offset + Source.byteLength (Match.longest c cs).text)
              (Match.longest c cs).rest).tokens := by
        rw [readAll_cons]
        rfl
      have hbytes : Source.byteLength (c :: cs) = Source.byteLength (Match.longest c cs).text +
          Source.byteLength (Match.longest c cs).rest := by
        rw [← Source.byteLength_append, hsplit]
      rw [hread] at htokens ⊢
      obtain ⟨hfirst, hmore⟩ := List.forall_mem_cons.1 htokens
      by_cases hopen : c = '{'
      · subst hopen
        have hscan : (Region.splice (depth + 1)).behindBrace cs = some rest := hscan
        exact ih _ (by omega) hscan (by omega) hmore rfl
      by_cases hclose : c = '}'
      · subst hclose
        cases depth with
        | zero =>
          -- the brace that the scan ends at
          obtain rfl : cs = rest := Option.some.inj hscan
          refine ⟨_, rfl, ?_⟩
          have hbrace : Char.utf8Size '}' = 1 := rfl
          simp only [Source.byteLength_cons] at hstop
          show offset = stop
          omega
        | succ depth =>
          have hscan : (Region.splice depth).behindBrace cs = some rest := hscan
          exact ih _ (by omega) hscan (by omega) hmore rfl
      -- no brace: the brace that the scan ends at is in the rest
      have hbefore : offset < stop := by
        obtain ⟨front, hfront, -⟩ := Region.exists_append_of_behindBrace hscan
        cases front with
        | nil => exact absurd (List.cons.inj hfront).1 hclose
        | cons d front =>
          have hpos := d.utf8Size_pos
          have hbrace : Char.utf8Size '}' = 1 := rfl
          simp only [hfront, List.cons_append, Source.byteLength_cons, Source.byteLength_append] at hstop
          omega
      rw [closingBrace?_cons (kind_ofMatch_ne rfl hopen) (kind_ofMatch_ne rfl hclose)]
      have hpasses : PassesOver depth (c :: cs) (Match.longest c cs).rest :=
        passesOver_longest hopen hclose (hfirst hbefore)
      obtain hpassed | hnone | ⟨more, hfeed, hhidden⟩ := hpasses
      · exact ih _ (by omega) (hpassed ▸ hscan) (by omega) hmore rfl
      · exact absurd (hnone ▸ hscan) nofun
      · -- the scan is taken in by a backslash before the end of the line
        rw [hfeed] at hmore
        have hstopped := not_scannable_of_lineFeed hmore
        have hshort := Region.byteLength_lt_of_behindBrace (hhidden ▸ hscan)
        have hpos := Char.utf8Size_pos '\n'
        rw [hfeed, Source.byteLength_cons '\n' more] at hbytes
        omega

end ActorFrontend
