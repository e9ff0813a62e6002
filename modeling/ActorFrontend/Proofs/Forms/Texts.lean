import ActorFrontend.Proofs.Forms.Part
import ActorFrontend.Proofs.Splices.Places

/-!
# Texts in strings

The texts of an interpolated string are not empty, and there is a splice between any two of them.  This
holds of the strings in its splices as well.
-/

namespace ActorFrontend

/-- The text that the fragment is, if it is no splice. -/
def Fragment.text? : Fragment → Option String
  | .text value _ => some value
  | .splice _ _ => none

def Piece.isText : Piece → Bool
  | .text _ => true
  | .splice _ _ => false

/-! ## Pieces -/

/-- No two pieces of text stand next to each other. -/
def Piece.Apart (pieces : List Piece) : Prop :=
  pieces.IsChain fun p q => p.isText = false ∨ q.isText = false

namespace Body

variable {b : Body} {c : Char}

theorem apart_consText (h : Piece.Apart b.pieces) : Piece.Apart (b.consText c).pieces := by
  unfold consText
  split
  case h_1 chars pieces hpieces =>
    rw [hpieces] at h
    exact List.isChain_cons.2 (List.isChain_cons.1 h)
  case h_2 hpieces =>
    refine List.isChain_cons.2 ⟨fun q hq => ?_, h⟩
    cases q with
    | splice => exact .inr rfl
    | text chars =>
      -- the text would have been put into this piece
      obtain ⟨pieces, hcons⟩ := List.head?_eq_some_iff.1 hq
      exact absurd hcons (hpieces chars pieces)

theorem apart_consSplice (h : Piece.Apart b.pieces) : Piece.Apart (b.consSplice c).pieces := by
  unfold consSplice
  split
  case h_1 hpieces =>
    rw [hpieces] at h
    exact List.isChain_cons.2 (List.isChain_cons.1 h)
  case h_2 => exact h

theorem apart_endSplice {ended : Bool} (h : Piece.Apart b.pieces) :
    Piece.Apart (b.endSplice ended).pieces :=
  List.isChain_cons.2 ⟨fun _ _ => .inl rfl, h⟩

end Body

theorem apart_interpolatedBody (r : Region) (cs : List Char) :
    Piece.Apart (interpolatedBody r cs).pieces := by
  have hnil : Piece.Apart [] := .nil
  fun_induction interpolatedBody r cs with
  | case1 | case2 | case3 => exact hnil
  | case4 => exact Body.apart_consText hnil
  | case5 c cs hhidden ih => exact Body.apart_consText (Body.apart_consText ih)
  | case6 cs ih => exact ih
  | case7 c cs _ _ _ _ _ ih => exact Body.apart_consText ih
  | case8 | case9 | case15 | case16 => exact Body.apart_endSplice hnil
  | case12 cs ih => exact Body.apart_endSplice ih
  | case18 => exact Body.apart_consSplice (Body.apart_endSplice hnil)
  | case19 depth c cs ih => exact Body.apart_consSplice (Body.apart_consSplice ih)
  | case10 depth cs ih | case11 depth cs ih | case13 depth cs ih | case14 depth c cs _ _ _ _ _ ih
  | case17 depth cs ih | case20 depth c cs _ _ _ _ ih =>
    exact Body.apart_consSplice ih

/-! ## Fragments -/

/-- What a text is decoded to is not empty, for an invalid escape is kept as it is written. -/
theorem Escape.decode_ne_nil {interpolated : Bool} {offset : Nat} {cs : List Char} (h : cs ≠ []) :
    (decode interpolated offset cs).1 ≠ [] := by
  fun_cases decode interpolated offset cs <;> simp_all [Decoded.keep, Decoded.cons]

theorem textsApart_fragments {read : Nat → List Char → Lexed} {pieces : List Piece} {offset : Nat}
    (hapart : Piece.Apart pieces) (hnonempty : ∀ chars, .text chars ∈ pieces → chars ≠ []) :
    TextsApart ((Token.fragments read offset pieces).1.map Fragment.text?) := by
  induction pieces generalizing offset with
  | nil => exact ⟨nofun, .nil⟩
  | cons piece pieces ih =>
    obtain ⟨hfirst, hmore⟩ := List.isChain_cons.1 hapart
    have hnonempty' (chars : List Char) (h : .text chars ∈ pieces) : chars ≠ [] :=
      hnonempty chars (List.mem_cons_of_mem _ h)
    cases piece with
    | splice chars ended =>
      have ih (offset : Nat) : TextsApart ((Token.fragments read offset pieces).1.map Fragment.text?) :=
        ih hmore hnonempty'
      refine ⟨fun value hvalue => ?_, List.isChain_cons.2 ⟨fun _ _ => .inl rfl, (ih _).apart⟩⟩
      exact (ih _).nonempty value ((List.mem_cons.1 hvalue).resolve_left (by simp [Fragment.text?]))
    | text chars =>
      have ih : TextsApart ((Token.fragments read (offset + Source.byteLength chars) pieces).1.map
        Fragment.text?) := ih hmore hnonempty'
      refine ⟨fun value hvalue => ?_, List.isChain_cons.2 ⟨fun next hnext => .inr ?_, ih.apart⟩⟩
      · obtain hvalue | hvalue := List.mem_cons.1 hvalue
        · have hdecoded : (Escape.decode true offset chars).1 ≠ [] :=
            Escape.decode_ne_nil (hnonempty chars List.mem_cons_self)
          obtain rfl := Option.some.inj hvalue
          intro hempty
          exact hdecoded (by simpa using congrArg String.toList hempty)
        · exact ih.nonempty value hvalue
      · -- behind a text there is a splice
        cases pieces with
        | nil => cases hnext
        | cons piece pieces =>
          cases piece with
          | text inner =>
            obtain h | h := hfirst _ rfl
            · cases h
            · cases h
          | splice => exact (Option.some.inj hnext).symm

theorem Piece.WellCut.ne_nil {closed : Bool} {pieces : List Piece} {chars : List Char}
    (h : Piece.WellCut closed pieces) (hmem : .text chars ∈ pieces) : chars ≠ [] := by
  induction pieces with
  | nil => cases hmem
  | cons piece pieces ih =>
    cases piece with
    | text inner =>
      obtain hfirst | hmem := List.mem_cons.1 hmem
      · obtain rfl := Piece.text.inj hfirst
        exact h.1.1
      · exact ih h.2 hmem
    | splice inner ended => exact ih h.2 ((List.mem_cons.1 hmem).resolve_left (by simp))

/-! ## Tokens -/

namespace Token

variable {t u : Token} {ts : List Token}

/-- Every token of a text is made of the longest match at the head of some text. -/
theorem exists_match_of_mem {offset : Nat} {cs : List Char} (h : t ∈ (readAll offset cs).tokens) :
    ∃ start c cs', t = (ofMatch readAll start (Match.longest c cs')).1 := by
  induction hlength : cs.length using Nat.strongRecOn generalizing cs offset with
  | ind length ih =>
    cases cs with
    | nil => cases h
    | cons c cs =>
      have hrest := Match.length_rest_longest c cs
      rw [List.length_cons] at hlength
      rw [readAll_cons] at h
      obtain h | h := List.mem_cons.1 h
      · exact ⟨offset, c, cs, h⟩
      · exact ih _ (by omega) h rfl

theorem textsApart_of_mem {offset : Nat} {cs : List Char} {fragments : List Fragment}
    (h : t ∈ (readAll offset cs).tokens) (hkind : t.kind = .interpolated fragments) :
    TextsApart (fragments.map Fragment.text?) := by
  obtain ⟨start, c, cs, rfl⟩ := exists_match_of_mem h
  by_cases hshape : ∃ pieces closed, (Match.longest c cs).shape = .interpolated pieces closed
  · obtain ⟨pieces, closed, hshape⟩ := hshape
    obtain ⟨body, -, hlongest⟩ := Match.longest_eq_interpolated hshape
    rw [hlongest] at hkind
    have hfragments : (Token.fragments readAll (start + 2) (interpolatedBody .text body).pieces).1 =
        fragments := TokenKind.interpolated.inj hkind
    rw [← hfragments]
    refine textsApart_fragments (apart_interpolatedBody .text body) fun chars hmem => ?_
    exact (wellCut_interpolatedBody .text body).1.ne_nil hmem
  · exact absurd hkind (kind_interpret_ne (fun pieces closed h => hshape ⟨pieces, closed, h⟩) _)

/-- In the token, and in those in its splices at any depth, the texts of a string stand apart. -/
def SetsTextsApart (t : Token) : Prop :=
  ∀ u fragments, Occurs [t] u → u.kind = .interpolated fragments →
    TextsApart (fragments.map Fragment.text?)

theorem SetsTextsApart.splice {tokens : List Token} {span : Span} (h : t.SetsTextsApart)
    (hin : t.HasSplice tokens span) : ∀ u ∈ tokens, u.SetsTextsApart :=
  fun _ hu v fragments hv hkind => h v fragments
    (Occurs.through (.here List.mem_cons_self) hin (hv.mono (by simpa using hu))) hkind

theorem SetsTextsApart.textsApart {fragments : List Fragment} (h : t.SetsTextsApart)
    (hkind : t.kind = .interpolated fragments) : TextsApart (fragments.map Fragment.text?) :=
  h t fragments (.here List.mem_cons_self) hkind

theorem textsApart_tokenize (source : String) : ∀ t ∈ (tokenize source).tokens, t.SetsTextsApart := by
  intro t ht u fragments hu hkind
  have hu : Occurs (tokenize source).tokens u := hu.mono (by simpa using ht)
  cases hu with
  | here h =>
    rw [tokenize, Lexer.finish_ofSource] at h
    obtain h | h := List.mem_append.1 h
    · exact textsApart_of_mem h hkind
    · obtain rfl := List.mem_singleton.1 h
      cases hkind
  | inside houter hin hmem =>
    obtain ⟨cs, -, -, htokens, -, -⟩ := houter.splicedAt hin
    exact textsApart_of_mem (htokens ▸ hmem) hkind

end Token

end ActorFrontend
