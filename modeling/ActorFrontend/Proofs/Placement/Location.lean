import ActorFrontend.Grammar.Session
import ActorFrontend.Proofs.Lossless

/-!
# Where tokens stand

The tokens of a source stand in it one after another, and so do the fragments of an interpolated
string within the string and the tokens of a splice within the splice.
-/

namespace ActorFrontend

/-- A character of the text starts at byte `n`, or the text ends there. -/
def Source.Boundary (cs : List Char) (n : Nat) : Prop :=
  ∃ front back, cs = front ++ back ∧ Source.byteLength front = n

/-- The text stands in the source from `offset` on. -/
def Source.StandsAt (source : List Char) (offset : Nat) (text : List Char) : Prop :=
  ∃ front back, source = front ++ text ++ back ∧ Source.byteLength front = offset

mutual

/-- The token's span covers its text, and what it is made of stands within the span. -/
def Token.Located (source : List Char) : Token → Prop
  | ⟨kind, text, span⟩ =>
      Source.StandsAt source span.start text.toList ∧
        span.stop = span.start + Source.byteLength text.toList ∧ kind.Located source span

def TokenKind.Located (source : List Char) (span : Span) : TokenKind → Prop
  | .interpolated fragments => FragmentsAlong source span.start span.stop fragments
  | _ => True

/-- The splices among the fragments stand one after another between two offsets, each with its
tokens. -/
def FragmentsAlong (source : List Char) : Nat → Nat → List Fragment → Prop
  | lo, hi, [] => lo ≤ hi
  | lo, hi, .text _ _ :: fragments => FragmentsAlong source lo hi fragments
  | lo, hi, .splice tokens span :: fragments =>
      lo ≤ span.start ∧ Source.Boundary source span.stop ∧
        TokensAlong source span.start span.stop tokens ∧
        FragmentsAlong source span.stop hi fragments

/-- The tokens stand one after another between two offsets. -/
def TokensAlong (source : List Char) : Nat → Nat → List Token → Prop
  | lo, hi, [] => lo ≤ hi
  | lo, hi, t :: ts =>
      lo ≤ t.span.start ∧ t.Located source ∧ TokensAlong source t.span.stop hi ts

end

namespace Source

variable {source : List Char} {offset : Nat}

theorem Boundary.le_byteLength (h : Boundary source offset) : offset ≤ byteLength source := by
  obtain ⟨front, back, rfl, rfl⟩ := h
  simp

theorem StandsAt.boundary {text text' : List Char} (h : StandsAt source offset (text ++ text')) :
    Boundary source (offset + byteLength text) := by
  obtain ⟨front, back, rfl, rfl⟩ := h
  exact ⟨front ++ text, text' ++ back, by simp, by simp⟩

theorem StandsAt.boundary_start {text : List Char} (h : StandsAt source offset text) :
    Boundary source offset := by
  obtain ⟨front, back, rfl, rfl⟩ := h
  exact ⟨front, text ++ back, by simp, rfl⟩

theorem StandsAt.boundary_stop {text : List Char} (h : StandsAt source offset text) :
    Boundary source (offset + byteLength text) := by
  rw [← List.append_nil text] at h
  exact h.boundary

theorem StandsAt.left {text text' : List Char} (h : StandsAt source offset (text ++ text')) :
    StandsAt source offset text := by
  obtain ⟨front, back, rfl, rfl⟩ := h
  exact ⟨front, text' ++ back, by simp, rfl⟩

theorem StandsAt.right {text text' : List Char} (h : StandsAt source offset (text ++ text')) :
    StandsAt source (offset + byteLength text) text' := by
  obtain ⟨front, back, rfl, rfl⟩ := h
  exact ⟨front ++ text, back, by simp, by simp⟩

theorem standsAt_self (source : List Char) : StandsAt source 0 source := ⟨[], [], by simp, rfl⟩

end Source

open Source

variable {source : List Char}

theorem Token.located_iff {t : Token} :
    t.Located source ↔ StandsAt source t.span.start t.text.toList ∧
      t.span.stop = t.span.start + byteLength t.text.toList ∧ t.kind.Located source t.span := by
  obtain ⟨kind, text, span⟩ := t
  rfl

theorem Token.Located.start_le_stop {t : Token} (h : t.Located source) :
    t.span.start ≤ t.span.stop := by
  have hstop := (Token.located_iff.1 h).2.1
  omega

theorem Token.Located.boundary_start {t : Token} (h : t.Located source) :
    Boundary source t.span.start :=
  (Token.located_iff.1 h).1.boundary_start

theorem Token.Located.boundary_stop {t : Token} (h : t.Located source) :
    Boundary source t.span.stop := by
  obtain ⟨hs, hstop, -⟩ := Token.located_iff.1 h
  exact hstop ▸ hs.boundary_stop

theorem FragmentsAlong.mono {lo hi hi' : Nat} {fragments : List Fragment}
    (h : FragmentsAlong source lo hi fragments) (hle : hi ≤ hi') :
    FragmentsAlong source lo hi' fragments := by
  induction fragments generalizing lo with
  | nil => exact Nat.le_trans h hle
  | cons fragment fragments ih =>
    cases fragment with
    | text value span => exact ih h
    | splice tokens span => exact ⟨h.1, h.2.1, h.2.2.1, ih h.2.2.2⟩

theorem FragmentsAlong.lower {lo lo' hi : Nat} {fragments : List Fragment}
    (h : FragmentsAlong source lo hi fragments) (hle : lo' ≤ lo) :
    FragmentsAlong source lo' hi fragments := by
  induction fragments with
  | nil => exact Nat.le_trans hle h
  | cons fragment fragments ih =>
    cases fragment with
    | text value span => exact ih h
    | splice tokens span => exact ⟨Nat.le_trans hle h.1, h.2⟩

theorem TokensAlong.le {lo hi : Nat} {ts : List Token} (h : TokensAlong source lo hi ts) :
    lo ≤ hi := by
  induction ts generalizing lo with
  | nil => exact h
  | cons t ts ih => exact Nat.le_trans (Nat.le_trans h.1 h.2.1.start_le_stop) (ih h.2.2)

theorem FragmentsAlong.le {lo hi : Nat} {fragments : List Fragment}
    (h : FragmentsAlong source lo hi fragments) : lo ≤ hi := by
  induction fragments generalizing lo with
  | nil => exact h
  | cons fragment fragments ih =>
    cases fragment with
    | text value span => exact ih h
    | splice tokens span => exact Nat.le_trans h.1 (Nat.le_trans h.2.2.1.le (ih h.2.2.2))

theorem TokensAlong.lower {lo lo' hi : Nat} {ts : List Token} (h : TokensAlong source lo hi ts)
    (hle : lo' ≤ lo) : TokensAlong source lo' hi ts := by
  cases ts with
  | nil => exact Nat.le_trans hle h
  | cons t ts => exact ⟨Nat.le_trans hle h.1, h.2⟩

theorem TokensAlong.append {lo mid hi : Nat} {ts us : List Token}
    (h : TokensAlong source lo mid ts) (h' : TokensAlong source mid hi us) :
    TokensAlong source lo hi (ts ++ us) := by
  induction ts generalizing lo with
  | nil => exact h'.lower h
  | cons t ts ih => exact ⟨h.1, h.2.1, ih h.2.2⟩

/-! ## The tokens of a text -/

variable {errors : List LexicalError}

mutual

/-- Tokens that account for a text stand where the text does. -/
theorem Spells.along {offset : Nat} {cs : List Char} {ts : List Token}
    (h : Spells errors offset cs ts) (hs : StandsAt source offset cs) :
    TokensAlong source offset (offset + byteLength cs) ts := by
  match h with
  | .nil => exact Nat.le_refl _
  | @Spells.cons _ _ t cs ts _ _ hspan hspelled hrest =>
    have hstart : t.span.start = offset := by rw [hspan]
    have hstop : t.span.stop = offset + byteLength t.text.toList := by rw [hspan]
    have htext : StandsAt source t.span.start t.text.toList := by rw [hstart]; exact hs.left
    have hlength : t.span.stop = t.span.start + byteLength t.text.toList := by rw [hstop, hstart]
    -- the first token stands at the front of the text, the others behind it
    have ih := hrest.along (by rw [hstop]; exact hs.right)
    refine ⟨by rw [hstart], Token.located_iff.2 ⟨htext, hlength, hspelled.located htext hlength⟩, ?_⟩
    rwa [byteLength_append, ← Nat.add_assoc, ← hstop]

theorem SpelledOut.located {rest : List Char} {t : Token} (h : SpelledOut errors rest t)
    (hs : StandsAt source t.span.start t.text.toList)
    (hstop : t.span.stop = t.span.start + byteLength t.text.toList) :
    t.kind.Located source t.span := by
  match h with
  | .plain hkind =>
    unfold TokenKind.Located
    split
    case h_1 fragments hfragments => exact (hkind fragments hfragments).elim
    case h_2 => trivial
  | @SpelledOut.interpolated _ _ _ body closed fragments hkind htext _ hbody =>
    have hs : StandsAt source t.span.start (['f', '"'] ++ body ++ closing '"' closed) := by
      simpa [htext] using hs
    have ih := hbody.along hs.left.right
    rw [hkind]
    -- the body stands behind the two characters that open the string, within the token
    have hlength : t.span.start + 2 + byteLength body ≤ t.span.stop := by
      have hopening : Char.utf8Size 'f' = 1 ∧ Char.utf8Size '"' = 1 := ⟨rfl, rfl⟩
      rw [hstop, htext]
      simp only [List.cons_append, byteLength_append, byteLength_cons]
      omega
    exact (ih.lower (Nat.le_add_right _ _)).mono hlength

theorem SpellsBody.along {closed : Bool} {offset : Nat} {cs : List Char}
    {fragments : List Fragment} (h : SpellsBody errors closed offset cs fragments)
    (hs : StandsAt source offset cs) :
    FragmentsAlong source offset (offset + byteLength cs) fragments := by
  match h with
  | .nil => exact Nat.le_refl _
  | @SpellsBody.text _ _ _ chars cs _ _ _ hrest =>
    have ih := hrest.along hs.right
    rw [byteLength_append, ← Nat.add_assoc]
    exact ih.lower (Nat.le_add_right _ _)
  | @SpellsBody.splice _ _ _ chars cs _ _ hspells hrest =>
    have hs : StandsAt source offset (['{'] ++ chars ++ (['}'] ++ cs)) := by simpa using hs
    -- one brace stands before the tokens of the splice and one behind them
    have hinner := hspells.along hs.left.right
    have hbrace : Char.utf8Size '{' = 1 ∧ Char.utf8Size '}' = 1 := ⟨rfl, rfl⟩
    have ih := hrest.along (by simpa [hbrace, Nat.add_assoc] using hs.right.right)
    refine ⟨Nat.le_add_right _ _, hs.left.right.boundary_stop, hinner, ?_⟩
    apply (ih.lower (Nat.le_add_right _ _)).mono
    simp only [List.cons_append, byteLength_cons, byteLength_append]
    omega
  | @SpellsBody.openSplice _ _ chars _ _ hspells =>
    have hs : StandsAt source offset (['{'] ++ chars) := hs
    have hbrace : Char.utf8Size '{' = 1 := rfl
    refine ⟨Nat.le_add_right _ _, hs.right.boundary_stop, hspells.along hs.right, ?_⟩
    simp only [FragmentsAlong, byteLength_cons]
    omega

end

/-! ## The tokens still to be read -/

/-- The span is made of whole characters of the source. -/
structure Span.Placed (source : List Char) (span : Span) : Prop where
  start_le_stop : span.start ≤ span.stop
  boundary_start : Boundary source span.start
  boundary_stop : Boundary source span.stop

/-- A place between two characters. -/
theorem Span.placed_empty {offset : Nat} (h : Boundary source offset) :
    (Span.empty offset).Placed source := ⟨Nat.le_refl _, h, h⟩

/-- The token read last ended, and the input ends, where characters do; the tokens in between stand
one after another.  What errors have been recorded are placed. -/
structure State.Located (source : List Char) (setting : Setting) (s : State) : Prop where
  behind : Boundary source s.previousEnd
  ahead : TokensAlong source s.previousEnd setting.endOfInput.start (s.rest.map Lexeme.token)
  boundary_stop : Boundary source setting.endOfInput.start
  stop_eq : setting.endOfInput.stop = setting.endOfInput.start
  errors : ∀ e ∈ s.errors, e.span.Placed source

namespace State.Located

variable {setting : Setting} {s : State}

theorem previousEnd_le_start (h : s.Located source setting) :
    s.previousEnd ≤ (s.span setting).start := by
  have hahead := h.ahead
  unfold State.span
  split
  case h_1 hrest => simpa [hrest, TokensAlong] using hahead
  case h_2 lexeme rest hrest =>
    rw [hrest] at hahead
    exact hahead.1

theorem start_le_stop (h : s.Located source setting) :
    (s.span setting).start ≤ (s.span setting).stop := by
  have hahead := h.ahead
  unfold State.span
  split
  case h_1 => exact Nat.le_of_eq h.stop_eq.symm
  case h_2 lexeme rest hrest =>
    rw [hrest] at hahead
    exact hahead.2.1.start_le_stop

theorem boundary_span (h : s.Located source setting) :
    Boundary source (s.span setting).start ∧ Boundary source (s.span setting).stop := by
  have hahead := h.ahead
  unfold State.span
  split
  case h_1 => exact ⟨h.boundary_stop, h.stop_eq ▸ h.boundary_stop⟩
  case h_2 lexeme rest hrest =>
    rw [hrest] at hahead
    exact ⟨hahead.2.1.boundary_start, hahead.2.1.boundary_stop⟩

theorem placed_span (h : s.Located source setting) : (s.span setting).Placed source :=
  ⟨h.start_le_stop, h.boundary_span.1, h.boundary_span.2⟩

/-- The token at hand stands where its span says; at the end an empty text does. -/
theorem standsAt (h : s.Located source setting) :
    StandsAt source (s.span setting).start s.text.toList ∧
      (s.span setting).stop = (s.span setting).start + byteLength s.text.toList := by
  have hahead := h.ahead
  unfold State.span State.text
  split
  case h_1 =>
    obtain ⟨front, back, hsource, hlength⟩ := h.boundary_stop
    exact ⟨⟨front, back, by simpa using hsource, hlength⟩, by simpa using h.stop_eq⟩
  case h_2 lexeme rest hrest =>
    rw [hrest] at hahead
    have hlocated := Token.located_iff.1 hahead.2.1
    exact ⟨hlocated.1, hlocated.2.1⟩

/-- The splices of an interpolated string at hand stand within it. -/
theorem fragmentsAlong (h : s.Located source setting) {fragments : List Fragment}
    (hkind : s.kind = .interpolated fragments) :
    FragmentsAlong source (s.span setting).start (s.span setting).stop fragments := by
  have hahead := h.ahead
  unfold State.kind at hkind
  unfold State.span
  split
  case h_1 hrest => simp [hrest] at hkind
  case h_2 lexeme rest hrest =>
    rw [hrest] at hahead hkind
    have hlocated := (Token.located_iff.1 hahead.2.1).2.2
    simp only at hkind
    rw [hkind] at hlocated
    exact hlocated

theorem advance (h : s.Located source setting) : s.advance.Located source setting := by
  unfold State.advance
  split
  case h_1 => exact h
  case h_2 lexeme rest hrest =>
    have hahead := h.ahead
    rw [hrest] at hahead
    exact ⟨hahead.2.1.boundary_stop, hahead.2.2, h.boundary_stop, h.stop_eq, h.errors⟩

/-- An error that is placed may be recorded. -/
theorem errors_record (h : ∀ e ∈ s.errors, e.span.Placed source) {error : ParseError}
    (herror : error.span.Placed source) :
    ∀ e ∈ (s.record setting error).errors, e.span.Placed source := by
  unfold State.record
  split
  · exact h
  · intro e he
    obtain he | he := List.mem_append.1 he
    · exact h e he
    · rw [List.mem_singleton.1 he]
      exact herror

theorem le_advance (h : s.Located source setting) :
    s.previousEnd ≤ s.advance.previousEnd ∧
      (s.span setting).start ≤ (s.advance.span setting).start := by
  have hnext := h.advance.previousEnd_le_start
  have hstart := h.previousEnd_le_start
  have hstop := h.start_le_stop
  unfold State.advance State.span at *
  split <;> simp_all
  omega

end State.Located

/-- The token at hand becomes the one read last when it is passed over. -/
theorem State.span_stop_advance {setting : Setting} {s : State} (hkind : s.kind ≠ .endOfFile) :
    s.advance.previousEnd = (s.span setting).stop := by
  unfold State.kind at hkind
  unfold State.span State.advance
  split
  case h_1 hrest => simp [hrest] at hkind
  case h_2 => rfl

/-! ## The start of a reading -/

theorem TokensAlong.significant {lo hi : Nat} {ts : List Token} (h : TokensAlong source lo hi ts)
    (lineBreak : Bool) :
    TokensAlong source lo hi ((Lexeme.significant lineBreak ts).map Lexeme.token) := by
  induction ts generalizing lo lineBreak with
  | nil => exact h
  | cons t ts ih =>
    obtain ⟨hlo, ht, hts⟩ := h
    have hskip : TokensAlong source lo hi ts :=
      hts.lower (Nat.le_trans hlo ht.start_le_stop)
    unfold Lexeme.significant
    split
    -- what is skipped leaves the tokens behind it where they are
    · exact ih hskip _
    · split
      · exact hskip.le
      · exact ⟨hlo, ht, ih hts _⟩

/-- A reading of tokens that stand one after another up to the end of the input. -/
theorem State.located_initial {setting : Setting} {lo : Nat} {ts : List Token}
    (h : TokensAlong source lo setting.endOfInput.start ts)
    (hboundary : Boundary source setting.endOfInput.start)
    (hstop : setting.endOfInput.stop = setting.endOfInput.start) :
    (State.initial setting (Lexeme.significant false ts)).Located source setting := by
  have hahead := h.significant false
  unfold State.initial
  -- the reading starts where its first token does, which may be behind `lo`
  cases hrest : Lexeme.significant false ts with
  | nil => exact ⟨hboundary, Nat.le_refl _, hboundary, hstop, nofun⟩
  | cons lexeme rest =>
    rw [hrest] at hahead
    exact ⟨hahead.2.1.boundary_start, ⟨Nat.le_refl _, hahead.2⟩, hboundary, hstop, nofun⟩

/-- A session that reads a source is to start at its first token. -/
theorem Session.located_ofTokens_tokenize (source : String) (limits : Limits) :
    let session := Session.ofTokens (tokenize source).tokens limits
    session.state.Located source.toList session.setting ∧
      session.setting.endOfInput = .empty (byteLength source.toList) := by
  have hspells := spells_readAll source.toList 0 (List.Subset.refl _)
  have hself := standsAt_self source.toList
  have hend : Boundary source.toList (byteLength source.toList) := by
    simpa using hself.boundary_stop
  have halong := hspells.along hself
  rw [Nat.zero_add] at halong
  have htokens : (tokenize source).tokens =
      (Token.readAll 0 source.toList).tokens ++ [Token.endAt (byteLength source.toList)] := by
    simp [tokenize, Lexer.finish, Lexer.drain, Lexer.ofSource]
  -- no token before the last one is the end of the file, so the session ends where that one stands
  have hendOf : Session.endOf (tokenize source).tokens = .empty (byteLength source.toList) := by
    have hnone : (Token.readAll 0 source.toList).tokens.find? (·.kind.isEndOfFile) = none := by
      simpa using hspells.isEndOfFile_kind
    rw [Session.endOf, htokens, List.find?_append, hnone]
    rfl
  have hlast : TokensAlong source.toList (byteLength source.toList) (byteLength source.toList)
      [Token.endAt (byteLength source.toList)] :=
    ⟨Nat.le_refl _, ⟨⟨source.toList, [], by simp, rfl⟩, rfl, trivial⟩, Nat.le_refl _⟩
  have hwhole : TokensAlong source.toList 0 (Session.endOf (tokenize source).tokens).start
      (tokenize source).tokens := by
    rw [hendOf, htokens]
    exact halong.append hlast
  have hboundary : Boundary source.toList (Session.endOf (tokenize source).tokens).start := by
    rwa [hendOf]
  have hstop : (Session.endOf (tokenize source).tokens).stop =
      (Session.endOf (tokenize source).tokens).start := by
    rw [hendOf, Span.empty]
  exact ⟨State.located_initial hwhole hboundary hstop, hendOf⟩

end ActorFrontend
