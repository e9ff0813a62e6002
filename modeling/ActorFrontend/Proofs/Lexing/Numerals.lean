import ActorFrontend.Proofs.Lexing.Boundary
import Mathlib.Data.List.TakeWhile
import Mathlib.Data.Nat.Digits.Defs
import Mathlib.Tactic.IntervalCases
import Mathlib.Tactic.Ring

/-!
# Integers read exactly

What the body of an integer literal denotes is said here without a reader: the digits that its
characters write, and the number that has these digits.  The reader finds this number where it
fits 64 bits, and nothing anywhere else.
-/

namespace ActorFrontend

namespace Radix

variable {r : Radix} {c : Char} {cs body : List Char} {d v : Nat} {ds : List Nat}

/-- The characters write the digits `ds` of the radix, letters in either case. -/
def Writes (r : Radix) (cs : List Char) (ds : List Nat) : Prop :=
  (∀ d ∈ ds, d < r.base) ∧ cs.map Char.toLower = ds.map Nat.digitChar

/-- The number that the body of a literal denotes: it starts with a digit, and without its
underscores it writes the digits of `v`, with as many zeros in front as may be. -/
def Denotes (r : Radix) (body : List Char) (v : Nat) : Prop :=
  body.head? ≠ some '_' ∧ body.filter (· ≠ '_') ≠ [] ∧
    ∃ ds, r.Writes (body.filter (· ≠ '_')) ds ∧ Nat.ofDigits r.base ds.reverse = v

/-- What stands in front of the digits of a literal. -/
inductive Mark : Radix → List Char → Prop where
  | decimal : Mark .decimal []
  | hexadecimal {x : Char} (h : x = 'x' ∨ x = 'X') : Mark .hexadecimal ['0', x]
  | binary {b : Char} (h : b = 'b' ∨ b = 'B') : Mark .binary ['0', b]

/-! ## Digits -/

/-- The characters from one code to another, one by one. -/
theorem forall_char_of_forall {p : Char → Prop} (lo hi : Nat)
    (h : ∀ n, lo ≤ n → n ≤ hi → p (Char.ofNat n)) (hlo : lo ≤ c.toNat) (hhi : c.toNat ≤ hi) : p c := by
  have hc := h c.toNat hlo hhi
  rwa [Char.ofNat_toNat] at hc

theorem hexValue?_toLower (c : Char) : hexValue? c.toLower = hexValue? c := by
  by_cases h : 'A' ≤ c ∧ c ≤ 'Z'
  · have hlo : 65 ≤ c.toNat := h.1
    have hhi : c.toNat ≤ 90 := h.2
    refine forall_char_of_forall (p := fun c => hexValue? c.toLower = hexValue? c) 65 90 ?_ hlo hhi
    intro n hlo hhi
    interval_cases n <;> rfl
  · have hsame : c.toLower = c := dif_neg h
    rw [hsame]

/-- The codes of the hexadecimal digits. -/
theorem toNat_of_hexValue? (h : hexValue? c = some d) : (48 ≤ c.toNat ∧ c.toNat ≤ 57) ∨
    (97 ≤ c.toNat ∧ c.toNat ≤ 102) ∨ (65 ≤ c.toNat ∧ c.toNat ≤ 70) := by
  by_contra hno
  simp only [not_or] at hno
  have hnone : hexValue? c = none := by
    rw [hexValue?, if_neg (show ¬('0' ≤ c ∧ c ≤ '9') from hno.1),
      if_neg (show ¬('a' ≤ c ∧ c ≤ 'f') from hno.2.1),
      if_neg (show ¬('A' ≤ c ∧ c ≤ 'F') from hno.2.2)]
  rw [hnone] at h
  cases h

theorem hexValue?_eq_some_iff : hexValue? c = some d ↔ d < 16 ∧ c.toLower = Nat.digitChar d := by
  constructor
  · intro h
    -- the characters of each range with their values
    have hcheck (lo hi : Nat) (hall : ∀ n, lo ≤ n → n ≤ hi → ∀ d, hexValue? (Char.ofNat n) = some d →
        d < 16 ∧ (Char.ofNat n).toLower = Nat.digitChar d) (hlo : lo ≤ c.toNat) (hhi : c.toNat ≤ hi) :
        d < 16 ∧ c.toLower = Nat.digitChar d :=
      forall_char_of_forall (p := fun c => ∀ d, hexValue? c = some d →
        d < 16 ∧ c.toLower = Nat.digitChar d) lo hi hall hlo hhi d h
    rcases toNat_of_hexValue? h with ⟨hlo, hhi⟩ | ⟨hlo, hhi⟩ | ⟨hlo, hhi⟩
    all_goals
      refine hcheck _ _ (fun n hlo hhi d hd => ?_) hlo hhi
      interval_cases n <;> (obtain rfl := Option.some.inj hd; decide)
  · intro ⟨hd, hc⟩
    rw [← hexValue?_toLower, hc]
    interval_cases d <;> rfl

theorem base_le (r : Radix) : r.base ≤ 16 := by cases r <;> decide

theorem one_lt_base (r : Radix) : 1 < r.base := by cases r <;> decide

theorem digit?_eq_some_iff : r.digit? c = some d ↔ d < r.base ∧ c.toLower = Nat.digitChar d := by
  have hbase := r.base_le
  rw [digit?, Option.filter_eq_some_iff, hexValue?_eq_some_iff]
  simp only [decide_eq_true_eq]
  constructor
  · intro h
    exact ⟨h.2, h.1.2⟩
  · intro h
    exact ⟨⟨by omega, h.2⟩, h.1⟩

theorem writes_cons_iff : r.Writes (c :: cs) ds ↔
    ∃ d rest, ds = d :: rest ∧ r.digit? c = some d ∧ r.Writes cs rest := by
  cases ds with
  | nil => simp [Writes]
  | cons d rest =>
    simp only [digit?_eq_some_iff, Writes, List.map_cons, List.cons.injEq, List.forall_mem_cons]
    constructor
    · intro h
      exact ⟨d, rest, ⟨rfl, rfl⟩, ⟨h.1.1, h.2.1⟩, h.1.2, h.2.2⟩
    · intro ⟨d', rest', ⟨hd, hrest⟩, hc, hcs⟩
      subst hd hrest
      exact ⟨⟨hc.1, hcs.1⟩, hc.2, hcs.2⟩

/-- The value of a run of digits is that of the number they write behind what was read before. -/
theorem valueFrom?_eq_some_iff {value : Nat} : r.valueFrom? value cs = some v ↔
    ∃ ds, r.Writes cs ds ∧
      value * r.base ^ ds.length + Nat.ofDigits r.base ds.reverse = v := by
  induction cs generalizing value with
  | nil =>
    have hnil : ∀ ds, r.Writes [] ds ↔ ds = [] := fun ds => by
      cases ds <;> simp [Writes]
    simp [valueFrom?, hnil]
  | cons c cs ih =>
    simp only [valueFrom?, Option.bind_eq_some_iff, ih, writes_cons_iff]
    have hstep (d : Nat) (rest : List Nat) :
        value * r.base ^ (d :: rest).length + Nat.ofDigits r.base (d :: rest).reverse =
          (value * r.base + d) * r.base ^ rest.length + Nat.ofDigits r.base rest.reverse := by
      rw [List.length_cons, List.reverse_cons, Nat.ofDigits_append, Nat.ofDigits_singleton,
        List.length_reverse]
      ring
    constructor
    · intro ⟨d, hd, rest, hrest, hv⟩
      exact ⟨d :: rest, ⟨d, rest, rfl, hd, hrest⟩, by rw [hstep, hv]⟩
    · intro ⟨ds, ⟨d, rest, hds, hd, hrest⟩, hv⟩
      subst hds
      exact ⟨d, hd, rest, hrest, by rw [← hstep, hv]⟩

/-- The reader finds the number that a body denotes, if it fits 64 bits. -/
theorem read?_eq_some_iff {value : UInt64} :
    r.read? body = some value ↔ r.Denotes body value.toNat := by
  have hvalue (n : Nat) : r.valueFrom? 0 (body.filter (· ≠ '_')) = some n ↔
      ∃ ds, r.Writes (body.filter (· ≠ '_')) ds ∧ Nat.ofDigits r.base ds.reverse = n := by
    rw [valueFrom?_eq_some_iff]
    simp only [Nat.zero_mul, Nat.zero_add]
  have hfits := value.toNat_lt_size
  unfold read?
  by_cases hstart : body.head? = some '_' ∨ body.filter (· ≠ '_') = []
  · rw [if_pos hstart]
    constructor
    · intro h
      cases h
    · intro h
      exact absurd hstart (not_or.2 ⟨h.1, h.2.1⟩)
  · rw [if_neg hstart]
    simp only [Option.bind_eq_some_iff, hvalue, Option.ite_none_right_eq_some, Option.some.injEq]
    constructor
    · intro ⟨n, hn, hlt, heq⟩
      have htoNat : value.toNat = n := by
        rw [← heq, UInt64.toNat_ofNat_of_lt' hlt]
      rw [htoNat]
      exact ⟨(not_or.1 hstart).1, (not_or.1 hstart).2, hn⟩
    · intro h
      exact ⟨value.toNat, h.2.2, hfits, UInt64.ofNat_toNat⟩

/-- The usual digits of a number denote it, behind any zeros. -/
theorem exists_writes_toDigits (r : Radix) (zeros v : Nat) :
    ∃ ds : List Nat, (∀ d ∈ ds, d < r.base) ∧
      List.replicate zeros '0' ++ Nat.toDigits r.base v = ds.map Nat.digitChar ∧
      Nat.ofDigits r.base ds.reverse = v := by
  have hbase := r.one_lt_base
  induction v using Nat.strongRecOn with
  | ind v ih =>
    rw [Nat.toDigits_eq_if hbase]
    by_cases hv : v < r.base
    · refine ⟨List.replicate zeros 0 ++ [v], ?_, ?_, ?_⟩
      · intro d hd
        rcases List.mem_append.1 hd with hd | hd
        · rw [(List.mem_replicate.1 hd).2]
          omega
        · rwa [List.mem_singleton.1 hd]
      · rw [if_pos hv, List.map_append, List.map_replicate]
        rfl
      · rw [List.reverse_append, List.reverse_replicate, Nat.ofDigits_append_replicate_zero]
        exact Nat.ofDigits_singleton
    · obtain ⟨ds, hds, hchars, hnumber⟩ := ih (v / r.base) (Nat.div_lt_self (by omega) hbase)
      refine ⟨ds ++ [v % r.base], ?_, ?_, ?_⟩
      · intro d hd
        rcases List.mem_append.1 hd with hd | hd
        · exact hds d hd
        · rw [List.mem_singleton.1 hd]
          exact Nat.mod_lt v (by omega)
      · rw [if_neg hv, ← List.append_assoc, hchars, List.map_append]
        rfl
      · rw [List.reverse_append, List.reverse_singleton, List.singleton_append, Nat.ofDigits_cons,
          hnumber]
        exact Nat.mod_add_div v r.base

/-- A body that starts with a digit and spells out a number, underscores aside. -/
theorem denotes_of_toDigits {zeros : Nat} (hstart : body.head? ≠ some '_')
    (h : (body.filter (· ≠ '_')).map Char.toLower =
      List.replicate zeros '0' ++ Nat.toDigits r.base v) : r.Denotes body v := by
  obtain ⟨ds, hds, hchars, hnumber⟩ := exists_writes_toDigits r zeros v
  have hdigits : Nat.toDigits r.base v ≠ [] := Nat.toDigits_ne_nil
  refine ⟨hstart, ?_, ds, ⟨hds, h.trans hchars⟩, hnumber⟩
  intro hnil
  rw [hnil, List.map_nil] at h
  exact hdigits (List.append_eq_nil_iff.1 h.symm).2

/-- The characters that the body of a literal goes on with. -/
def goesOn (r : Radix) (c : Char) : Bool :=
  match r with
  | .hexadecimal => Match.isHexOrUnderscore c
  | .decimal | .binary => Match.isDigitOrUnderscore c

theorem isDigit_of_hexValue? (h : hexValue? c = some d) (hd : d < 10) : c.isDigit = true := by
  unfold hexValue? at h
  split at h
  case isTrue hc =>
    exact Bool.and_eq_true_iff.2 ⟨decide_eq_true hc.1, decide_eq_true hc.2⟩
  case isFalse =>
    split at h
    case isTrue =>
      have hval := Option.some.inj h
      omega
    case isFalse =>
      split at h
      case isTrue =>
        have hval := Option.some.inj h
        omega
      case isFalse => cases h

/-- A digit of the radix does not end the body of a literal. -/
theorem goesOn_of_digit? (h : r.digit? c = some d) : r.goesOn c = true := by
  have hd : d < r.base := (digit?_eq_some_iff.1 h).1
  have hvalue : hexValue? c = some d := (Option.filter_eq_some_iff.1 h).1
  have hdecimal (h10 : d < 10) : Match.isDigitOrUnderscore c = true := by
    rw [Match.isDigitOrUnderscore, isDigit_of_hexValue? hvalue h10, Bool.true_or]
  cases r with
  | binary => exact hdecimal (Nat.lt_trans hd (by decide))
  | decimal => exact hdecimal hd
  | hexadecimal =>
    show (Option.isSome (hexValue? c) || c == '_') = true
    rw [hvalue, Option.isSome_some, Bool.true_or]

/-- Every character of a body that denotes a number is an underscore or a digit. -/
theorem goesOn_of_denotes (h : r.Denotes body v) : ∀ c ∈ body, r.goesOn c = true := by
  obtain ⟨-, -, ds, hds, -⟩ := h
  intro c hc
  by_cases hline : c = '_'
  · subst hline
    cases r <;> rfl
  · have hmem : c ∈ body.filter (· ≠ '_') := List.mem_filter.2 ⟨hc, decide_eq_true hline⟩
    have hlower : c.toLower ∈ ds.map Nat.digitChar := hds.2 ▸ List.mem_map_of_mem hmem
    obtain ⟨d, hd, hdc⟩ := List.mem_map.1 hlower
    exact goesOn_of_digit? (digit?_eq_some_iff.2 ⟨hds.1 d hd, hdc.symm⟩)

/-- White space ends the body of a literal. -/
theorem goesOn_of_isBlank (h : Match.isBlank c = true) : r.goesOn c = false := by
  simp only [Match.isBlank, Bool.or_eq_true, beq_iff_eq, or_assoc] at h
  rcases h with rfl | rfl | rfl | rfl | rfl <;> cases r <;> rfl

/-- The first character is a digit. -/
theorem head_of_denotes (h : r.Denotes (c :: cs) v) : ∃ d, r.digit? c = some d := by
  obtain ⟨hstart, -, ds, hds, -⟩ := h
  have hc : c ≠ '_' := fun hc => hstart (congrArg some hc)
  rw [List.filter_cons_of_pos (p := fun c => decide (c ≠ '_')) (decide_eq_true hc)] at hds
  obtain ⟨d, -, -, hd, -⟩ := writes_cons_iff.1 hds
  exact ⟨d, hd⟩

end Radix

namespace Match

variable {r : Radix} {c : Char} {cs body mark : List Char} {v : Nat}

/-- An integer literal is its body behind the mark of its radix. -/
def Marked (m : Match) : Prop :=
  ∀ r body, m.shape = .integer r body → ∃ mark, r.Mark mark ∧ m.text = mark ++ body

theorem marked_run {mark : List Char} (h : r.Mark mark) (p : Char → Bool) (cs : List Char) :
    (run (.integer r) mark p cs).Marked := by
  intro r' body hshape
  cases hshape
  exact ⟨mark, h, rfl⟩

theorem marked_symbolOrUnknown (c : Char) (cs : List Char) : (symbolOrUnknown c cs).Marked := by
  intro r body hshape
  unfold symbolOrUnknown at hshape
  split at hshape <;> cases hshape

theorem marked_decimal (cs : List Char) : (decimal cs).Marked := by
  unfold decimal
  split
  case h_1 =>
    split <;> intro r body hshape <;> cases hshape
    exact ⟨[], .decimal, rfl⟩
  case h_2 =>
    intro r body hshape
    cases hshape
    exact ⟨[], .decimal, rfl⟩

theorem marked_longest (c : Char) (cs : List Char) : (longest c cs).Marked := by
  unfold longest
  split
  case h_1 | h_2 | h_3 | h_4 =>
    intro r body hshape
    cases hshape
  case h_5 => exact marked_run (.hexadecimal (.inl rfl)) _ _
  case h_6 => exact marked_run (.hexadecimal (.inr rfl)) _ _
  case h_7 => exact marked_run (.binary (.inl rfl)) _ _
  case h_8 => exact marked_run (.binary (.inr rfl)) _ _
  case h_9 =>
    split
    · intro r body hshape
      cases hshape
    · exact marked_symbolOrUnknown _ _
  case h_10 =>
    split
    case isTrue =>
      intro r body hshape
      cases hshape
    case isFalse =>
      split
      case isTrue => exact marked_decimal _
      case isFalse =>
        split
        case isTrue =>
          intro r body hshape
          cases hshape
        case isFalse => exact marked_symbolOrUnknown _ _

/-- A digit starts a number in decimal, unless the letter of another radix stands behind it. -/
theorem longest_of_isDigit (hc : c.isDigit = true)
    (hcs : ∀ x more, cs = x :: more → x ∉ ['x', 'X', 'b', 'B']) :
    longest c cs = decimal (c :: cs) := by
  have hother {d : Char} (hd : d.isDigit = false) : c ≠ d := fun h => by
    rw [h, hd] at hc
    cases hc
  have hletter {x : Char} {more : List Char} (hx : x ∈ ['x', 'X', 'b', 'B']) : cs ≠ x :: more :=
    fun h => hcs x more h hx
  unfold longest
  split
  case h_1 | h_2 | h_3 | h_4 | h_9 => exact absurd rfl (hother (by decide))
  case h_5 | h_6 | h_7 | h_8 => exact absurd rfl (hletter (by decide))
  case h_10 =>
    have hblank : ¬isBlank c = true := by
      simp only [isBlank, Bool.or_eq_true, beq_iff_eq, not_or]
      exact ⟨⟨⟨⟨hother (by decide), hother (by decide)⟩, hother (by decide)⟩, hother (by decide)⟩,
        hother (by decide)⟩
    rw [if_neg hblank, if_pos hc]

/-- A text that is a mark and the body of a number is one literal as a whole, at the end and where white
space follows. -/
theorem longest_of_denotes_blank {rest : List Char} (hmark : r.Mark mark) (hbody : r.Denotes body v)
    (h : c :: cs = mark ++ body ++ rest) (hrest : ∀ d more, rest = d :: more → isBlank d = true) :
    longest c cs = ⟨.integer r body, mark ++ body, rest⟩ := by
  have hall := Radix.goesOn_of_denotes hbody
  have hstop : (body ++ rest).takeWhile r.goesOn = body ∧ (body ++ rest).dropWhile r.goesOn = rest := by
    rw [List.takeWhile_append_of_pos hall, List.dropWhile_append_of_pos hall]
    cases rest with
    | nil => simp
    | cons d more => simp [Radix.goesOn_of_isBlank (hrest d more rfl)]
  have hrun (lead : List Char) :
      run (.integer r) lead r.goesOn (body ++ rest) = ⟨.integer r body, lead ++ body, rest⟩ := by
    rw [run, hstop.1, hstop.2]
  cases hmark with
  | hexadecimal hx =>
    obtain ⟨rfl, rfl⟩ := List.cons.inj h
    rcases hx with rfl | rfl <;> exact hrun _
  | binary hb =>
    obtain ⟨rfl, rfl⟩ := List.cons.inj h
    rcases hb with rfl | rfl <;> exact hrun _
  | decimal =>
    rw [List.nil_append] at h ⊢
    obtain ⟨htake, hdrop⟩ : (body ++ rest).takeWhile isDigitOrUnderscore = body ∧
        (body ++ rest).dropWhile isDigitOrUnderscore = rest := hstop
    have hnumber := decimal_of_integer hdrop fun d more hd => absurd (hrest '.' _ hd) (by decide)
    rw [htake] at hnumber
    cases body with
    | nil => exact absurd rfl hbody.2.1
    | cons d body =>
      obtain ⟨rfl, rfl⟩ := List.cons.inj h
      obtain ⟨d, hd⟩ := Radix.head_of_denotes hbody
      have hdigit : c.isDigit = true :=
        Radix.isDigit_of_hexValue? (Option.filter_eq_some_iff.1 hd).1 (Radix.digit?_eq_some_iff.1 hd).1
      rw [longest_of_isDigit hdigit fun x more hcs => ?_]
      · exact hnumber
      · intro hletter
        simp only [List.mem_cons, List.not_mem_nil, or_false] at hletter
        cases body with
        | nil =>
          have hx := hrest x more hcs
          rcases hletter with rfl | rfl | rfl | rfl <;> cases hx
        | cons b body =>
          -- no letter of a mark goes on with a decimal body
          obtain ⟨rfl, -⟩ := List.cons.inj hcs
          have hb : isDigitOrUnderscore b = true := hall b (by simp)
          rcases hletter with rfl | rfl | rfl | rfl <;> cases hb

/-- A text that is a mark and the body of a number is one literal as a whole. -/
theorem longest_of_denotes (hmark : r.Mark mark) (hbody : r.Denotes body v)
    (h : c :: cs = mark ++ body) : longest c cs = ⟨.integer r body, mark ++ body, []⟩ :=
  longest_of_denotes_blank hmark hbody (by rw [List.append_nil, h]) nofun

end Match

/-! ## The tokens -/

/-- The token of an integer literal, at any place and whatever splices are read with, and the error
in it. -/
theorem Token.ofMatch_integer (read : Nat → List Char → Lexed) (offset : Nat) (r : Radix)
    (body text rest : List Char) :
    let span : Span := ⟨offset, offset + Source.byteLength text⟩
    let token (value : UInt64) : Token := ⟨.int value, String.ofList text, span⟩
    (∀ value : UInt64, r.Denotes body value.toNat →
      ofMatch read offset ⟨.integer r body, text, rest⟩ = (token value, [])) ∧
    ((∀ value : UInt64, ¬r.Denotes body value.toNat) →
      ofMatch read offset ⟨.integer r body, text, rest⟩ = (token 0, [⟨.invalidNumber, span⟩])) := by
  simp only [ofMatch, interpret]
  constructor
  · intro value h
    rw [Radix.read?_eq_some_iff.2 h]
  · intro h
    have hnone : r.read? body = none :=
      Option.eq_none_iff_forall_ne_some.2 fun value hread => h value (Radix.read?_eq_some_iff.1 hread)
    rw [hnone]

/-- A source that is one token as a whole has this token and the one for its end. -/
theorem tokenize_of_longest {c : Char} {cs : List Char} {shape : Shape}
    (hmatch : Match.longest c cs = ⟨shape, c :: cs, []⟩) :
    let source := String.ofList (c :: cs)
    let stop := Source.byteLength (c :: cs)
    let meant := Token.interpret Token.readAll ⟨shape, c :: cs, []⟩ ⟨0, stop⟩
    tokenize source = ⟨[⟨meant.1, source, ⟨0, stop⟩⟩, Token.endAt stop], meant.2⟩ := by
  have hread : Token.readAll 0 (c :: cs) =
      ⟨[(Token.ofMatch Token.readAll 0 ⟨shape, c :: cs, []⟩).1],
        (Token.ofMatch Token.readAll 0 ⟨shape, c :: cs, []⟩).2⟩ := by
    rw [Token.readAll_cons, hmatch]
    simp only [Lexed.cons, Token.readAll, Token.readWithin, List.length_nil, Lexed.empty,
      List.append_nil]
  have hall := Lexer.finish_ofSource (String.ofList (c :: cs)) 0
  rw [String.toList_ofList, hread, Nat.zero_add] at hall
  simp only [Token.ofMatch, Nat.zero_add] at hall
  exact hall

/-- Integer literals are exact.  The next token of a lexer that stands before an integer literal of
any length has the number that the body denotes, with no error, if this fits 64 bits; else it is a
zero with one error over the whole token.  And every number of 64 bits, in every radix, with zeros in
front of its digits, underscores behind the first one and letters in either case, is read as itself, as
one token. -/
theorem integers_exact :
    (∀ (l : Lexer) (c : Char) (cs : List Char) (r : Radix) (body : List Char),
      l.rest = c :: cs → (Match.longest c cs).shape = .integer r body →
      let m := Match.longest c cs
      let span : Span := ⟨l.offset, l.offset + Source.byteLength m.text⟩
      let token (value : UInt64) : Token := ⟨.int value, String.ofList m.text, span⟩
      (∃ mark, r.Mark mark ∧ m.text = mark ++ body ∧ m.text ++ m.rest = l.rest) ∧
      (∀ value : UInt64, r.Denotes body value.toNat →
        l.next? = some (token value, ⟨m.rest, span.stop, l.errors⟩)) ∧
      ((∀ value : UInt64, ¬r.Denotes body value.toNat) →
        l.next? = some (token 0, ⟨m.rest, span.stop, l.errors ++ [⟨.invalidNumber, span⟩]⟩))) ∧
    (∀ (value : UInt64) (r : Radix) (mark body : List Char) (zeros : Nat), r.Mark mark →
      body.head? ≠ some '_' →
      (body.filter (· ≠ '_')).map Char.toLower =
        List.replicate zeros '0' ++ Nat.toDigits r.base value.toNat →
      let stop := Source.byteLength (mark ++ body)
      (tokenize (String.ofList (mark ++ body))).tokens =
        [⟨.int value, String.ofList (mark ++ body), ⟨0, stop⟩⟩, Token.endAt stop] ∧
      (tokenize (String.ofList (mark ++ body))).errors = []) := by
  constructor
  · intro l c cs r body hrest hshape
    obtain ⟨mark, hmark, htext⟩ := Match.marked_longest c cs r body hshape
    have hsplit := (Match.splits_longest c cs).1
    have hmatch : Match.longest c cs =
        ⟨.integer r body, (Match.longest c cs).text, (Match.longest c cs).rest⟩ := by rw [← hshape]
    have hnext : l.next? = (Lexer.mk (c :: cs) l.offset l.errors).next? := by rw [← hrest]
    have htoken := Token.ofMatch_integer Token.readAll l.offset r body (Match.longest c cs).text
      (Match.longest c cs).rest
    rw [← hmatch] at htoken
    refine ⟨⟨mark, hmark, htext, hsplit.trans hrest.symm⟩, ?_, ?_⟩
    · intro value hvalue
      rw [hnext, Lexer.next?_cons]
      simp only [htoken.1 value hvalue, List.append_nil]
    · intro hnone
      rw [hnext, Lexer.next?_cons]
      simp only [htoken.2 hnone]
  · intro value r mark body zeros hmark hstart hdigits
    have hdenotes := Radix.denotes_of_toDigits hstart hdigits
    have hne : mark ++ body ≠ [] := fun h => hdenotes.2.1 (by rw [(List.append_eq_nil_iff.1 h).2]; rfl)
    obtain ⟨c, cs, hcs⟩ := List.exists_cons_of_ne_nil hne
    have hall := tokenize_of_longest (hcs ▸ Match.longest_of_denotes hmark hdenotes hcs.symm)
    simp only [Token.interpret, Radix.read?_eq_some_iff.2 hdenotes] at hall
    rw [hcs, hall]
    exact ⟨rfl, rfl⟩

/-- The largest number of 64 bits is read; the next one and a digit of another radix are not. -/
theorem integers_exact_at_the_bound :
    ((tokenize "0X0_fFFF_ffff_FFFF_ffff").tokens =
        [⟨.int 18446744073709551615, "0X0_fFFF_ffff_FFFF_ffff", ⟨0, 23⟩⟩, Token.endAt 23] ∧
      (tokenize "0X0_fFFF_ffff_FFFF_ffff").errors = []) ∧
    (Lexer.mk "0b1_1;".toList 7 []).next? = some (⟨.int 3, "0b1_1", ⟨7, 12⟩⟩, ⟨[';'], 12, []⟩) ∧
    (Lexer.mk "18446744073709551616;".toList 7 []).next? =
      some (⟨.int 0, "18446744073709551616", ⟨7, 27⟩⟩, ⟨[';'], 27, [⟨.invalidNumber, ⟨7, 27⟩⟩]⟩) ∧
    (Lexer.mk "0b1_2;".toList 7 []).next? =
      some (⟨.int 0, "0b1_2", ⟨7, 12⟩⟩, ⟨[';'], 12, [⟨.invalidNumber, ⟨7, 12⟩⟩]⟩) := by
  have hno {r : Radix} {body : List Char} (h : r.read? body = none) (value : UInt64) :
      ¬r.Denotes body value.toNat := fun hdenotes => by
    rw [Radix.read?_eq_some_iff.2 hdenotes] at h
    cases h
  refine ⟨?_, ?_, ?_, ?_⟩
  · exact integers_exact.2 18446744073709551615 .hexadecimal ['0', 'X']
      "0_fFFF_ffff_FFFF_ffff".toList 1 (.hexadecimal (.inr rfl)) (by decide) (by decide +kernel)
  · exact (integers_exact.1 ⟨"0b1_1;".toList, 7, []⟩ '0' "b1_1;".toList .binary "1_1".toList rfl
      (by decide +kernel)).2.1 3 (Radix.read?_eq_some_iff.1 (by decide +kernel))
  · exact (integers_exact.1 ⟨"18446744073709551616;".toList, 7, []⟩ '1' "8446744073709551616;".toList
      .decimal "18446744073709551616".toList rfl (by decide +kernel)).2.2 (hno (by decide +kernel))
  · exact (integers_exact.1 ⟨"0b1_2;".toList, 7, []⟩ '0' "b1_2;".toList .binary "1_2".toList rfl
      (by decide +kernel)).2.2 (hno (by decide +kernel))

end ActorFrontend
