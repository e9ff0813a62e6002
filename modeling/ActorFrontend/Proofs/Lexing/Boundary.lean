import ActorFrontend.Proofs.Lexing.Shift
import ActorFrontend.Proofs.Lossless

/-!
# Where tokens meet

A text may be cut wherever a token ends: both parts are read as they were read together.  A scanner
may look at what follows a token to find its end, but where the text is cut off behind the token it
finds the same one.
-/

namespace ActorFrontend

/-! ## String bodies -/

/-- A plain body is read in the same way where the text is cut off behind it. -/
theorem plainBody_cut {cs more back : List Char} (h : (plainBody cs).2.2 = more ++ back) :
    ∃ front, cs = front ++ back ∧
      plainBody front = ((plainBody cs).1, (plainBody cs).2.1, more) := by
  fun_induction plainBody cs generalizing more with
  | case1 =>
    obtain ⟨rfl, rfl⟩ := List.append_eq_nil_iff.1 h.symm
    exact ⟨[], rfl, rfl⟩
  | case2 cs =>
    obtain rfl : cs = more ++ back := h
    exact ⟨'"' :: more, rfl, rfl⟩
  | case3 cs =>
    refine ⟨more, h, ?_⟩
    cases more with
    | nil => rfl
    | cons c more =>
      obtain ⟨rfl, -⟩ := List.cons.inj h
      rfl
  | case4 cs =>
    refine ⟨'\\' :: more, congrArg _ h, ?_⟩
    cases more with
    | nil => rfl
    | cons c more =>
      obtain ⟨rfl, -⟩ := List.cons.inj h
      rfl
  | case5 c cs hline body closed rest hread ih =>
    rw [hread] at ih
    obtain ⟨front, rfl, hfront⟩ := ih h
    refine ⟨'\\' :: c :: front, rfl, ?_⟩
    rw [plainBody, hfront]
    exact hline
  | case6 c cs hquote hline hhidden hescape body closed rest hread ih =>
    rw [hread] at ih
    obtain ⟨front, rfl, hfront⟩ := ih h
    refine ⟨c :: front, rfl, ?_⟩
    rw [plainBody, hfront]
    · exact hquote
    · exact hline
    · rintro cs hc rfl
      exact hhidden (cs ++ back) hc rfl
    · rintro d cs hc rfl
      exact hescape d (cs ++ back) hc rfl

namespace Body

/-- The body with another rest behind it. -/
def cutAt (rest : List Char) (b : Body) : Body := { b with rest }

@[simp] theorem rest_consText (c : Char) (b : Body) : (b.consText c).rest = b.rest := by
  unfold consText
  split <;> rfl

@[simp] theorem rest_consSplice (c : Char) (b : Body) : (b.consSplice c).rest = b.rest := by
  unfold consSplice
  split <;> rfl

@[simp] theorem closed_consText (c : Char) (b : Body) : (b.consText c).closed = b.closed := by
  unfold consText
  split <;> rfl

@[simp] theorem closed_consSplice (c : Char) (b : Body) : (b.consSplice c).closed = b.closed := by
  unfold consSplice
  split <;> rfl

theorem cutAt_consText (rest : List Char) (c : Char) (b : Body) :
    (b.consText c).cutAt rest = (b.cutAt rest).consText c := by
  obtain ⟨_ | ⟨_ | _, _⟩, _, _⟩ := b <;> rfl

theorem cutAt_consSplice (rest : List Char) (c : Char) (b : Body) :
    (b.consSplice c).cutAt rest = (b.cutAt rest).consSplice c := by
  obtain ⟨_ | ⟨_ | _, _⟩, _, _⟩ := b <;> rfl

/-- The body that was read from `cs` is read in the same way from what remains of `cs` where it is
cut off behind the body. -/
def Kept (r : Region) (cs : List Char) (b : Body) : Prop :=
  ∀ more back, b.rest = more ++ back →
    ∃ front, cs = front ++ back ∧ interpolatedBody r front = b.cutAt more

variable {r r' : Region} {b : Body} {cs : List Char}

/-- The body ends where the text does or where the line does. -/
theorem Kept.stop {f : List Char → Body} (hcut : ∀ more, (f cs).cutAt more = f more)
    (hrest : (f cs).rest = cs)
    (hread : ∀ front back, cs = front ++ back → interpolatedBody r front = f front) :
    Kept r cs (f cs) := by
  intro more back h
  rw [hrest] at h
  exact ⟨more, h, by rw [hcut, hread more back h]⟩

/-- Some characters stand before a body that is kept. -/
theorem Kept.after {l : List Char} {f : Body → Body} (h : Kept r cs b)
    (hrest : (f b).rest = b.rest) (hcut : ∀ more, (f b).cutAt more = f (b.cutAt more))
    (hread : ∀ front back, cs = front ++ back →
      interpolatedBody r' (l ++ front) = f (interpolatedBody r front)) :
    Kept r' (l ++ cs) (f b) := by
  intro more back hmore
  obtain ⟨front, hcs, hfront⟩ := h more back (hrest ▸ hmore)
  refine ⟨l ++ front, by rw [hcs, List.append_assoc], ?_⟩
  rw [hread front back hcs, hfront, hcut]

theorem Kept.consText {l : List Char} {c : Char} (h : Kept r cs b)
    (hread : ∀ front back, cs = front ++ back →
      interpolatedBody r' (l ++ front) = (interpolatedBody r front).consText c) :
    Kept r' (l ++ cs) (b.consText c) :=
  h.after (rest_consText c b) (fun more => cutAt_consText more c b) hread

theorem Kept.consSplice {c : Char} (h : Kept r cs b)
    (hread : ∀ front back, cs = front ++ back →
      interpolatedBody r' (c :: front) = (interpolatedBody r front).consSplice c) :
    Kept r' (c :: cs) (b.consSplice c) :=
  h.after (l := [c]) (rest_consSplice c b) (fun more => cutAt_consSplice more c b) hread

end Body

/-- A line feed is the first character of every part of a text that starts with it. -/
theorem Source.eq_nil_or_lineFeed {cs front back : List Char} (h : '\n' :: cs = front ++ back) :
    front = [] ∨ ∃ more, front = '\n' :: more := by
  cases front with
  | nil => exact .inl rfl
  | cons c more =>
    obtain ⟨rfl, -⟩ := List.cons.inj h
    exact .inr ⟨more, rfl⟩

open Body in
/-- A body of an interpolated string is read in the same way where the text is cut off behind it. -/
theorem kept_interpolatedBody (r : Region) (cs : List Char) :
    Kept r cs (interpolatedBody r cs) := by
  -- at the end of the text, and at that of the line, nothing is taken
  have hnil {r : Region} {f : List Char → Body} (hcut : ∀ more, (f []).cutAt more = f more)
      (hrest : (f []).rest = []) (hread : interpolatedBody r [] = f []) : Kept r [] (f []) := by
    refine .stop hcut hrest fun front back h => ?_
    obtain ⟨rfl, -⟩ := List.append_eq_nil_iff.1 h.symm
    exact hread
  have hline {r : Region} {f : List Char → Body} {cs : List Char}
      (hcut : ∀ more, (f ('\n' :: cs)).cutAt more = f more)
      (hrest : (f ('\n' :: cs)).rest = '\n' :: cs) (hread : interpolatedBody r [] = f [])
      (hread' : ∀ cs, interpolatedBody r ('\n' :: cs) = f ('\n' :: cs)) :
      Kept r ('\n' :: cs) (f ('\n' :: cs)) := by
    refine .stop hcut hrest fun front back h => ?_
    obtain rfl | ⟨more, rfl⟩ := Source.eq_nil_or_lineFeed h
    · exact hread
    · exact hread' more
  let openSplice (rest : List Char) : Body := (cutOff rest).endSplice false
  fun_induction interpolatedBody r cs with
  | case1 => exact hnil (f := cutOff) (fun _ => rfl) rfl rfl
  | case2 cs =>
    intro more back h
    obtain rfl : cs = more ++ back := h
    exact ⟨'"' :: more, rfl, rfl⟩
  | case3 cs => exact hline (f := cutOff) (fun _ => rfl) rfl rfl fun _ => rfl
  | case4 cs =>
    have h : Kept .text ('\n' :: cs) (cutOff ('\n' :: cs)) :=
      hline (f := cutOff) (fun _ => rfl) rfl rfl fun _ => rfl
    refine h.consText (l := ['\\']) fun front back h => ?_
    obtain rfl | ⟨more, rfl⟩ := Source.eq_nil_or_lineFeed h <;> rfl
  | case5 c cs hhidden ih =>
    refine ih.after (l := ['\\', c]) (f := fun b => (b.consText c).consText '\\') (by simp)
      (by simp [cutAt_consText]) fun front back h => ?_
    rw [List.cons_append, List.cons_append, List.nil_append, interpolatedBody]
    exact hhidden
  | case6 cs ih => exact ih.after (l := ['{']) (f := id) rfl (fun _ => rfl) fun _ _ _ => rfl
  | case7 c cs hquote hfeed hhidden hescape hbrace ih =>
    refine ih.consText (l := [c]) fun front back h => ?_
    rw [List.cons_append, List.nil_append, interpolatedBody]
    · exact hquote
    · exact hfeed
    · rintro cs' hc rfl
      exact hhidden (cs' ++ back) hc h
    · rintro d cs' hc rfl
      exact hescape d (cs' ++ back) hc h
    · exact hbrace
  | case8 depth => exact hnil (f := openSplice) (fun _ => rfl) rfl rfl
  | case9 depth cs => exact hline (f := openSplice) (fun _ => rfl) rfl rfl fun _ => rfl
  | case10 depth cs ih | case11 depth cs ih | case13 depth cs ih | case17 depth cs ih =>
    exact ih.consSplice fun _ _ _ => by rw [interpolatedBody]
  | case12 cs ih =>
    exact ih.after (l := ['}']) (f := endSplice true) rfl (fun _ => rfl) fun _ _ _ => rfl
  | case14 depth c cs hfeed hquote hbrace hclose hclose' ih =>
    refine ih.consSplice fun front back h => ?_
    rw [interpolatedBody]
    all_goals assumption
  | case15 depth => exact hnil (f := openSplice) (fun _ => rfl) rfl rfl
  | case16 depth cs => exact hline (f := openSplice) (fun _ => rfl) rfl rfl fun _ => rfl
  | case18 depth =>
    intro more back h
    obtain ⟨rfl, rfl⟩ := List.append_eq_nil_iff.1 h.symm
    exact ⟨['\\'], rfl, rfl⟩
  | case19 depth c cs ih =>
    exact ih.after (l := ['\\', c]) (f := fun b => (b.consSplice c).consSplice '\\') (by simp)
      (by simp [cutAt_consSplice]) fun _ _ _ => rfl
  | case20 depth c cs hfeed hquote hlone hescape ih =>
    refine ih.consSplice fun front back h => ?_
    rw [interpolatedBody]
    · exact hfeed
    · exact hquote
    · -- behind a backslash there is a character or none, and both are cases of their own
      intro hc _
      cases cs with
      | nil => exact hlone hc rfl
      | cons d cs => exact hescape d cs hc rfl
    · rintro d cs' hc rfl
      exact hescape d (cs' ++ back) hc h

/-! ## Matches -/

/-- The first characters with a property are found in the same way where the text is cut off behind
them. -/
theorem List.takeWhile_cut {α : Type} {p : α → Bool} {as more back : List α}
    (h : as.dropWhile p = more ++ back) :
    ∃ front, as = front ++ back ∧ front.takeWhile p = as.takeWhile p ∧ front.dropWhile p = more := by
  induction as with
  | nil =>
    obtain ⟨rfl, rfl⟩ := List.append_eq_nil_iff.1 h.symm
    exact ⟨[], rfl, rfl, rfl⟩
  | cons a as ih =>
    by_cases ha : p a = true
    · rw [List.dropWhile_cons_of_pos ha] at h
      obtain ⟨front, rfl, htake, hdrop⟩ := ih h
      exact ⟨a :: front, rfl, by simp [ha, htake], by simp [ha, hdrop]⟩
    · rw [List.dropWhile_cons_of_neg ha] at h
      refine ⟨more, h, ?_⟩
      cases more with
      | nil => simp [ha]
      | cons b more =>
        obtain ⟨rfl, -⟩ := List.cons.inj h
        simp [ha]

/-- What is found first is found as well by a stronger test that it passes. -/
theorem List.find?_eq_some_of_imp {α : Type} {p q : α → Bool} {as : List α} {a : α}
    (h : as.find? q = some a) (himp : ∀ a, p a = true → q a = true) (ha : p a = true) :
    as.find? p = some a := by
  rw [List.find?_eq_some_iff_append] at h ⊢
  obtain ⟨-, before, after, rfl, hbefore⟩ := h
  refine ⟨ha, before, after, rfl, fun b hb => ?_⟩
  have hq := hbefore b hb
  cases hp : p b with
  | false => rfl
  | true => simp [himp b hp] at hq

namespace Match

variable {c : Char} {cs more back : List Char}

/-- The match with another rest behind it. -/
def cutAt (rest : List Char) (m : Match) : Match := { m with rest }

theorem run_cut {shape : List Char → Shape} {lead : List Char} {p : Char → Bool}
    (h : (run shape lead p cs).rest = more ++ back) :
    ∃ front, cs = front ++ back ∧ run shape lead p front = (run shape lead p cs).cutAt more := by
  obtain ⟨front, hcs, htake, hdrop⟩ := List.takeWhile_cut h
  exact ⟨front, hcs, by simp [run, cutAt, htake, hdrop]⟩

theorem blockCommentBody_cut (h : (blockCommentBody cs).2.2 = more ++ back) :
    ∃ front, cs = front ++ back ∧
      blockCommentBody front = ((blockCommentBody cs).1, (blockCommentBody cs).2.1, more) := by
  fun_induction blockCommentBody cs generalizing more with
  | case1 =>
    obtain ⟨rfl, rfl⟩ := List.append_eq_nil_iff.1 h.symm
    exact ⟨[], rfl, rfl⟩
  | case2 cs =>
    obtain rfl : cs = more ++ back := h
    exact ⟨'*' :: '/' :: more, rfl, rfl⟩
  | case3 c cs hend body closed rest hread ih =>
    rw [hread] at ih
    obtain ⟨front, rfl, hfront⟩ := ih h
    refine ⟨c :: front, rfl, ?_⟩
    rw [blockCommentBody, hfront]
    rintro cs hc rfl
    exact hend (cs ++ back) hc rfl

theorem symbolOrUnknown_cut (h : (symbolOrUnknown c cs).rest = more ++ back) :
    ∃ front, cs = front ++ back ∧ symbolOrUnknown c front = (symbolOrUnknown c cs).cutAt more := by
  have himp {front : List Char} (hcs : cs = front ++ back) (s : Symbol)
      (hs : s.chars.isPrefixOf (c :: front) = true) : s.chars.isPrefixOf (c :: cs) = true := by
    rw [List.isPrefixOf_iff_prefix] at hs ⊢
    exact hs.trans ⟨back, by rw [hcs, List.cons_append]⟩
  unfold symbolOrUnknown at h ⊢
  cases hlongest : Symbol.longest? (c :: cs) with
  | none =>
    rw [hlongest] at h
    obtain rfl : cs = more ++ back := h
    have hnone : Symbol.longest? (c :: more) = none := by
      rw [Symbol.longest?, List.find?_eq_none] at hlongest ⊢
      exact fun s hs hprefix => hlongest s hs (himp rfl s hprefix)
    exact ⟨more, rfl, by rw [hnone]; rfl⟩
  | some s =>
    rw [hlongest] at h
    simp only at h
    obtain ⟨rest, hrest⟩ := Symbol.isPrefixOf_longest? hlongest
    rw [← hrest, List.drop_left] at h
    subst h
    -- the symbol is not empty and starts with the first character
    obtain ⟨d, front, hchars⟩ := List.exists_cons_of_ne_nil s.chars_ne_nil
    rw [hchars, List.cons_append] at hrest
    obtain ⟨rfl, hcs⟩ := List.cons.inj hrest
    rw [← List.append_assoc] at hcs
    have hsome : Symbol.longest? (d :: (front ++ more)) = some s :=
      List.find?_eq_some_of_imp hlongest (himp hcs.symm) (by simp [hchars])
    refine ⟨front ++ more, hcs.symm, ?_⟩
    rw [hsome]
    simp [cutAt, hchars]

/-- The digits of an exponent behind its mark and its sign, if there are any. -/
theorem exponent_cons (e sign : Char) (digits : List Char) :
    exponent (e :: sign :: digits) =
      if e = 'e' ∨ e = 'E' then
        if sign = '+' ∨ sign = '-' then
          if (digits.takeWhile Char.isDigit).isEmpty then ([], e :: sign :: digits)
          else (e :: sign :: digits.takeWhile Char.isDigit, digits.dropWhile Char.isDigit)
        else if ((sign :: digits).takeWhile Char.isDigit).isEmpty then ([], e :: sign :: digits)
          else (e :: (sign :: digits).takeWhile Char.isDigit, (sign :: digits).dropWhile Char.isDigit)
      else ([], e :: sign :: digits) := rfl

theorem exponent_cut (h : (exponent cs).2 = more ++ back) :
    ∃ front, cs = front ++ back ∧ exponent front = ((exponent cs).1, more) := by
  -- where no exponent is found, none is found in fewer characters
  have hnone (cs : List Char) (h : cs = more ++ back)
      (hmore : ∀ e sign digits, more = e :: sign :: digits → exponent more = ([], more)) :
      ∃ front, cs = front ++ back ∧ exponent front = ([], more) := by
    refine ⟨more, h, ?_⟩
    match more with
    | [] | [_] => rfl
    | e :: sign :: digits => exact hmore _ _ _ rfl
  have hdigits (as : List Char) (h : ((as ++ back).takeWhile Char.isDigit).isEmpty = true) :
      (as.takeWhile Char.isDigit).isEmpty = true := by
    cases as with
    | nil => rfl
    | cons a as =>
      cases ha : a.isDigit <;> simp_all
  match cs with
  | [] | [_] =>
    refine hnone _ h fun e sign digits hmore => ?_
    have hlength := congrArg List.length h
    simp [exponent, hmore] at hlength
  | e :: sign :: digits =>
    rw [exponent_cons] at h ⊢
    split at h
    case isFalse hmark =>
      rw [if_neg hmark]
      refine hnone _ h fun e' sign' digits' hmore => ?_
      rw [hmore, List.cons_append] at h
      obtain ⟨rfl, -⟩ := List.cons.inj h
      rw [hmore, exponent_cons, if_neg hmark]
    case isTrue hmark =>
      rw [if_pos hmark]
      split at h
      case isTrue hsign =>
        rw [if_pos hsign]
        split at h
        case isTrue hempty =>
          rw [if_pos hempty]
          refine hnone _ h fun e' sign' digits' hmore => ?_
          simp only [hmore, List.cons_append, List.cons.injEq] at h
          obtain ⟨rfl, rfl, rfl⟩ := h
          rw [hmore, exponent_cons, if_pos hmark, if_pos hsign, if_pos (hdigits _ hempty)]
        case isFalse hempty =>
          rw [if_neg hempty]
          obtain ⟨front, rfl, htake, hdrop⟩ := List.takeWhile_cut h
          refine ⟨e :: sign :: front, rfl, ?_⟩
          rw [exponent_cons, if_pos hmark, if_pos hsign, htake, if_neg hempty, hdrop]
      case isFalse hsign =>
        rw [if_neg hsign]
        split at h
        case isTrue hempty =>
          rw [if_pos hempty]
          refine hnone _ h fun e' sign' digits' hmore => ?_
          simp only [hmore, List.cons_append, List.cons.injEq] at h
          obtain ⟨rfl, rfl, rfl⟩ := h
          rw [hmore, exponent_cons, if_pos hmark, if_neg hsign, if_pos (hdigits (_ :: _) hempty)]
        case isFalse hempty =>
          rw [if_neg hempty]
          obtain ⟨front, hfront, htake, hdrop⟩ := List.takeWhile_cut h
          -- the first digit is taken
          obtain ⟨rest, rfl⟩ : ∃ rest, front = sign :: rest := by
            cases front with
            | nil => simp [← htake] at hempty
            | cons d front => exact ⟨front, by rw [(List.cons.inj hfront).1]⟩
          refine ⟨e :: sign :: rest, by rw [hfront]; rfl, ?_⟩
          rw [exponent_cons, if_pos hmark, if_neg hsign, htake, if_neg hempty, hdrop]

/-- Where no digit stands behind a point, the number is an integer. -/
theorem decimal_of_integer {rest : List Char} (h : cs.dropWhile isDigitOrUnderscore = rest)
    (hpoint : ∀ d more, rest = '.' :: d :: more → d.isDigit = false) :
    decimal cs =
      ⟨.integer .decimal (cs.takeWhile isDigitOrUnderscore), cs.takeWhile isDigitOrUnderscore,
        rest⟩ := by
  unfold decimal
  rw [h]
  split
  case h_1 d more => simp [hpoint d more rfl]
  case h_2 => rfl

theorem decimal_of_float {d : Char} {rest : List Char}
    (h : cs.dropWhile isDigitOrUnderscore = '.' :: d :: rest) (hd : d.isDigit = true) :
    decimal cs =
      ⟨.float, cs.takeWhile isDigitOrUnderscore ++ '.' :: d :: rest.takeWhile isDigitOrUnderscore ++
        (exponent (rest.dropWhile isDigitOrUnderscore)).1,
        (exponent (rest.dropWhile isDigitOrUnderscore)).2⟩ := by
  unfold decimal
  rw [h]
  simp [hd]

/-- The characters that numbers in decimal are made of. -/
def isNumeric (c : Char) : Bool :=
  isDigitOrUnderscore c || c == '.' || c == 'e' || c == 'E' || c == '+' || c == '-'

theorem numeric_exponent : ∀ x ∈ (exponent cs).1, isNumeric x = true := by
  have hdigits (cs : List Char) : ∀ x ∈ cs.takeWhile Char.isDigit, isNumeric x = true := by
    intro x hx
    have hdigit : x.isDigit = true := List.all_eq_true.1 List.all_takeWhile x hx
    simp [isNumeric, isDigitOrUnderscore, hdigit]
  have hnil : ∀ x ∈ ([] : List Char), isNumeric x = true := List.forall_mem_nil _
  obtain _ | ⟨e, _ | ⟨sign, digits⟩⟩ := cs
  · exact hnil
  · exact hnil
  · rw [exponent_cons]
    split
    case isFalse => exact hnil
    case isTrue he =>
      have hmark : isNumeric e = true := by obtain rfl | rfl := he <;> rfl
      split
      case isTrue hsign =>
        have hsign : isNumeric sign = true := by obtain rfl | rfl := hsign <;> rfl
        split
        · exact hnil
        · exact List.forall_mem_cons.2 ⟨hmark, List.forall_mem_cons.2 ⟨hsign, hdigits _⟩⟩
      case isFalse =>
        split
        · exact hnil
        · exact List.forall_mem_cons.2 ⟨hmark, hdigits _⟩

theorem numeric_decimal : ∀ x ∈ (decimal cs).text, isNumeric x = true := by
  have hwhole (cs : List Char) : ∀ x ∈ cs.takeWhile isDigitOrUnderscore, isNumeric x = true := by
    intro x hx
    have hdigit : isDigitOrUnderscore x = true := List.all_eq_true.1 List.all_takeWhile x hx
    simp [isNumeric, hdigit]
  unfold decimal
  split
  case h_1 d more _ =>
    split
    case isTrue hd =>
      have hfirst : isNumeric d = true := by simp [isNumeric, isDigitOrUnderscore, hd]
      have hpoint : isNumeric '.' = true := rfl
      simp only [List.mem_append, List.mem_cons]
      rintro x ((hx | rfl | rfl | hx) | hx)
      · exact hwhole _ x hx
      · exact hpoint
      · exact hfirst
      · exact hwhole _ x hx
      · exact numeric_exponent x hx
    case isFalse => exact hwhole cs
  case h_2 => exact hwhole cs

theorem decimal_cut (hc : c.isDigit = true) (h : (decimal (c :: cs)).rest = more ++ back) :
    ∃ front, cs = front ++ back ∧ decimal (c :: front) = (decimal (c :: cs)).cutAt more := by
  -- the digits before the point are found in what is left of the text
  have hwhole {rest : List Char} (h : (c :: cs).dropWhile isDigitOrUnderscore = rest ++ back) :
      ∃ front, cs = front ++ back ∧
        (c :: front).takeWhile isDigitOrUnderscore = (c :: cs).takeWhile isDigitOrUnderscore ∧
        (c :: front).dropWhile isDigitOrUnderscore = rest := by
    have hc : isDigitOrUnderscore c = true := by simp [isDigitOrUnderscore, hc]
    rw [List.dropWhile_cons_of_pos hc] at h
    obtain ⟨front, hcs, htake, hdrop⟩ := List.takeWhile_cut h
    exact ⟨front, hcs, by simp [hc, htake], by simp [hc, hdrop]⟩
  by_cases hfloat : ∃ d rest, (c :: cs).dropWhile isDigitOrUnderscore = '.' :: d :: rest ∧
      d.isDigit = true
  · obtain ⟨d, rest, hrest, hd⟩ := hfloat
    rw [decimal_of_float hrest hd] at h ⊢
    obtain ⟨power, hpower, hexponent⟩ := exponent_cut h
    obtain ⟨fraction, rfl, htake, hdrop⟩ := List.takeWhile_cut hpower
    obtain ⟨front, hcs, hfront, hpoint⟩ := hwhole
      (show _ = ('.' :: d :: fraction) ++ back from hrest)
    refine ⟨front, hcs, ?_⟩
    rw [decimal_of_float hpoint hd, hfront, htake, hdrop, hexponent]
    rfl
  · have hinteger (d : Char) (rest : List Char)
        (hrest : (c :: cs).dropWhile isDigitOrUnderscore = '.' :: d :: rest) : d.isDigit = false := by
      by_contra hd
      exact hfloat ⟨d, rest, hrest, by simpa using hd⟩
    rw [decimal_of_integer rfl hinteger] at h ⊢
    obtain ⟨front, hcs, hfront, hmore⟩ := hwhole h
    refine ⟨front, hcs, ?_⟩
    rw [decimal_of_integer hmore, hfront]
    · rfl
    · rintro d rest rfl
      exact hinteger d (rest ++ back) h

theorem string_cut (h : (string cs).rest = more ++ back) :
    ∃ front, cs = front ++ back ∧ string front = (string cs).cutAt more := by
  obtain ⟨front, hcs, hfront⟩ := plainBody_cut h
  exact ⟨front, hcs, by simp [string, cutAt, hfront]⟩

theorem interpolated_cut (h : (interpolated cs).rest = more ++ back) :
    ∃ front, cs = front ++ back ∧ interpolated front = (interpolated cs).cutAt more := by
  obtain ⟨front, hcs, hfront⟩ := kept_interpolatedBody .text cs more back h
  exact ⟨front, hcs, by simp [interpolated, cutAt, hfront, Body.cutAt, Body.source]⟩

/-- A match is the same where the text is cut off behind it. -/
theorem longest_cut (h : (longest c cs).rest = more ++ back) :
    ∃ front, cs = front ++ back ∧ longest c front = (longest c cs).cutAt more := by
  unfold longest at h
  split at h
  case h_1 cs =>
    obtain ⟨front, rfl, hfront⟩ := run_cut h
    exact ⟨'/' :: front, rfl, hfront⟩
  case h_2 cs =>
    obtain ⟨front, rfl, hfront⟩ := blockCommentBody_cut h
    refine ⟨'*' :: front, rfl, ?_⟩
    simp [longest, cutAt, hfront]
  case h_3 => exact string_cut h
  case h_4 =>
    obtain ⟨front, rfl, hfront⟩ := interpolated_cut h
    exact ⟨'"' :: front, rfl, hfront⟩
  case h_5 cs | h_6 cs | h_7 cs | h_8 cs =>
    obtain ⟨front, rfl, hfront⟩ := run_cut h
    exact ⟨_ :: front, rfl, hfront⟩
  case h_9 d cs =>
    split at h
    case isTrue hword =>
      rw [longest, if_pos hword]
      obtain ⟨front, rfl, hfront⟩ := run_cut h
      exact ⟨d :: front, rfl, by rw [longest, if_pos hword, hfront]⟩
    case isFalse hword =>
      rw [longest, if_neg hword]
      obtain ⟨front, hcs, hfront⟩ := symbolOrUnknown_cut h
      refine ⟨front, hcs, hfront ▸ ?_⟩
      cases front with
      | nil => rfl
      | cons d' front =>
        obtain ⟨rfl, -⟩ := List.cons.inj hcs
        rw [longest, if_neg hword]
  case h_10 h₁ h₂ h₃ h₄ h₅ h₆ h₇ h₈ h₉ =>
    -- no form of its own starts here, nor does one where the text is shorter
    have hplain (front back : List Char) (hcs : cs = front ++ back) :
        longest c front =
          if isBlank c then run (fun _ => .whitespace) [c] isBlank front
          else if c.isDigit then decimal (c :: front)
          else if isWordStart c then run (fun _ => .word) [c] isWordChar front
          else symbolOrUnknown c front := by
      unfold longest
      split
      case h_10 => rfl
      all_goals simp_all
    rw [hplain cs [] (List.append_nil cs).symm]
    split at h
    case isTrue hblank =>
      obtain ⟨front, hcs, hfront⟩ := run_cut h
      exact ⟨front, hcs, by rw [hplain front back hcs, if_pos hblank, if_pos hblank, hfront]⟩
    case isFalse hblank =>
      rw [if_neg hblank]
      split at h
      case isTrue hdigit =>
        obtain ⟨front, hcs, hfront⟩ := decimal_cut hdigit h
        refine ⟨front, hcs, ?_⟩
        rw [hplain front back hcs, if_neg hblank, if_pos hdigit, if_pos hdigit, hfront]
      case isFalse hdigit =>
        rw [if_neg hdigit]
        split at h
        case isTrue hword =>
          obtain ⟨front, hcs, hfront⟩ := run_cut h
          refine ⟨front, hcs, ?_⟩
          rw [hplain front back hcs, if_neg hblank, if_neg hdigit, if_pos hword, if_pos hword, hfront]
        case isFalse hword =>
          rw [if_neg hword]
          obtain ⟨front, hcs, hfront⟩ := symbolOrUnknown_cut h
          refine ⟨front, hcs, ?_⟩
          rw [hplain front back hcs, if_neg hblank, if_neg hdigit, if_neg hword, hfront]

end Match

/-! ## Texts -/

namespace Token

/-- The first token of a text is read in the same way where the text is cut off somewhere behind
it. -/
theorem readAll_cut {c : Char} {cs more back : List Char}
    (h : (Match.longest c cs).rest = more ++ back) :
    ∃ front, cs = front ++ back ∧ ∀ offset,
      let first := ofMatch readAll offset (Match.longest c cs)
      readAll offset (c :: front) = (readAll first.1.span.stop more).cons first.1 first.2 ∧
        offset + Source.byteLength (c :: front) = first.1.span.stop + Source.byteLength more := by
  obtain ⟨front, rfl, hmatch⟩ := Match.longest_cut h
  refine ⟨front, rfl, fun offset => ⟨?_, ?_⟩⟩
  · rw [readAll_cons, hmatch]
    rfl
  · have hsplit : (Match.longest c (front ++ back)).text ++ more = c :: front := by
      have hsplits := (Match.splits_longest c (front ++ back)).1
      rw [h, ← List.append_assoc] at hsplits
      exact List.append_cancel_right hsplits
    rw [← hsplit, Source.byteLength_append, ← Nat.add_assoc]
    rfl

/-- Wherever the tokens of a text are taken apart, the text comes apart in the same place, and each
part is read as it is alone. -/
theorem readAll_append {ts us : List Token} {offset : Nat} {cs : List Char}
    (h : (readAll offset cs).tokens = ts ++ us) :
    ∃ front back, cs = front ++ back ∧ (readAll offset front).tokens = ts ∧
      (readAll (offset + Source.byteLength front) back).tokens = us ∧
      (readAll offset cs).errors =
        (readAll offset front).errors ++
          (readAll (offset + Source.byteLength front) back).errors := by
  induction ts generalizing offset cs with
  | nil => exact ⟨[], cs, rfl, rfl, h, rfl⟩
  | cons t ts ih =>
    cases cs with
    | nil => cases h
    | cons c cs =>
      have hread := readAll_cons offset c cs
      simp only at hread
      rw [hread] at h ⊢
      obtain ⟨rfl, htokens⟩ := List.cons.inj h
      obtain ⟨more, back, hrest, hfront, hback, herrors⟩ := ih htokens
      obtain ⟨front, rfl, hcut⟩ := readAll_cut hrest
      obtain ⟨hread', hlength⟩ := hcut offset
      refine ⟨c :: front, back, rfl, ?_, ?_, ?_⟩
      · rw [hread', ← hfront]
        rfl
      · rw [hlength]
        exact hback
      · rw [hread', hlength]
        simp only [Lexed.cons, herrors, List.append_assoc]

end Token

namespace Lexer

/-- The next token is the first one of all that are left. -/
theorem next?_cons (c : Char) (cs : List Char) (offset : Nat) (errors : List LexicalError) :
    (Lexer.mk (c :: cs) offset errors).next? =
      let first := Token.ofMatch Token.readAll offset (Match.longest c cs)
      some (first.1, ⟨(Match.longest c cs).rest, first.1.span.stop, errors ++ first.2⟩) := by
  have hmatch : Token.ofMatch (Token.readWithin cs.length) offset (Match.longest c cs) =
      Token.ofMatch Token.readAll offset (Match.longest c cs) := by
    refine Token.ofMatch_congr (fun pieces closed hshape chars ended hmem offset => ?_) offset
    have hlt := Match.length_lt_of_splice hshape hmem
    rw [List.length_cons] at hlt
    exact Token.readWithin_eq_readWithin (by omega) (Nat.le_refl _) offset
  simp only [next?, hmatch]

/-- Reads so many tokens, or as many as are left. -/
def pull : Nat → Lexer → List Token × Lexer
  | 0, l => ([], l)
  | k + 1, l =>
      match l.next? with
      | none => ([], l)
      | some (t, l) =>
          let (ts, l) := pull k l
          (t :: ts, l)

/-- The tokens that are read one by one are the first ones of all that are left, and the errors noted
on the way are those of the text that they make up. -/
theorem pull_eq (k : Nat) (l : Lexer) :
    (l.pull k).1 = (Token.readAll l.offset l.rest).tokens.take k ∧
      ∃ front, front <+: l.rest ∧ (Token.readAll l.offset front).tokens = (l.pull k).1 ∧
        (l.pull k).2.errors = l.errors ++ (Token.readAll l.offset front).errors := by
  induction k generalizing l with
  | zero => exact ⟨rfl, [], List.nil_prefix, rfl, (List.append_nil _).symm⟩
  | succ k ih =>
    obtain ⟨rest, offset, errors⟩ := l
    cases rest with
    | nil => exact ⟨rfl, [], List.nil_prefix, rfl, (List.append_nil _).symm⟩
    | cons c cs =>
      simp only [pull, next?_cons]
      obtain ⟨htake, more, ⟨back, hrest⟩, htokens, herrors⟩ := ih
        ⟨(Match.longest c cs).rest,
          (Token.ofMatch Token.readAll offset (Match.longest c cs)).1.span.stop,
          errors ++ (Token.ofMatch Token.readAll offset (Match.longest c cs)).2⟩
      obtain ⟨front, rfl, hcut⟩ := Token.readAll_cut hrest.symm
      have hread := (hcut offset).1
      refine ⟨?_, c :: front, ⟨back, rfl⟩, ?_, ?_⟩
      · rw [Token.readAll_cons, htake]
        rfl
      · rw [hread, ← htokens]
        rfl
      · rw [hread, herrors]
        simp [Lexed.cons]

/-- A source that starts at a later offset is read as the same tokens, which end later too. -/
theorem finish_ofSource_eq_shift (source : String) (base : Nat) :
    (ofSource source base).finish = (tokenize source).shift base := by
  have hread := Token.readAll_add 0 base source.toList
  rw [Nat.zero_add] at hread
  rw [tokenize, finish_ofSource, finish_ofSource, hread]
  simp [Lexed.shift, Token.endAt, Token.shift, TokenKind.shift, Span.empty, Span.shift,
    Nat.add_comm base]

end Lexer

/-- The source is made up of `p` bytes and others behind them, and its tokens and errors are those of
the one part and then those of the other. -/
def ComesApartAt (source : String) (p : Nat) : Prop :=
  ∃ front back, source = front ++ back ∧ Source.byteLength front.toList = p ∧
    (tokenize source).tokens =
      (tokenize front).tokens.dropLast ++ (tokenize back).tokens.map (Token.shift p) ∧
    (tokenize source).errors =
      (tokenize front).errors ++ (tokenize back).errors.map (LexicalError.shift p)

/-- The source comes apart wherever its tokens do. -/
theorem comesApartAt_of_append {source : String} {ts us : List Token}
    (h : (Token.readAll 0 source.toList).tokens = ts ++ us) {p : Nat}
    (hp : ∀ front, (Token.readAll 0 front).tokens = ts → Source.byteLength front = p) :
    ComesApartAt source p := by
  obtain ⟨front, back, hsource, hfront, hback, herrors⟩ := Token.readAll_append h
  have hlength := hp front hfront
  have hshift := Token.readAll_add 0 p back
  rw [Nat.zero_add] at hshift
  rw [Nat.zero_add, hlength, hshift] at hback herrors
  have hend : Source.byteLength source.toList = p + Source.byteLength back := by
    rw [hsource, Source.byteLength_append, hlength]
  refine ⟨String.ofList front, String.ofList back, ?_, by simpa using hlength, ?_, ?_⟩
  · rw [← String.ofList_append, ← hsource, String.ofList_toList]
  · rw [tokenize, tokenize, tokenize, Lexer.finish_ofSource, Lexer.finish_ofSource,
      Lexer.finish_ofSource, List.dropLast_concat, h, ← hback]
    simp [hfront, Lexed.shift, Token.endAt, Token.shift, TokenKind.shift, Span.empty, Span.shift,
      hend, Nat.add_comm p]
  · rw [tokenize, tokenize, tokenize, Lexer.finish_ofSource, Lexer.finish_ofSource,
      Lexer.finish_ofSource, herrors]
    simp [Lexed.shift]

/-- Reading is compositional where a token ends: the source may be cut there.  The offset at which it
starts only moves its tokens and errors, and the errors noted after some tokens have been read are
those of the text that these make up. -/
theorem tokenize_at_boundary (source : String) (p : Nat)
    (hp : p = 0 ∨ ∃ t ∈ (tokenize source).tokens, t.span.stop = p) :
    ComesApartAt source p ∧
      (∀ base, (Lexer.ofSource source base).finish = (tokenize source).shift base) ∧
      ∀ base k,
        let pulled := (Lexer.ofSource source base).pull k
        pulled.1 = (Lexer.ofSource source base).finish.tokens.dropLast.take k ∧
          pulled.2.errors =
            (Lexer.ofSource (String.ofList (pulled.1.flatMap (·.text.toList))) base).finish.errors := by
  refine ⟨?_, Lexer.finish_ofSource_eq_shift source, fun base k => ?_⟩
  · have hspells := spells_readAll source.toList 0 (List.Subset.refl _)
    have hspells' (front : List Char) := spells_readAll front 0 (List.Subset.refl _)
    rcases hp with rfl | ⟨t, ht, rfl⟩
    · refine comesApartAt_of_append (List.nil_append _).symm fun front hfront => ?_
      rw [← (hspells' front).flatMap_text, hfront]
      rfl
    · rw [tokenize, Lexer.finish_ofSource, List.mem_append, List.mem_singleton] at ht
      rcases ht with ht | rfl
      · obtain ⟨ts, us, hts⟩ := List.append_of_mem ht
        rw [List.append_cons] at hts
        refine comesApartAt_of_append hts fun front hfront => ?_
        -- the last token ends where its text does
        have hchain := (hspells' front).isChain_span.1
        rw [hfront, List.append_assoc, List.singleton_append, List.isChain_append_cons_cons] at hchain
        exact (hchain.2.1.trans (Nat.zero_add _)).symm
      · refine comesApartAt_of_append (List.append_nil _).symm fun front hfront => ?_
        rw [← (hspells' front).flatMap_text, hfront, hspells.flatMap_text]
        exact (Nat.zero_add _).symm
  · obtain ⟨htake, front, -, htokens, herrors⟩ := Lexer.pull_eq k (Lexer.ofSource source base)
    have htext : ((Lexer.ofSource source base).pull k).1.flatMap (·.text.toList) = front := by
      rw [← htokens]
      exact (spells_readAll front base (List.Subset.refl _)).flatMap_text
    refine ⟨by rw [Lexer.finish_ofSource, List.dropLast_concat, htake]; rfl, ?_⟩
    rw [htext, Lexer.finish_ofSource, herrors, String.toList_ofList]
    rfl

/-- Behind a string with a splice the source `f"a{"é"}" \` comes apart; the backslash begins no token,
which is an error of the second part. -/
theorem tokenize_at_boundary_splice :
    let source := "f\"a\x7b\"é\"\x7d\" \\"
    (10 = 0 ∨ ∃ t ∈ (tokenize source).tokens, t.span.stop = 10) ∧ ComesApartAt source 10 ∧
      ((Lexer.ofSource source 3).pull 2).2.errors = [] ∧
      ((Lexer.ofSource source 3).pull 3).2.errors = [⟨.unexpectedChar '\\', ⟨14, 15⟩⟩] := by
  intro source
  have hend : 10 = 0 ∨ ∃ t ∈ (tokenize source).tokens, t.span.stop = 10 := by decide +kernel
  have hparts := tokenize_at_boundary source 10 hend
  refine ⟨hend, hparts.1, (hparts.2.2 3 2).2.trans ?_, (hparts.2.2 3 3).2.trans ?_⟩ <;> decide +kernel

end ActorFrontend
