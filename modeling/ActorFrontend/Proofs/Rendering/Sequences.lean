import Mathlib.Data.List.SplitBy
import ActorFrontend.Proofs.Lines.Edits

/-!
# Escape sequences

Coloured text is text with escape sequences in it.  A text without escape characters is got back when
the sequences are taken out again.
-/

namespace ActorFrontend

/-- The character that begins a sequence. -/
def escape : Char := '\x1b'

namespace StyledText

/-- What the codes of a sequence are written with. -/
def isParameter (c : Char) : Bool := c.isDigit || c == ';'

/-- What follows codes and the letter `m`. -/
def behindCodes? : List Char → Option (List Char)
  | [] => none
  | c :: cs => if isParameter c then behindCodes? cs else if c = 'm' then some cs else none

/-- What follows a sequence with which a text begins: an escape character, a bracket, codes and the
letter `m`. -/
def behindSequence? : List Char → Option (List Char)
  | '\x1b' :: '[' :: cs => behindCodes? cs
  | _ => none

theorem length_behindCodes? {cs rest : List Char} (h : behindCodes? cs = some rest) :
    rest.length < cs.length := by
  fun_induction behindCodes? cs with
  | case1 => cases h
  | case2 c cs _ ih => exact Nat.lt_succ_of_lt (ih h)
  | case3 cs =>
    rw [Option.some.inj h]
    exact Nat.lt_succ_self _
  | case4 => cases h

theorem length_behindSequence? {cs rest : List Char} (h : behindSequence? cs = some rest) :
    rest.length < cs.length := by
  unfold behindSequence? at h
  split at h
  case h_1 cs =>
    have hlt := length_behindCodes? h
    simp only [List.length_cons]
    omega
  case h_2 => cases h

/-- The text without its sequences. -/
def withoutSequences : List Char → List Char
  | [] => []
  | c :: cs =>
      match _h : behindSequence? (c :: cs) with
      | some rest => withoutSequences rest
      | none => c :: withoutSequences cs
termination_by cs => cs.length
decreasing_by
  · exact length_behindSequence? _h
  · exact Nat.lt_succ_self _

/-! ## Taking sequences out -/

theorem withoutSequences_nil : withoutSequences [] = [] := by rw [withoutSequences]

theorem withoutSequences_of_some {cs rest : List Char} (h : behindSequence? cs = some rest) :
    withoutSequences cs = withoutSequences rest := by
  cases cs with
  | nil => cases h
  | cons c cs =>
    rw [withoutSequences]
    split
    case h_1 rest' h' => rw [Option.some.inj (h.symm.trans h')]
    case h_2 h' => rw [h] at h'; cases h'

theorem withoutSequences_of_none {c : Char} {cs : List Char}
    (h : behindSequence? (c :: cs) = none) :
    withoutSequences (c :: cs) = c :: withoutSequences cs := by
  rw [withoutSequences]
  split
  case h_1 rest h' => rw [h] at h'; cases h'
  case h_2 => rfl

theorem behindSequence?_of_ne {c : Char} (hc : c ≠ escape) (cs : List Char) :
    behindSequence? (c :: cs) = none := by
  unfold behindSequence?
  split
  case h_1 heq => exact absurd (List.cons.inj heq).1 hc
  case h_2 => rfl

/-- Text without escape characters stays. -/
theorem withoutSequences_append_of_not_mem {as : List Char} (h : escape ∉ as) (cs : List Char) :
    withoutSequences (as ++ cs) = as ++ withoutSequences cs := by
  induction as with
  | nil => rfl
  | cons a as ih =>
    obtain ⟨ha, has⟩ := not_or.1 (mt List.mem_cons.2 h)
    rw [List.cons_append, withoutSequences_of_none (behindSequence?_of_ne (Ne.symm ha) _), ih has,
      List.cons_append]

theorem withoutSequences_of_not_mem {as : List Char} (h : escape ∉ as) :
    withoutSequences as = as := by
  have happend := withoutSequences_append_of_not_mem h []
  rwa [List.append_nil, withoutSequences_nil, List.append_nil] at happend

theorem behindCodes?_append {codes : List Char} (h : ∀ c ∈ codes, isParameter c = true)
    (cs : List Char) : behindCodes? (codes ++ 'm' :: cs) = some cs := by
  induction codes with
  | nil => rfl
  | cons c codes ih =>
    obtain ⟨hc, hcodes⟩ := List.forall_mem_cons.1 h
    rw [List.cons_append, behindCodes?, if_pos hc, ih hcodes]

/-- A sequence goes. -/
theorem withoutSequences_sequence {codes : List Char} (h : ∀ c ∈ codes, isParameter c = true)
    (cs : List Char) :
    withoutSequences (escape :: '[' :: (codes ++ 'm' :: cs)) = withoutSequences cs :=
  withoutSequences_of_some (behindCodes?_append h cs)

/-- A colon is part of no sequence. -/
theorem behindCodes?_append_colon (as cs : List Char) :
    behindCodes? (as ++ ':' :: cs) = (behindCodes? as).map (· ++ ':' :: cs) := by
  induction as with
  | nil => rfl
  | cons a as ih =>
    rw [List.cons_append, behindCodes?, behindCodes?, ih]
    split
    · rfl
    · split <;> rfl

theorem behindSequence?_append_colon (as cs : List Char) :
    behindSequence? (as ++ ':' :: cs) = (behindSequence? as).map (· ++ ':' :: cs) := by
  unfold behindSequence?
  split
  case h_1 rest heq =>
    match as, heq with
    | a :: b :: as, heq =>
      obtain ⟨rfl, htail⟩ := List.cons.inj heq
      obtain ⟨rfl, rfl⟩ := List.cons.inj htail
      exact behindCodes?_append_colon as cs
  case h_2 hne =>
    split
    case h_1 rest => exact absurd rfl (hne _)
    case h_2 => rfl

/-- A text may be cut in front of a colon. -/
theorem withoutSequences_append_colon (as cs : List Char) :
    withoutSequences (as ++ ':' :: cs) = withoutSequences as ++ withoutSequences (':' :: cs) := by
  fun_induction withoutSequences as with
  | case1 => rfl
  | case2 a as rest h ih =>
    -- a sequence that is complete in front of the colon is the same one with the colon behind
    have hbehind := behindSequence?_append_colon (a :: as) cs
    rw [h, Option.map_some] at hbehind
    rw [withoutSequences_of_some hbehind, ih]
  | case3 a as h ih =>
    -- and one that is incomplete there is not completed by what follows
    have hbehind := behindSequence?_append_colon (a :: as) cs
    rw [h, Option.map_none] at hbehind
    have hstays : withoutSequences (a :: (as ++ ':' :: cs)) =
        a :: withoutSequences (as ++ ':' :: cs) := withoutSequences_of_none hbehind
    rw [List.cons_append, hstays, ih, List.cons_append]

/-! ## Styles -/

/-- The sequence that switches a style on goes. -/
theorem withoutSequences_opening (style : Style) (cs : List Char) :
    withoutSequences (style.opening ++ cs) = withoutSequences cs := by
  obtain ⟨codes, hcodes, hopening⟩ : ∃ codes, (∀ c ∈ codes, isParameter c = true) ∧
      style.opening = escape :: '[' :: (codes ++ ['m']) := by
    cases style with
    | bold => exact ⟨['1'], List.all_eq_true.1 rfl, rfl⟩
    | coloured colour => cases colour <;> exact ⟨['3', _], List.all_eq_true.1 rfl, rfl⟩
    | boldColoured colour =>
      cases colour <;> exact ⟨['1', ';', '3', _], List.all_eq_true.1 rfl, rfl⟩
  rw [hopening, List.cons_append, List.cons_append, List.append_assoc, List.singleton_append]
  exact withoutSequences_sequence hcodes cs

theorem withoutSequences_reset (cs : List Char) :
    withoutSequences (Style.reset ++ cs) = withoutSequences cs := by
  have hdigit : ∀ c ∈ ['0'], isParameter c = true := List.all_eq_true.1 rfl
  exact withoutSequences_sequence hdigit cs

/-- Where nothing switches styles off nothing is switched on again. -/
theorem reopen_of_not_mem (opening : List Char) {cs : List Char} (h : escape ∉ cs) :
    Style.reopen opening cs = cs := by
  fun_induction Style.reopen opening cs with
  | case1 => exact absurd (List.mem_cons_self ..) h
  | case2 c cs _ ih => rw [ih (fun hmem => h (List.mem_cons_of_mem _ hmem))]
  | case3 => rfl

theorem toColoured_append (a b : StyledText) :
    (a ++ b : StyledText).toColoured = a.toColoured ++ b.toColoured := by
  simp only [toColoured, List.map_append, String.join_append]

/-- A text that has no escape characters of its own. -/
def EscapeFree (t : StyledText) : Prop := ∀ run ∈ t, escape ∉ run.text.toList

/-- A text that is got back when the sequences are taken out, of it and of what follows, as far as it
has none of its own. -/
structure Clears (t : StyledText) : Prop where
  fromColoured : ∀ cs, withoutSequences (t.toColoured.toList ++ cs) =
    withoutSequences t.toPlain.toList ++ withoutSequences cs
  fromPlain : ∀ cs, withoutSequences (t.toPlain.toList ++ cs) =
    withoutSequences t.toPlain.toList ++ withoutSequences cs

theorem Clears.nil : Clears [] := by
  have hnone : String.toList (toPlain []) = [] := rfl
  have hnone' : String.toList (toColoured []) = [] := rfl
  constructor <;> intro cs <;>
    rw [hnone, withoutSequences_nil] <;> rfl

theorem Clears.append {a b : StyledText} (ha : a.Clears) (hb : b.Clears) :
    Clears (a ++ b : StyledText) := by
  have hparts : withoutSequences (a ++ b : StyledText).toPlain.toList =
      withoutSequences a.toPlain.toList ++ withoutSequences b.toPlain.toList := by
    rw [toPlain_append, String.toList_append, ha.fromPlain]
  constructor
  · intro cs
    rw [toColoured_append, String.toList_append, List.append_assoc, ha.fromColoured, hb.fromColoured, hparts,
      List.append_assoc]
  · intro cs
    rw [hparts, toPlain_append, String.toList_append, List.append_assoc, ha.fromPlain, hb.fromPlain,
      List.append_assoc]

/-- A run of text in its style. -/
theorem Clears.run {run : Run} (h : escape ∉ run.text.toList) : Clears [run] := by
  have hplain : (toPlain [run]).toList = run.text.toList := by simp [toPlain]
  have hself := withoutSequences_of_not_mem h
  constructor
  · intro cs
    rw [hplain, hself]
    cases hstyle : run.style with
    | none =>
      have hcoloured : (toColoured [run]).toList = run.text.toList := by simp [toColoured, hstyle]
      rw [hcoloured, withoutSequences_append_of_not_mem h]
    | some style =>
      have hcoloured : (toColoured [run]).toList =
          style.opening ++ run.text.toList ++ Style.reset := by
        simp [toColoured, hstyle, Style.wrap, reopen_of_not_mem _ h]
      rw [hcoloured, List.append_assoc, List.append_assoc, withoutSequences_opening,
        withoutSequences_append_of_not_mem h, withoutSequences_reset]
  · intro cs
    rw [hplain, hself, withoutSequences_append_of_not_mem h]

theorem EscapeFree.clears {t : StyledText} (h : t.EscapeFree) : t.Clears := by
  induction t with
  | nil => exact .nil
  | cons run t ih =>
    obtain ⟨hrun, ht⟩ := List.forall_mem_cons.1 h
    exact (Clears.run hrun).append (ih ht)

/-- A text in no style that ends in front of a colon. -/
theorem Clears.colon (text : String) {more : String} (h : escape ∉ more.toList) :
    Clears (plain text ++ plain (":" ++ more)) := by
  have hmore : escape ∉ ':' :: more.toList := by
    rw [List.mem_cons]
    exact not_or.2 ⟨by decide, h⟩
  have hcut (cs : List Char) : withoutSequences (text.toList ++ (':' :: more.toList ++ cs)) =
      withoutSequences (text.toList ++ ':' :: more.toList) ++ withoutSequences cs := by
    rw [List.cons_append, withoutSequences_append_colon, withoutSequences_append_colon,
      ← List.cons_append, withoutSequences_append_of_not_mem hmore, withoutSequences_of_not_mem hmore,
      List.append_assoc]
  have hplain : (toPlain (plain text ++ plain (":" ++ more))).toList =
      text.toList ++ ':' :: more.toList := by
    simp [toPlain_append, toPlain_plain]
  have hcoloured : (toColoured (plain text ++ plain (":" ++ more))).toList =
      text.toList ++ ':' :: more.toList := by
    simp [toColoured, plain]
  constructor
  · intro cs
    rw [hcoloured, hplain, List.append_assoc, hcut]
  · intro cs
    rw [hplain, List.append_assoc, hcut]

/-! ## Texts without escape characters -/

namespace EscapeFree

theorem append {a b : StyledText} (ha : a.EscapeFree) (hb : b.EscapeFree) :
    EscapeFree (a ++ b : StyledText) := List.forall_mem_append.2 ⟨ha, hb⟩

theorem singleton {style : Option Style} {text : String} (h : escape ∉ text.toList) :
    EscapeFree [⟨style, text⟩] := List.forall_mem_singleton.2 h

theorem flatMap {α : Type} {as : List α} {f : α → StyledText} (h : ∀ a ∈ as, (f a).EscapeFree) :
    EscapeFree (as.flatMap f) := by
  intro run hrun
  obtain ⟨a, ha, hrun⟩ := List.mem_flatMap.1 hrun
  exact h a ha run hrun

/-- Such a text is the same without its sequences. -/
theorem withoutSequences_toPlain {t : StyledText} (h : t.EscapeFree) :
    withoutSequences t.toPlain.toList = t.toPlain.toList := by
  refine withoutSequences_of_not_mem ?_
  induction t with
  | nil => exact List.not_mem_nil
  | cons run t ih =>
    obtain ⟨hrun, ht⟩ := List.forall_mem_cons.1 h
    have hplain : (toPlain (run :: t)).toList = run.text.toList ++ (toPlain t).toList := by
      simp [toPlain]
    rw [hplain, List.mem_append]
    exact not_or.2 ⟨hrun, ih ht⟩

end EscapeFree

end StyledText

end ActorFrontend
