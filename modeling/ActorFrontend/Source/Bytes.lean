/-!
# Byte positions in text

Every offset of this library counts bytes of the UTF-8 form of a text.  A text is worked on as
its list of characters, and a position is meaningful only where a character starts or the text
ends: cutting anywhere else has no answer.
-/

namespace ActorFrontend.Source

/-- The number of bytes that a run of characters takes. -/
def byteLength : List Char → Nat
  | [] => 0
  | c :: cs => c.utf8Size + byteLength cs

/-- What follows the first `n` bytes, if a character ends there. -/
def dropBytes? : Nat → List Char → Option (List Char)
  | 0, cs => some cs
  | _ + 1, [] => none
  | n + 1, c :: cs => if c.utf8Size ≤ n + 1 then dropBytes? (n + 1 - c.utf8Size) cs else none

/-- The characters that make up the first `n` bytes, if a character ends there. -/
def takeBytes? : Nat → List Char → Option (List Char)
  | 0, _ => some []
  | _ + 1, [] => none
  | n + 1, c :: cs =>
      if c.utf8Size ≤ n + 1 then (takeBytes? (n + 1 - c.utf8Size) cs).map (c :: ·) else none

/-- The characters from byte `start` up to byte `stop`, if both are positions of the text. -/
def slice? (start stop : Nat) (cs : List Char) : Option (List Char) :=
  if start ≤ stop then (dropBytes? start cs).bind (takeBytes? (stop - start)) else none

@[simp] theorem byteLength_nil : byteLength [] = 0 := rfl

@[simp] theorem byteLength_cons (c : Char) (cs : List Char) :
    byteLength (c :: cs) = c.utf8Size + byteLength cs := rfl

@[simp] theorem byteLength_append (as bs : List Char) :
    byteLength (as ++ bs) = byteLength as + byteLength bs := by
  induction as with
  | nil => simp
  | cons a as ih => simp [ih, Nat.add_assoc]

theorem byteLength_pos {cs : List Char} (h : cs ≠ []) : 0 < byteLength cs := by
  cases cs with
  | nil => exact absurd rfl h
  | cons c cs =>
    have hpos := c.utf8Size_pos
    rw [byteLength_cons]
    omega

/-- What follows a run of characters is found by the length of the run. -/
theorem dropBytes?_append (as bs : List Char) : dropBytes? (byteLength as) (as ++ bs) = some bs := by
  induction as with
  | nil => simp [dropBytes?]
  | cons a as ih =>
    obtain ⟨n, hn⟩ := Nat.exists_eq_succ_of_ne_zero (Nat.ne_of_gt a.utf8Size_pos)
    have hlen : byteLength (a :: as) = (n + byteLength as) + 1 := by simp [hn]; omega
    rw [hlen, List.cons_append, dropBytes?, if_pos (by omega), hn]
    simpa [Nat.add_right_comm] using ih

theorem dropBytes?_eq_some_iff {n : Nat} {cs rest : List Char} :
    dropBytes? n cs = some rest ↔ ∃ front, cs = front ++ rest ∧ byteLength front = n := by
  constructor
  · intro h
    fun_induction dropBytes? n cs with
    | case1 => exact ⟨[], by simp_all⟩
    | case2 => simp at h
    | case3 n c cs hc ih =>
      obtain ⟨front, rfl, hlen⟩ := ih h
      exact ⟨c :: front, rfl, by simp; omega⟩
    | case4 => simp at h
  · rintro ⟨front, rfl, rfl⟩
    exact dropBytes?_append front rest

theorem takeBytes?_append (as bs : List Char) : takeBytes? (byteLength as) (as ++ bs) = some as := by
  induction as with
  | nil => simp [takeBytes?]
  | cons a as ih =>
    obtain ⟨n, hn⟩ := Nat.exists_eq_succ_of_ne_zero (Nat.ne_of_gt a.utf8Size_pos)
    have hlen : byteLength (a :: as) = (n + byteLength as) + 1 := by simp [hn]; omega
    rw [hlen, List.cons_append, takeBytes?, if_pos (by omega), hn]
    simpa [Nat.add_right_comm] using ih

theorem takeBytes?_eq_some_iff {n : Nat} {cs front : List Char} :
    takeBytes? n cs = some front ↔ ∃ rest, cs = front ++ rest ∧ byteLength front = n := by
  constructor
  · intro h
    fun_induction takeBytes? n cs generalizing front with
    | case1 cs => simp_all
    | case2 => simp at h
    | case3 n c cs hc ih =>
      obtain ⟨tail, htail, rfl⟩ := Option.map_eq_some_iff.1 h
      obtain ⟨rest, rfl, hlen⟩ := ih htail
      exact ⟨rest, rfl, by simp; omega⟩
    | case4 => simp at h
  · rintro ⟨rest, rfl, rfl⟩
    exact takeBytes?_append front rest

/-- A slice is what stands between the characters before it and those after it. -/
theorem slice?_eq_some_iff {start stop : Nat} {cs mid : List Char} :
    slice? start stop cs = some mid ↔
      ∃ front back, cs = front ++ mid ++ back ∧
        byteLength front = start ∧ start + byteLength mid = stop := by
  unfold slice?
  split
  case isTrue hle =>
    simp only [Option.bind_eq_some_iff, dropBytes?_eq_some_iff, takeBytes?_eq_some_iff]
    constructor
    · rintro ⟨_, ⟨front, rfl, hfront⟩, back, rfl, hmid⟩
      exact ⟨front, back, by simp, hfront, by omega⟩
    · rintro ⟨front, back, rfl, hfront, hmid⟩
      exact ⟨mid ++ back, ⟨front, by simp, hfront⟩, back, rfl, by omega⟩
  case isFalse hgt =>
    constructor
    · simp
    · rintro ⟨_, _, _, _, hmid⟩
      omega

end ActorFrontend.Source
