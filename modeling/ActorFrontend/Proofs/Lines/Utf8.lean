import ActorFrontend.Source.Bytes

/-!
# The bytes of a text

The UTF-8 form of a text, byte by byte.  An ASCII character is one byte, its code; the bytes of any
other character are all 128 or more, so that no byte of it can be taken for an ASCII character.
-/

namespace ActorFrontend.Source

/-- The bytes of a run of characters. -/
def utf8 (cs : List Char) : List UInt8 := cs.flatMap String.utf8EncodeChar

@[simp] theorem utf8_nil : utf8 [] = [] := rfl

@[simp] theorem utf8_cons (c : Char) (cs : List Char) :
    utf8 (c :: cs) = String.utf8EncodeChar c ++ utf8 cs := rfl

@[simp] theorem utf8_append (as bs : List Char) : utf8 (as ++ bs) = utf8 as ++ utf8 bs :=
  List.flatMap_append

@[simp] theorem length_utf8 (cs : List Char) : (utf8 cs).length = byteLength cs := by
  induction cs with
  | nil => rfl
  | cons c cs ih => simp [ih]

/-- The bytes of a string are those of its characters. -/
theorem utf8_toList (s : String) : utf8 s.toList = s.toByteArray.data.toList := by
  have h : (String.ofList s.toList).toByteArray = s.toList.utf8Encode := String.toByteArray_ofList
  rw [String.ofList_toList] at h
  rw [h]
  exact List.toList_data_toByteArray.symm

@[simp] theorem byteLength_toList (s : String) : byteLength s.toList = s.utf8ByteSize := by
  rw [← length_utf8, utf8_toList, Array.length_toList]
  rfl

/-! ## ASCII characters -/

/-- The byte of a character that takes one byte only. -/
def asciiByte (c : Char) : UInt8 := UInt8.ofNat c.toNat

theorem utf8EncodeChar_of_ascii {c : Char} (h : c.toNat ≤ 127) :
    String.utf8EncodeChar c = [asciiByte c] := by
  have hval : c.val.toNat ≤ 127 := h
  rw [String.utf8EncodeChar, if_pos hval]
  rfl

theorem toNat_asciiByte {c : Char} (h : c.toNat ≤ 127) : (asciiByte c).toNat = c.toNat := by
  show c.toNat % 256 = c.toNat
  omega

/-- ASCII characters with the same byte are the same. -/
theorem asciiByte_inj {c d : Char} (hc : c.toNat ≤ 127) (hd : d.toNat ≤ 127) :
    asciiByte c = asciiByte d ↔ c = d := by
  constructor
  · intro h
    have hnat : c.toNat = d.toNat := by rw [← toNat_asciiByte hc, h, toNat_asciiByte hd]
    exact Char.toNat_inj.1 hnat
  · exact congrArg asciiByte

/-- The bytes of a character that is not ASCII. -/
theorem le_of_mem_utf8EncodeChar {c : Char} (h : 127 < c.toNat) {b : UInt8}
    (hb : b ∈ String.utf8EncodeChar c) : 128 ≤ b.toNat := by
  have hval : ¬ c.val.toNat ≤ 127 := Nat.not_le.2 h
  simp only [String.utf8EncodeChar, if_neg hval] at hb
  split at hb <;> try split at hb
  all_goals
    simp only [List.mem_cons, List.not_mem_nil, or_false] at hb
    rcases hb with rfl | rfl | rfl | rfl <;> simp only [UInt8.toNat_ofNat'] <;> omega

theorem utf8_cons_of_ascii {c : Char} (h : c.toNat ≤ 127) (cs : List Char) :
    utf8 (c :: cs) = asciiByte c :: utf8 cs := by
  rw [utf8_cons, utf8EncodeChar_of_ascii h, List.singleton_append]

/-- A byte of 128 or more is that of no ASCII character. -/
theorem ne_asciiByte {b : UInt8} {d : Char} (h : 128 ≤ b.toNat) (hd : d.toNat ≤ 127) :
    b ≠ asciiByte d := by
  rintro rfl
  rw [toNat_asciiByte hd] at h
  omega

/-- Behind the first byte of a character there are only bytes of 128 or more. -/
theorem exists_utf8EncodeChar (c : Char) :
    ∃ b bytes, String.utf8EncodeChar c = b :: bytes ∧ ∀ x ∈ bytes, 128 ≤ x.toNat := by
  by_cases hc : c.toNat ≤ 127
  · exact ⟨asciiByte c, [], utf8EncodeChar_of_ascii hc, nofun⟩
  · cases hbytes : String.utf8EncodeChar c with
    | nil =>
      have hlength := String.length_utf8EncodeChar c
      have hpos := c.utf8Size_pos
      rw [hbytes, List.length_nil] at hlength
      omega
    | cons b bytes =>
      have hhigh : 127 < c.toNat := Nat.lt_of_not_le hc
      refine ⟨b, bytes, rfl, fun x hx => le_of_mem_utf8EncodeChar hhigh ?_⟩
      rw [hbytes]
      exact List.mem_cons_of_mem _ hx

/-- Only the ASCII character itself has its byte among its bytes. -/
theorem mem_utf8EncodeChar_iff {c d : Char} (hd : d.toNat ≤ 127) :
    asciiByte d ∈ String.utf8EncodeChar c ↔ c = d := by
  by_cases hc : c.toNat ≤ 127
  · rw [utf8EncodeChar_of_ascii hc, List.mem_singleton, asciiByte_inj hd hc]
    exact eq_comm
  · constructor
    · intro h
      have hle := le_of_mem_utf8EncodeChar (by omega) h
      rw [toNat_asciiByte hd] at hle
      omega
    · rintro rfl
      exact absurd hd hc

theorem ne_asciiByte_of_mem {b : UInt8} {c d : Char} (hb : b ∈ String.utf8EncodeChar c)
    (hd : d.toNat ≤ 127) (h : c ≠ d) : b ≠ asciiByte d := by
  rintro rfl
  exact h ((mem_utf8EncodeChar_iff hd).1 hb)

/-- A text has the byte of an ASCII character exactly where it has the character. -/
theorem mem_utf8_iff {cs : List Char} {d : Char} (hd : d.toNat ≤ 127) :
    asciiByte d ∈ utf8 cs ↔ d ∈ cs := by
  simp [utf8, List.mem_flatMap, mem_utf8EncodeChar_iff hd]

end ActorFrontend.Source
