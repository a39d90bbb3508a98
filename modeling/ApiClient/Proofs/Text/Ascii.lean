import Mathlib

/-!
# ASCII texts

A text of ASCII characters has one byte per character. `chars` reads such a text off its bytes,
which makes texts of the size of a template cheap to compute with, and gives the same characters as
`String.toList` (`chars_eq`).
-/

namespace ApiClient.Text

/-- The bytes of a text. -/
def bytes (s : String) : List UInt8 :=
  s.toByteArray.data.toList

/-- The character of a byte. -/
def charOfByte (b : UInt8) : Char :=
  Char.ofNat b.toNat

/-- The characters of a text, read off its bytes if it is ASCII. -/
def chars (s : String) : List Char :=
  if (bytes s).all (· < 128) then (bytes s).map charOfByte else s.toList

/-- A character that takes more than one byte has a first byte that is not ASCII. -/
theorem exists_byte_of_lt {c : Char} (h : 127 < c.val.toNat) :
    ∃ n, 128 ≤ n ∧ n < 256 ∧ UInt8.ofNat n ∈ String.utf8EncodeChar c := by
  rw [String.utf8EncodeChar, if_neg (Nat.not_le.2 h)]
  split
  · exact ⟨_, by omega, by omega, List.mem_cons_self⟩
  · split
    · exact ⟨_, by omega, by omega, List.mem_cons_self⟩
    · exact ⟨_, by omega, by omega, List.mem_cons_self⟩

theorem utf8EncodeChar_of_lt {c : Char} (h : ∀ b ∈ String.utf8EncodeChar c, b < 128) :
    String.utf8EncodeChar c = [UInt8.ofNat c.toNat] ∧ c.toNat < 128 := by
  have hc : c.val.toNat ≤ 127 := by
    by_contra hc
    obtain ⟨n, hlow, hhigh, hn⟩ := exists_byte_of_lt (Nat.not_le.1 hc)
    have hlt := UInt8.lt_iff_toNat_lt.1 (h _ hn)
    rw [UInt8.toNat_ofNat', Nat.mod_eq_of_lt (by omega)] at hlt
    exact absurd hlt (Nat.not_lt.2 hlow)
  refine ⟨?_, Nat.lt_succ_of_le hc⟩
  rw [String.utf8EncodeChar, if_pos hc]
  rfl

theorem map_charOfByte {cs : List Char}
    (h : ∀ b ∈ cs.flatMap String.utf8EncodeChar, b < 128) :
    (cs.flatMap String.utf8EncodeChar).map charOfByte = cs := by
  induction cs with
  | nil => rfl
  | cons c rest ih =>
    rw [List.flatMap_cons] at h ⊢
    obtain ⟨hc, hlt⟩ := utf8EncodeChar_of_lt fun b hb => h b (List.mem_append_left _ hb)
    rw [List.map_append, ih fun b hb => h b (List.mem_append_right _ hb), hc, List.map_singleton]
    have hbyte : (UInt8.ofNat c.toNat).toNat = c.toNat := by
      rw [UInt8.toNat_ofNat', Nat.mod_eq_of_lt (by omega)]
    rw [charOfByte, hbyte, Char.ofNat_toNat, List.singleton_append]

theorem bytes_eq (s : String) : bytes s = s.toList.flatMap String.utf8EncodeChar := by
  have hs : s.toByteArray = s.toList.utf8Encode := by
    rw [← String.toByteArray_ofList, String.ofList_toList]
  rw [bytes, hs, List.utf8Encode, List.data_toByteArray]

theorem chars_eq (s : String) : chars s = s.toList := by
  rw [chars]
  split
  · rename_i h
    rw [bytes_eq] at h ⊢
    exact map_charOfByte fun b hb => of_decide_eq_true (List.all_eq_true.1 h b hb)
  · rfl

end ApiClient.Text
