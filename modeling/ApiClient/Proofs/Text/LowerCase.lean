import ApiClient.Text.CaseMap
import Mathlib

/-!
# Lower case and ASCII

Lower case leaves no ASCII capital in a text, whatever characters it comes from
(`isUpper_of_mem_toLower`), it makes no text empty (`toLower_ne_empty`), and it leaves the ASCII
characters that are no capitals as they are (`toLower_of_isSmall`).
-/

namespace ApiClient.Text

/-! ## Runs -/

/-- Runs that begin and lead beyond a bound leave all code points up to there alone. -/
theorem shiftCase_eq_or_lt {runs : List CaseRun} {bound : Nat}
    (h : ∀ r ∈ runs, bound < r.first ∧ (bound : Int) < r.first + r.shift) (n : Nat) :
    shiftCase runs n = n ∨ bound < n ∧ bound < shiftCase runs n := by
  induction runs with
  | nil => exact Or.inl rfl
  | cons r rest ih =>
    obtain ⟨hfirst, himage⟩ := h r List.mem_cons_self
    rw [shiftCase]
    split_ifs
    · exact Or.inl rfl
    · exact Or.inr (by omega)
    · exact Or.inl rfl
    · exact ih fun r hr => h r (List.mem_cons_of_mem _ hr)

/-- The first run takes the ASCII capitals away, and the others lead beyond them. -/
theorem shiftCase_lowerRuns_lt (n : Nat) :
    shiftCase lowerRuns n < 65 ∨ 90 < shiftCase lowerRuns n := by
  have hruns : ∀ r ∈ lowerRuns.tail, 90 < r.first ∧ ((90 : Nat) : Int) < r.first + r.shift := by
    decide +kernel
  have hcons : lowerRuns = ⟨0x41, 0x5a, 1, 32⟩ :: lowerRuns.tail := rfl
  rw [hcons, shiftCase]
  dsimp only
  split_ifs with hbelow hcapital hstep
  · exact Or.inl hbelow
  · omega
  · omega
  · rcases shiftCase_eq_or_lt hruns n with h | ⟨-, h⟩
    · omega
    · exact Or.inr h

/-! ## Capitals -/

theorem isUpper_eq_false_iff {c : Char} : c.isUpper = false ↔ c.toNat < 65 ∨ 90 < c.toNat := by
  have hfirst : 'A'.val.toNat = 65 := rfl
  have hlast : 'Z'.val.toNat = 90 := rfl
  have hc : c.toNat = c.val.toNat := rfl
  simp only [Char.isUpper, decide_eq_false_iff_not, UInt32.le_iff_toNat_le, ge_iff_le]
  omega

theorem isUpper_ofNat_eq_false {n : Nat} (h : n < 65 ∨ 90 < n) : (Char.ofNat n).isUpper = false := by
  by_cases hn : n.isValidChar
  · rw [isUpper_eq_false_iff, Char.toNat_ofNat, if_pos hn]
    exact h
  · rw [Char.ofNat, dif_neg hn]
    rfl

theorem isUpper_of_mem_lowerChar {before after : List Char} {c d : Char}
    (h : d ∈ lowerChar before c after) : d.isUpper = false := by
  rw [lowerChar] at h
  split_ifs at h with hsigma hfinal hdotted
  · rw [List.mem_singleton.1 h]
    decide
  · rw [List.mem_singleton.1 h]
    decide
  · rcases List.mem_cons.1 h with rfl | h
    · decide
    · rw [List.mem_singleton.1 h]
      exact isUpper_ofNat_eq_false (by decide)
  · rw [List.mem_singleton.1 h]
    exact isUpper_ofNat_eq_false (shiftCase_lowerRuns_lt c.toNat)

theorem isUpper_of_mem_lowerFrom {before cs : List Char} {d : Char} (h : d ∈ lowerFrom before cs) :
    d.isUpper = false := by
  induction cs generalizing before with
  | nil => cases h
  | cons c rest ih =>
    rw [lowerFrom] at h
    rcases List.mem_append.1 h with h | h
    · exact isUpper_of_mem_lowerChar h
    · exact ih h

theorem isUpper_of_mem_toLower {s : String} {d : Char} (h : d ∈ (toLower s).toList) :
    d.isUpper = false := by
  rw [toLower, String.toList_ofList] at h
  exact isUpper_of_mem_lowerFrom h

theorem lowerChar_ne_nil (before : List Char) (c : Char) (after : List Char) :
    lowerChar before c after ≠ [] := by
  rw [lowerChar]
  split_ifs <;> exact List.cons_ne_nil _ _

theorem toLower_ne_empty {s : String} (h : s.toList ≠ []) : (toLower s).toList ≠ [] := by
  obtain ⟨c, rest, hs⟩ := List.exists_cons_of_ne_nil h
  rw [toLower, String.toList_ofList, hs, lowerFrom]
  exact List.append_ne_nil_of_left_ne_nil (lowerChar_ne_nil _ _ _) _

/-! ## Characters that stay -/

/-- An ASCII character that is no capital. -/
def IsSmall (c : Char) : Prop :=
  c.toNat < 128 ∧ c.isUpper = false

theorem lowerChar_of_isSmall {c : Char} (h : IsSmall c) (before after : List Char) :
    lowerChar before c after = [c] := by
  obtain ⟨hlt, hupper⟩ := h
  have hall : ∀ n < 128, (Char.ofNat n).isUpper = true ∨ Char.ofNat n ≠ 'Σ' ∧
      Char.ofNat n ≠ 'İ' ∧ shiftCase lowerRuns n = n := by decide
  have hc := hall c.toNat hlt
  rw [Char.ofNat_toNat] at hc
  obtain ⟨hsigma, hdotted, hshift⟩ := hc.resolve_left (by simp [hupper])
  rw [lowerChar, if_neg hsigma, if_neg hdotted, hshift, Char.ofNat_toNat]

theorem lowerFrom_of_isSmall {cs : List Char} (h : ∀ c ∈ cs, IsSmall c) (before : List Char) :
    lowerFrom before cs = cs := by
  induction cs generalizing before with
  | nil => rfl
  | cons c rest ih =>
    obtain ⟨hc, hrest⟩ := List.forall_mem_cons.1 h
    rw [lowerFrom, lowerChar_of_isSmall hc, ih hrest, List.singleton_append]

theorem toLower_of_isSmall {s : String} (h : ∀ c ∈ s.toList, IsSmall c) : toLower s = s := by
  rw [toLower, lowerFrom_of_isSmall h, String.ofList_toList]

end ApiClient.Text
