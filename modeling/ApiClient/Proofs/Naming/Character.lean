import ApiClient.Dialect.Basic
import ApiClient.Naming.Fresh
import Mathlib

/-!
# The characters of names

Class names are made of ASCII letters, digits and underscores (`isPlainName_className`), which are word
characters (`IsNameChar.isWordChar`).
-/

namespace ApiClient.Naming

/-- An ASCII letter, a digit or an underscore. -/
def IsNameChar (c : Char) : Prop :=
  isAsciiAlphanumeric c = true ∨ c = '_'

instance (c : Char) : Decidable (IsNameChar c) :=
  inferInstanceAs (Decidable (_ ∨ _))

/-- A name of such characters only. -/
def IsPlainName (name : String) : Prop :=
  ∀ c ∈ name.toList, IsNameChar c

theorem toNat_lt_of_isAsciiAlphanumeric {c : Char} (h : isAsciiAlphanumeric c = true) :
    c.toNat < 128 := by
  simp only [isAsciiAlphanumeric, Char.isUpper, Char.isLower, Char.isDigit, Bool.or_eq_true,
    Bool.and_eq_true, decide_eq_true_eq, UInt32.le_iff_toNat_le, ge_iff_le] at h
  have hupper : 'Z'.val.toNat = 90 := rfl
  have hlower : 'z'.val.toNat = 122 := rfl
  have hdigit : '9'.val.toNat = 57 := rfl
  have hc : c.toNat = c.val.toNat := rfl
  omega

/-- What holds of all ASCII characters that may stand in names holds of every one that may. -/
theorem IsNameChar.of_ascii {p : Char → Bool}
    (hp : ∀ n < 128, IsNameChar (Char.ofNat n) → p (Char.ofNat n) = true) {c : Char}
    (h : IsNameChar c) : p c = true := by
  have hlt : c.toNat < 128 := by
    rcases h with h | rfl
    · exact toNat_lt_of_isAsciiAlphanumeric h
    · decide
  have hc := hp c.toNat hlt
  rw [Char.ofNat_toNat] at hc
  exact hc h

theorem IsNameChar.isWordChar {c : Char} (h : IsNameChar c) : Text.isWordChar c = true :=
  h.of_ascii (by decide +kernel)

theorem isPlainName_of_all {name : String} (h : name.toList.all isAsciiAlphanumeric = true) :
    IsPlainName name :=
  fun c hc => Or.inl (List.all_eq_true.1 h c hc)

theorem IsPlainName.append {a b : String} (ha : IsPlainName a) (hb : IsPlainName b) :
    IsPlainName (a ++ b) := by
  intro c hc
  rw [String.toList_append] at hc
  rcases List.mem_append.1 hc with hc | hc
  · exact ha c hc
  · exact hb c hc

theorem isAsciiAlphanumeric_toUpper {c : Char} (h : isAsciiAlphanumeric c = true) :
    isAsciiAlphanumeric c.toUpper = true := by
  by_cases hlower : c.isLower = true
  · have hupper : c.toUpper.isUpper = true := by simp [Char.isAlpha, hlower]
    simp [isAsciiAlphanumeric, hupper]
  · rwa [Char.toUpper_eq_of_not_isLower hlower]

theorem isAsciiAlphanumeric_of_mem_capitalise {c : Char} {fresh : Bool} {cs : List Char}
    (h : c ∈ capitalise fresh cs) : isAsciiAlphanumeric c = true := by
  induction cs generalizing fresh with
  | nil => simp [capitalise] at h
  | cons d rest ih =>
    rw [capitalise] at h
    split at h
    · rename_i hd
      rcases List.mem_cons.1 h with rfl | h
      · split
        · exact isAsciiAlphanumeric_toUpper hd
        · exact hd
      · exact ih h
    · exact ih h

theorem mem_of_mem_guardDigit {c : Char} {cs : List Char} (h : c ∈ guardDigit cs) :
    c = '_' ∨ c ∈ cs := by
  cases cs with
  | nil => exact Or.inr h
  | cons d rest =>
    rw [guardDigit] at h
    split_ifs at h
    · exact List.mem_cons.1 h
    · exact Or.inr h

theorem isPlainName_className (name : String) : IsPlainName (className name) := by
  intro c hc
  rw [className, String.toList_ofList] at hc
  rcases mem_of_mem_guardDigit hc with rfl | hc
  · exact Or.inr rfl
  · exact Or.inl (isAsciiAlphanumeric_of_mem_capitalise hc)

theorem isPlainName_underscore : IsPlainName "_" := by
  have hchars : "_".toList = ['_'] := by decide
  intro c hc
  rw [hchars] at hc
  exact Or.inr (List.mem_singleton.1 hc)

theorem isPlainName_toString (n : Nat) : IsPlainName (toString n) := by
  intro c hc
  rw [Nat.toString_eq_repr, Nat.toList_repr] at hc
  have hdigit : c.isDigit = true := Nat.isDigit_of_mem_toDigits (by decide) (by decide) hc
  exact Or.inl (by simp [isAsciiAlphanumeric, hdigit])

end ApiClient.Naming
