import ApiClient.Proofs.Naming.Scope
import ApiClient.Proofs.Text.LowerCase
import Mathlib

/-!
# The digits of an identifier

The case conventions change letters, drop separators and add underscores, but they keep the ASCII
digits of a name in their order (`digits_identifier`). So a name with different numbers behind it
gives different identifiers (`identifier_append_toString_injective`), however much of the name
itself is lost.
-/

namespace ApiClient

namespace Text

/-! ## Digits -/

/-- The ASCII digits of a text in order. -/
def digits (cs : List Char) : List Char :=
  cs.filter Char.isDigit

@[simp] theorem digits_append (a b : List Char) : digits (a ++ b) = digits a ++ digits b :=
  List.filter_append a b

theorem digits_cons_of_not {c : Char} (h : c.isDigit = false) (cs : List Char) :
    digits (c :: cs) = digits cs :=
  List.filter_cons_of_neg (by simp [h])

@[simp] theorem digits_underscore_cons (cs : List Char) : digits ('_' :: cs) = digits cs :=
  digits_cons_of_not (by decide) cs

theorem digits_cons_congr (c : Char) {a b : List Char} (h : digits a = digits b) :
    digits (c :: a) = digits (c :: b) := by
  rw [← List.singleton_append, digits_append, h, ← digits_append, List.singleton_append]

/-- A character is left as it is, or it is no digit and no digit comes of it. -/
def KeepsDigit (c image : Char) : Prop :=
  image = c ∨ c.isDigit = false ∧ image.isDigit = false

instance (c image : Char) : Decidable (KeepsDigit c image) :=
  inferInstanceAs (Decidable (_ ∨ _))

theorem KeepsDigit.digits_cons {c image : Char} (h : KeepsDigit c image) {a b : List Char}
    (hrest : digits a = digits b) : digits (image :: a) = digits (c :: b) := by
  obtain rfl | ⟨hc, himage⟩ := h
  · exact digits_cons_congr image hrest
  · rw [digits_cons_of_not himage, digits_cons_of_not hc, hrest]

theorem digits_map {f : Char → Char} (h : ∀ c, KeepsDigit c (f c)) (cs : List Char) :
    digits (cs.map f) = digits cs := by
  induction cs with
  | nil => rfl
  | cons c rest ih => exact (h c).digits_cons ih

theorem digits_eq_self {cs : List Char} (h : ∀ c ∈ cs, c.isDigit = true) : digits cs = cs :=
  List.filter_eq_self.2 h

/-! ## Lower case -/

theorem isDigit_eq_false_of_lt {c : Char} (h : 57 < c.toNat) : c.isDigit = false := by
  have hnine : '9'.val.toNat = 57 := rfl
  have hc : c.toNat = c.val.toNat := rfl
  simp only [Char.isDigit, Bool.and_eq_false_imp, decide_eq_true_eq, decide_eq_false_iff_not,
    UInt32.le_iff_toNat_le]
  omega

theorem isDigit_ofNat_eq_false {n : Nat} (h : 57 < n) : (Char.ofNat n).isDigit = false := by
  by_cases hn : n.isValidChar
  · exact isDigit_eq_false_of_lt (by rwa [Char.toNat_ofNat, if_pos hn])
  · rw [Char.ofNat, dif_neg hn]
    rfl

theorem keepsDigit_lower (c : Char) :
    KeepsDigit c (Char.ofNat (shiftCase lowerRuns c.toNat)) := by
  have hruns : ∀ r ∈ lowerRuns, 57 < r.first ∧ ((57 : Nat) : Int) < r.first + r.shift := by
    decide +kernel
  obtain h | ⟨hc, himage⟩ := shiftCase_eq_or_lt hruns c.toNat
  · exact Or.inl (by rw [h, Char.ofNat_toNat])
  · exact Or.inr ⟨isDigit_eq_false_of_lt hc, isDigit_ofNat_eq_false himage⟩

theorem digits_lowerChar (before : List Char) (c : Char) (after : List Char) :
    digits (lowerChar before c after) = digits [c] := by
  rw [lowerChar]
  split_ifs with hsigma hfinal hdotted
  · subst hsigma
    rfl
  · subst hsigma
    rfl
  · subst hdotted
    decide
  · exact (keepsDigit_lower c).digits_cons rfl

theorem digits_lowerFrom (before cs : List Char) : digits (lowerFrom before cs) = digits cs := by
  induction cs generalizing before with
  | nil => rfl
  | cons c rest ih =>
    rw [lowerFrom, digits_append, digits_lowerChar, ih, ← digits_append, List.singleton_append]

theorem digits_toLower (s : String) : digits (toLower s).toList = digits s.toList := by
  rw [toLower, String.toList_ofList, digits_lowerFrom]

end Text

namespace Naming

open Text

/-! ## Snake case -/

theorem isDigit_eq_false_of_isDelimiter {c : Char} (h : isDelimiter c = true) :
    c.isDigit = false := by
  cases hc : c.isDigit with
  | false => rfl
  | true =>
    have hnot : (!isDelimiter c) = true :=
      IsNameChar.of_ascii (p := fun c => !isDelimiter c) (by decide)
        (Or.inl (by simp [isAsciiAlphanumeric, hc]))
    simp [h] at hnot

theorem digits_partAcronyms (cs : List Char) : digits (partAcronyms cs) = digits cs := by
  fun_induction partAcronyms cs with
  | case1 a b c rest _ ih => exact digits_cons_congr a ((digits_underscore_cons _).trans ih)
  | case2 a b c rest _ ih => exact digits_cons_congr a ih
  | case3 => rfl

theorem digits_partWords (cs : List Char) : digits (partWords cs) = digits cs := by
  fun_induction partWords cs with
  | case1 a b rest _ ih => exact digits_cons_congr a ((digits_underscore_cons _).trans ih)
  | case2 a b rest _ ih => exact digits_cons_congr a ih
  | case3 => rfl

theorem digits_snakeCase (name : String) : digits (snakeCase name).toList = digits name.toList := by
  have hdelimited : ∀ c, KeepsDigit c (if isDelimiter c then '_' else c) := by
    intro c
    split_ifs with hc
    · exact Or.inr ⟨isDigit_eq_false_of_isDelimiter hc, by decide⟩
    · exact Or.inl rfl
  simp only [snakeCase]
  rw [digits_toLower, String.toList_ofList, digits_partWords, digits_partAcronyms,
    digits_map hdelimited]

/-! ## Identifiers -/

theorem digits_guardDigit (cs : List Char) : digits (guardDigit cs) = digits cs := by
  cases cs with
  | nil => rfl
  | cons c rest =>
    rw [guardDigit]
    split
    · exact digits_underscore_cons _
    · rfl

theorem digits_normalize (name : String) : digits (normalize name).toList = digits name.toList := by
  have hkept : ∀ c, KeepsDigit c (if isAsciiAlphanumeric c || c = '_' then c else '_') := by
    intro c
    split_ifs with hc
    · exact Or.inl rfl
    · refine Or.inr ⟨?_, by decide⟩
      simp only [isAsciiAlphanumeric, Bool.or_eq_true, not_or] at hc
      simpa using hc.1.2
  rw [normalize, String.toList_ofList, digits_guardDigit, digits_map hkept]

theorem keepsDigit_toUpper {c : Char} (h : IsNameChar c) : KeepsDigit c c.toUpper :=
  of_decide_eq_true (h.of_ascii (p := fun c => decide (KeepsDigit c c.toUpper)) (by decide))

theorem keepsDigit_toLower {c : Char} (h : IsNameChar c) : KeepsDigit c c.toLower :=
  of_decide_eq_true (h.of_ascii (p := fun c => decide (KeepsDigit c c.toLower)) (by decide))

theorem digits_capitalise (fresh : Bool) (cs : List Char) :
    digits (capitalise fresh cs) = digits cs := by
  induction cs generalizing fresh with
  | nil => cases fresh <;> rfl
  | cons c rest ih =>
    rw [capitalise]
    split_ifs with hc hfresh
    · exact (keepsDigit_toUpper (Or.inl hc)).digits_cons (ih false)
    · exact digits_cons_congr c (ih false)
    · have hdigit : c.isDigit = false := by
        simp only [isAsciiAlphanumeric, Bool.or_eq_true, not_or] at hc
        simpa using hc.2
      rw [ih, digits_cons_of_not hdigit]

theorem digits_className (name : String) : digits (className name).toList = digits name.toList := by
  rw [className, String.toList_ofList, digits_guardDigit, digits_capitalise]

theorem digits_parameterName (name : String) :
    digits (parameterName name).toList = digits name.toList := by
  rw [← digits_className name, parameterName]
  split
  · rename_i hchars
    rw [hchars]
    rfl
  · rename_i c rest hchars
    have hc : IsNameChar c := isPlainName_className name c (by simp [hchars])
    rw [String.toList_ofList, hchars]
    split_ifs
    · rfl
    · exact (keepsDigit_toLower hc).digits_cons rfl

theorem digits_escapePythonKeyword (name : String) :
    digits (escapePythonKeyword name).toList = digits name.toList := by
  rw [escapePythonKeyword]
  split_ifs
  · have hmark : digits "_".toList = [] := by decide
    rw [String.toList_append, digits_append, hmark, List.append_nil]
  · rfl

theorem digits_escapeKotlinKeyword (name : String) :
    digits (escapeKotlinKeyword name).toList = digits name.toList := by
  rw [escapeKotlinKeyword]
  split_ifs
  · have hmark : digits "`".toList = [] := by decide
    rw [String.toList_append, String.toList_append, digits_append, digits_append, hmark,
      List.nil_append, List.append_nil]
  · rfl

/-- The identifier for a name has the digits of the name. -/
theorem digits_identifier (d : Dialect) (name : String) :
    digits (d.identifier name).toList = digits name.toList := by
  cases d with
  | python =>
    rw [Dialect.identifier, pythonIdentifier, digits_escapePythonKeyword, digits_normalize,
      digits_snakeCase]
  | kotlin => rw [Dialect.identifier, digits_escapeKotlinKeyword, digits_parameterName]

theorem digits_toString (n : Nat) : digits (toString n).toList = Nat.toDigits 10 n := by
  rw [Nat.toString_eq_repr, Nat.toList_repr]
  exact digits_eq_self fun c hc => Nat.isDigit_of_mem_toDigits (by decide) (by decide) hc

/-- A name with another number behind it has another identifier. -/
theorem identifier_append_toString_injective (d : Dialect) (name : String) :
    Function.Injective fun n : Nat => d.identifier (name ++ toString n) := by
  intro m n h
  have hdigits := congrArg (fun s : String => digits s.toList) h
  simp only [digits_identifier, String.toList_append, digits_append, digits_toString] at hdigits
  have hrepr : Nat.repr m = Nat.repr n :=
    String.toList_inj.1 (by
      rw [Nat.toList_repr, Nat.toList_repr]
      exact List.append_cancel_left hdigits)
  exact Nat.repr_injective hrepr

end Naming

end ApiClient
