import ApiClient.Proofs.Naming.Scope
import Mathlib

/-!
# Names that are normalised again

A class name is its own class name (`className_className`), and it does not show whether the underscore
behind a keyword was there before (`className_escapeStem`). So the names of types and of scopes
do not depend on how often they are normalised (`typeName_typeName`, `typeName_className`,
`scopeName_scopeName`).
-/

namespace ApiClient

namespace Naming

/-! ## Class names -/

theorem capitalise_false_eq_self {cs : List Char} (h : ∀ c ∈ cs, isAsciiAlphanumeric c = true) :
    capitalise false cs = cs := by
  induction cs with
  | nil => rfl
  | cons c rest ih =>
    obtain ⟨hc, hrest⟩ := List.forall_mem_cons.1 h
    rw [capitalise, if_pos hc, if_neg Bool.false_ne_true, ih hrest]

theorem toUpper_of_capital_or_digit {c : Char} (h : c.isUpper = true ∨ c.isDigit = true) :
    c.toUpper = c := by
  refine Char.toUpper_eq_of_not_isLower fun hlower => ?_
  rcases h with hupper | hdigit
  · exact absurd hlower (Char.not_isLower_of_isUpper hupper)
  · have hno := isAlpha_of_isDigit hdigit
    simp [Char.isAlpha, hlower] at hno

theorem capitalise_capitalise (cs : List Char) :
    capitalise true (capitalise true cs) = capitalise true cs := by
  cases hcs : capitalise true cs with
  | nil => rfl
  | cons c rest =>
    have hall : ∀ d ∈ c :: rest, isAsciiAlphanumeric d = true := fun d hd =>
      isAsciiAlphanumeric_of_mem_capitalise (hcs ▸ hd)
    obtain ⟨hc, hrest⟩ := List.forall_mem_cons.1 hall
    have hcapital := toUpper_of_capital_or_digit (exists_of_capitalise_eq_cons hcs)
    rw [capitalise, if_pos hc, if_pos rfl, hcapital, capitalise_false_eq_self hrest]

theorem capitalise_guardDigit (cs : List Char) :
    capitalise true (guardDigit cs) = capitalise true cs := by
  cases cs with
  | nil => rfl
  | cons c rest =>
    have hguard : ¬isAsciiAlphanumeric '_' = true := by decide
    rw [guardDigit]
    split_ifs
    · rw [capitalise, if_neg hguard]
    · rfl

theorem className_className (name : String) : className (className name) = className name := by
  simp only [className, String.toList_ofList, capitalise_guardDigit, capitalise_capitalise]

/-! ## Escapes -/

theorem capitalise_append_underscore (fresh : Bool) (cs : List Char) :
    capitalise fresh (cs ++ ['_']) = capitalise fresh cs := by
  have hmark : ∀ fresh, capitalise fresh ['_'] = [] := by decide
  induction cs generalizing fresh with
  | nil => rw [List.nil_append, hmark, capitalise]
  | cons c rest ih => rw [List.cons_append, capitalise, capitalise, ih, ih]

theorem className_escapeStem (d : Dialect) (stem : String) :
    className (escapeStem d stem) = className stem := by
  have hmark : "_".toList = ['_'] := by decide
  cases d with
  | kotlin => rfl
  | python =>
    rw [escapeStem, escapePythonKeyword]
    split_ifs
    · rw [className, String.toList_append, hmark, capitalise_append_underscore, className]
    · rfl

end Naming

namespace Dialect

open Naming

theorem typeName_className (d : Dialect) (name : String) :
    d.typeName (className name) = d.typeName name := by
  rw [typeName_eq_escapeStem, typeName_eq_escapeStem, className_className]

theorem typeName_typeName (d : Dialect) (name : String) :
    d.typeName (d.typeName name) = d.typeName name := by
  rw [typeName_eq_escapeStem d name, typeName_eq_escapeStem, className_escapeStem, className_className]

/-- The stem of a scope's name is a class name, and not the empty one. -/
theorem className_scopeStem (segment : String) : className (scopeStem segment) = scopeStem segment := by
  rw [scopeStem]
  split_ifs
  · decide
  · exact className_className segment

theorem scopeStem_ne_empty (segment : String) : scopeStem segment ≠ "" := by
  obtain ⟨c, rest, hname, -⟩ := startsGuarded_scopeStem segment
  intro hempty
  rw [hempty] at hname
  cases hname

theorem scopeName_scopeName (d : Dialect) (segment : String) :
    d.scopeName (d.scopeName segment) = d.scopeName segment := by
  have hstem : scopeStem (escapeStem d (scopeStem segment)) = scopeStem segment := by
    rw [scopeStem, className_escapeStem, className_scopeStem]
    exact if_neg (scopeStem_ne_empty segment)
  rw [scopeName_eq_escapeStem d segment, scopeName_eq_escapeStem, hstem]

end Dialect

end ApiClient
