import ApiClient.Proofs.Naming.Scope
import Mathlib

/-!
# Names with the same identifier

The identifier that a Kotlin client has for a document name is its class name with a small first
letter, in backticks if that is a keyword. Neither step merges names: a capital gives the class name back
(`capitalised_parameterName`), and no plain name stands in backticks (`escapeKotlinKeyword_inj`). So two
names have the same identifier exactly when they have the same class name (`kotlin_identifier_eq_iff`),
and what is lost is what the class name loses: the separators, and the capitals behind them.
-/

namespace ApiClient.Naming

/-! ## First letters -/

theorem isAsciiAlphanumeric_toLower {c : Char} (h : isAsciiAlphanumeric c = true) :
    isAsciiAlphanumeric c.toLower = true := by
  by_cases hupper : c.isUpper = true
  · have hlower : c.toLower.isLower = true := by simp [Char.isAlpha, hupper]
    simp [isAsciiAlphanumeric, hlower]
  · rwa [Char.toLower_eq_of_not_isUpper hupper]

theorem toUpper_toLower {c : Char} (h : c.isUpper = true) : c.toLower.toUpper = c := by
  rw [Char.toUpper_toLower_eq_toUpper,
    Char.toUpper_eq_of_not_isLower (Char.not_isLower_of_isUpper h)]

/-- A name with a capital for its first letter. -/
def capitalised (name : String) : String :=
  match name.toList with
  | [] => ""
  | c :: rest => String.ofList (c.toUpper :: rest)

theorem parameterName_of_className_eq_nil {name : String} (h : className name = "") :
    parameterName name = "" := by
  rw [parameterName, h]
  rfl

theorem parameterName_of_className_eq_cons {name : String} {c : Char} {rest : List Char}
    (h : (className name).toList = c :: rest) :
    (parameterName name).toList = if c = '_' then c :: rest else c.toLower :: rest := by
  rw [parameterName, h, String.toList_ofList]

/-- The class name of a document name can be told from its name as a parameter. -/
theorem capitalised_parameterName (name : String) :
    capitalised (parameterName name) = className name := by
  by_cases hempty : className name = ""
  · rw [parameterName_of_className_eq_nil hempty, hempty]
    rfl
  obtain ⟨c, rest, hname, hc⟩ := (startsGuarded_className hempty).startsCapital
  have hparameter := parameterName_of_className_eq_cons hname
  by_cases hguard : c = '_'
  · have hsame : '_'.toUpper = '_' := by decide
    rw [if_pos hguard, hguard] at hparameter
    rw [hguard] at hname
    rw [capitalised, hparameter]
    dsimp only
    rw [hsame, ← hname, String.ofList_toList]
  · rw [if_neg hguard] at hparameter
    rw [capitalised, hparameter]
    dsimp only
    rw [toUpper_toLower (hc.resolve_right hguard), ← hname, String.ofList_toList]

theorem parameterName_eq_iff (p q : String) :
    parameterName p = parameterName q ↔ className p = className q := by
  constructor
  · intro h
    rw [← capitalised_parameterName, h, capitalised_parameterName]
  · intro h
    rw [parameterName, h, parameterName]

theorem isPlainName_parameterName (name : String) : IsPlainName (parameterName name) := by
  intro d hd
  cases hname : (className name).toList with
  | nil =>
    rw [parameterName, hname] at hd
    cases hd
  | cons c rest =>
    have hplain : ∀ e ∈ c :: rest, IsNameChar e := fun e he =>
      isPlainName_className name e (hname ▸ he)
    rw [parameterName_of_className_eq_cons hname] at hd
    split at hd
    · exact hplain d hd
    · rename_i hguard
      rcases List.mem_cons.1 hd with rfl | hd
      · have hc := (hplain c List.mem_cons_self).resolve_right hguard
        exact Or.inl (isAsciiAlphanumeric_toLower hc)
      · exact hplain d (List.mem_cons_of_mem _ hd)

/-! ## Keywords -/

theorem not_isPlainName_backticks (name : String) : ¬IsPlainName ("`" ++ name ++ "`") := by
  have hopen : "`".toList = ['`'] := by decide
  intro h
  have hbacktick : IsNameChar '`' := h '`' (by simp [String.toList_append, hopen])
  exact absurd hbacktick (by decide)

theorem escapeKotlinKeyword_inj {a b : String} (ha : IsPlainName a) (hb : IsPlainName b) :
    escapeKotlinKeyword a = escapeKotlinKeyword b ↔ a = b := by
  refine ⟨fun h => ?_, fun h => congrArg _ h⟩
  unfold escapeKotlinKeyword at h
  split_ifs at h
  · have hlists := congrArg String.toList h
    simp only [String.toList_append, List.append_left_inj, List.append_right_inj] at hlists
    exact String.toList_injective hlists
  · exact absurd (h ▸ hb) (not_isPlainName_backticks a)
  · exact absurd (h ▸ ha) (not_isPlainName_backticks b)
  · exact h

/-! ## Identifiers -/

/-- Two document names have the same identifier exactly when they have the same class name. -/
theorem kotlin_identifier_eq_iff (p q : String) :
    Dialect.kotlin.identifier p = Dialect.kotlin.identifier q ↔ className p = className q := by
  rw [Dialect.identifier, Dialect.identifier,
    escapeKotlinKeyword_inj (isPlainName_parameterName p) (isPlainName_parameterName q),
    parameterName_eq_iff]

/-- The identifiers of document names are distinct exactly when their class names are. -/
theorem nodup_map_kotlin_identifier_iff (names : List String) :
    (names.map Dialect.kotlin.identifier).Nodup ↔ (names.map className).Nodup := by
  simp only [List.Nodup, List.pairwise_map, ne_eq, kotlin_identifier_eq_iff]

end ApiClient.Naming
