import ApiClient.Proofs.Naming.Collision
import ApiClient.Proofs.Naming.Digits
import Mathlib

/-!
# Identifiers that may be written

A name without any ASCII letter or digit leaves nothing for its class name to be made of, so the identifier
that a Kotlin client has for it is empty; for any other name it is one that Kotlin takes
(`kotlin_identifier_legal_iff`).

Python identifiers keep an underscore for every character they cannot have, so they are only empty for
the empty name. They are words of small letters, digits and underscores, and a word of these that is no
keyword is left as it is (`pythonIdentifier_eq_self`), in particular every identifier
(`python_identifier_canonical`).
-/

namespace ApiClient.Naming

/-- A word of characters of a kind, the first of which is no digit. -/
structure IsWordOf (p : Char → Prop) (name : String) : Prop where
  all : ∀ c ∈ name.toList, p c
  begins : ∃ c rest, name.toList = c :: rest ∧ c.isDigit = false

theorem IsWordOf.append {p : Char → Prop} {name more : String} (h : IsWordOf p name)
    (hmore : ∀ c ∈ more.toList, p c) : IsWordOf p (name ++ more) := by
  obtain ⟨c, rest, hname, hc⟩ := h.begins
  refine ⟨fun d hd => ?_, c, rest ++ more.toList, by simp [hname], hc⟩
  rw [String.toList_append] at hd
  exact (List.mem_append.1 hd).elim (h.all d) (hmore d)

/-! ## Guarded digits -/

theorem exists_guardDigit_eq_cons {cs : List Char} (h : cs ≠ []) :
    ∃ c rest, guardDigit cs = c :: rest ∧ c.isDigit = false := by
  obtain ⟨c, rest, rfl⟩ := List.exists_cons_of_ne_nil h
  rw [guardDigit]
  split_ifs with hc
  · exact ⟨'_', c :: rest, rfl, by decide⟩
  · exact ⟨c, rest, rfl, by simpa using hc⟩

theorem guardDigit_cons_of_not {c : Char} (h : c.isDigit = false) (rest : List Char) :
    guardDigit (c :: rest) = c :: rest := by
  rw [guardDigit, if_neg (by simp [h])]

/-! ## Kotlin -/

/-- What Kotlin takes for a name: a word of ASCII letters, digits and underscores that is no hard keyword,
or a hard keyword in backticks. -/
def IsKotlinIdentifier (name : String) : Prop :=
  IsWordOf IsNameChar name ∧ name ∉ kotlinKeywords ∨
    ∃ word ∈ kotlinKeywords, name = "`" ++ word ++ "`"

theorem not_isKotlinIdentifier_empty : ¬IsKotlinIdentifier "" := by
  rintro (⟨hword, -⟩ | ⟨word, -, hquoted⟩)
  · obtain ⟨c, rest, hname, -⟩ := hword.begins
    cases hname
  · have htick : "`".length = 1 := by decide
    have hlength := congrArg String.length hquoted
    simp only [String.length_append, htick, String.length_empty] at hlength
    omega

theorem IsWordOf.isKotlinIdentifier_escape {name : String} (h : IsWordOf IsNameChar name) :
    IsKotlinIdentifier (escapeKotlinKeyword name) := by
  rw [escapeKotlinKeyword]
  split_ifs with hkeyword
  · exact Or.inr ⟨name, hkeyword, rfl⟩
  · exact Or.inl ⟨h, hkeyword⟩

theorem capitalise_eq_nil_iff {fresh : Bool} {cs : List Char} :
    capitalise fresh cs = [] ↔ ∀ c ∈ cs, isAsciiAlphanumeric c = false := by
  induction cs generalizing fresh with
  | nil => simp [capitalise]
  | cons c rest ih =>
    rw [capitalise, List.forall_mem_cons]
    split_ifs with hc
    · simp [hc]
    · simp [hc, ih]

theorem guardDigit_eq_nil_iff {cs : List Char} : guardDigit cs = [] ↔ cs = [] := by
  refine ⟨fun h => ?_, fun h => by rw [h, guardDigit]⟩
  by_contra hcs
  obtain ⟨c, rest, hcons, -⟩ := exists_guardDigit_eq_cons hcs
  rw [h] at hcons
  cases hcons

theorem className_eq_empty_iff {name : String} :
    className name = "" ↔ ∀ c ∈ name.toList, isAsciiAlphanumeric c = false := by
  rw [← String.toList_inj, className, String.toList_ofList, String.toList_empty,
    guardDigit_eq_nil_iff, capitalise_eq_nil_iff]

theorem isWordOf_parameterName {name : String} (h : className name ≠ "") :
    IsWordOf IsNameChar (parameterName name) := by
  refine ⟨isPlainName_parameterName name, ?_⟩
  obtain ⟨c, rest, hname, hc⟩ := (startsGuarded_className h).startsCapital
  rw [parameterName_of_className_eq_cons hname]
  split_ifs with hguard
  · exact ⟨c, rest, rfl, by rw [hguard]; decide⟩
  · have hlower : c.toLower.isLower = true := by
      simp [Char.isAlpha, hc.resolve_right hguard]
    exact ⟨c.toLower, rest, rfl, isDigit_eq_false_of_isAlpha (by simp [Char.isAlpha, hlower])⟩

theorem kotlin_identifier_of_className_eq_empty {name : String} (h : className name = "") :
    Dialect.kotlin.identifier name = "" := by
  rw [Dialect.identifier, parameterName_of_className_eq_nil h]
  decide

/-- The identifier for a name is one that Kotlin takes exactly when the name has an ASCII letter or digit.
Where it has none, there is no identifier at all. -/
theorem kotlin_identifier_legal_iff (name : String) :
    (IsKotlinIdentifier (Dialect.kotlin.identifier name) ↔
      ∃ c ∈ name.toList, isAsciiAlphanumeric c = true) ∧
    (Dialect.kotlin.identifier name = "" ↔
      ∀ c ∈ name.toList, isAsciiAlphanumeric c = false) := by
  have hnone : className name = "" ↔ ¬∃ c ∈ name.toList, isAsciiAlphanumeric c = true := by
    simp [className_eq_empty_iff]
  by_cases hname : className name = ""
  · rw [kotlin_identifier_of_className_eq_empty hname]
    exact ⟨iff_of_false not_isKotlinIdentifier_empty (hnone.1 hname),
      iff_of_true rfl (className_eq_empty_iff.1 hname)⟩
  · have hlegal : IsKotlinIdentifier (Dialect.kotlin.identifier name) :=
      (isWordOf_parameterName hname).isKotlinIdentifier_escape
    refine ⟨iff_of_true hlegal (not_not.1 (mt hnone.2 hname)), iff_of_false (fun hempty => ?_)
      (mt className_eq_empty_iff.2 hname)⟩
    exact not_isKotlinIdentifier_empty (hempty ▸ hlegal)

/-- A field that a document calls `_` has no name in a Kotlin client. -/
theorem kotlin_identifier_of_underscore :
    Dialect.kotlin.identifier "_" = "" ∧
      ¬IsKotlinIdentifier (Dialect.kotlin.identifier "_") ∧ "_" ≠ "" := by
  have hempty : Dialect.kotlin.identifier "_" = "" := by decide
  exact ⟨hempty, hempty ▸ not_isKotlinIdentifier_empty, by decide⟩

/-! ## Python -/

/-- A small ASCII letter, a digit or an underscore. -/
def IsSnakeChar (c : Char) : Prop :=
  isLowerOrDigit c = true ∨ c = '_'

instance (c : Char) : Decidable (IsSnakeChar c) :=
  inferInstanceAs (Decidable (_ ∨ _))

theorem IsSnakeChar.isNameChar {c : Char} (h : IsSnakeChar c) : IsNameChar c :=
  h.imp_left fun hc => by
    simp only [isLowerOrDigit, Bool.or_eq_true] at hc
    simpa [isAsciiAlphanumeric, or_assoc] using Or.inr hc

/-- What holds of all small letters, digits and the underscore holds of every snake character. -/
theorem IsSnakeChar.of_ascii {p : Char → Bool}
    (hp : ∀ n < 128, IsSnakeChar (Char.ofNat n) → p (Char.ofNat n) = true) {c : Char}
    (h : IsSnakeChar c) : p c = true := by
  have hchar : (!decide (IsSnakeChar c) || p c) = true :=
    h.isNameChar.of_ascii (p := fun c => !decide (IsSnakeChar c) || p c) fun n hn _ => by
      by_cases hsnake : IsSnakeChar (Char.ofNat n)
      · simp [hp n hn hsnake]
      · simp [hsnake]
  simpa [h] using hchar

theorem IsSnakeChar.isUpper {c : Char} (h : IsSnakeChar c) : c.isUpper = false := by
  simpa using h.of_ascii (p := fun c => !c.isUpper) (by decide)

theorem IsSnakeChar.isDelimiter {c : Char} (h : IsSnakeChar c) : isDelimiter c = false := by
  simpa using h.of_ascii (p := fun c => !Naming.isDelimiter c) (by decide)

theorem IsSnakeChar.isSmall {c : Char} (h : IsSnakeChar c) : Text.IsSmall c := by
  refine ⟨?_, h.isUpper⟩
  simpa using h.of_ascii (p := fun c => decide (c.toNat < 128)) (by decide)

/-- A character without a capital is a snake character after what no identifier has is replaced. -/
theorem isSnakeChar_replaced {c : Char} (h : c.isUpper = false) :
    IsSnakeChar (if isAsciiAlphanumeric c || c = '_' then c else '_') := by
  split_ifs with hc
  · simpa [IsSnakeChar, isAsciiAlphanumeric, isLowerOrDigit, h] using hc
  · exact Or.inr rfl

theorem partAcronyms_ne_nil {cs : List Char} (h : cs ≠ []) : partAcronyms cs ≠ [] := by
  fun_cases partAcronyms cs with
  | case1 => exact List.cons_ne_nil _ _
  | case2 => exact List.cons_ne_nil _ _
  | case3 => exact h

theorem partWords_ne_nil {cs : List Char} (h : cs ≠ []) : partWords cs ≠ [] := by
  fun_cases partWords cs with
  | case1 => exact List.cons_ne_nil _ _
  | case2 => exact List.cons_ne_nil _ _
  | case3 => exact h

theorem snakeCase_ne_nil {name : String} (h : name ≠ "") : (snakeCase name).toList ≠ [] := by
  have hname : name.toList ≠ [] := fun hnil => h (String.toList_inj.1 hnil)
  refine Text.toLower_ne_empty ?_
  rw [String.toList_ofList]
  exact partWords_ne_nil (partAcronyms_ne_nil (by simpa using hname))

theorem isWordOf_normalize_snakeCase {name : String} (h : name ≠ "") :
    IsWordOf IsSnakeChar (normalize (snakeCase name)) := by
  refine ⟨fun c hc => ?_, ?_⟩
  · rw [normalize, String.toList_ofList] at hc
    rcases mem_of_mem_guardDigit hc with rfl | hc
    · exact Or.inr rfl
    · obtain ⟨d, hd, rfl⟩ := List.mem_map.1 hc
      exact isSnakeChar_replaced (Text.isUpper_of_mem_toLower hd)
  · rw [normalize, String.toList_ofList]
    exact exists_guardDigit_eq_cons (by simpa using snakeCase_ne_nil h)

theorem IsWordOf.escapePythonKeyword {name : String} (h : IsWordOf IsSnakeChar name) :
    IsWordOf IsSnakeChar (escapePythonKeyword name) := by
  rw [Naming.escapePythonKeyword]
  have hmark : "_".toList = ['_'] := by decide
  split_ifs
  · exact h.append (by simp [hmark, IsSnakeChar])
  · exact h

/-! ## Words that are left as they are -/

theorem partAcronyms_eq_self {cs : List Char} (h : ∀ c ∈ cs, c.isUpper = false) :
    partAcronyms cs = cs := by
  fun_induction partAcronyms cs with
  | case1 a b c rest hpart ih => simp [h a List.mem_cons_self] at hpart
  | case2 a b c rest hpart ih => rw [ih fun d hd => h d (List.mem_cons_of_mem _ hd)]
  | case3 => rfl

theorem partWords_eq_self {cs : List Char} (h : ∀ c ∈ cs, c.isUpper = false) :
    partWords cs = cs := by
  fun_induction partWords cs with
  | case1 a b rest hpart ih => simp [h b (by simp)] at hpart
  | case2 a b rest hpart ih => rw [ih fun d hd => h d (List.mem_cons_of_mem _ hd)]
  | case3 => rfl

theorem snakeCase_eq_self {name : String} (h : ∀ c ∈ name.toList, IsSnakeChar c) :
    snakeCase name = name := by
  have hdelimited : (name.toList.map fun c => if isDelimiter c then '_' else c) = name.toList := by
    refine (List.map_congr_left fun c hc => ?_).trans (List.map_id _)
    simp [(h c hc).isDelimiter]
  have hupper : ∀ c ∈ name.toList, c.isUpper = false := fun c hc => (h c hc).isUpper
  simp only [snakeCase]
  rw [hdelimited, partAcronyms_eq_self hupper, partWords_eq_self hupper, String.ofList_toList,
    Text.toLower_of_isSmall fun c hc => (h c hc).isSmall]

theorem normalize_eq_self {name : String} (h : IsWordOf IsNameChar name) : normalize name = name := by
  have hkept : (name.toList.map fun c => if isAsciiAlphanumeric c || c = '_' then c else '_') =
      name.toList := by
    refine (List.map_congr_left fun c hc => if_pos ?_).trans (List.map_id _)
    simpa [IsNameChar] using h.all c hc
  obtain ⟨c, rest, hname, hc⟩ := h.begins
  rw [normalize, hkept, hname, guardDigit_cons_of_not hc, ← hname, String.ofList_toList]

/-- A snake word that is no keyword is its own identifier. -/
theorem pythonIdentifier_eq_self {name : String} (h : IsWordOf IsSnakeChar name)
    (hkeyword : name ∉ pythonKeywords) : pythonIdentifier name = name := by
  have hword : IsWordOf IsNameChar name := ⟨fun c hc => (h.all c hc).isNameChar, h.begins⟩
  rw [pythonIdentifier, snakeCase_eq_self h.all, normalize_eq_self hword, escapePythonKeyword,
    if_neg hkeyword]

/-- Whatever a name consists of, its identifier is a snake word that is no keyword, and its own
identifier. -/
theorem python_identifier_canonical {name : String} (h : name ≠ "") :
    IsWordOf IsSnakeChar (pythonIdentifier name) ∧ pythonIdentifier name ∉ pythonKeywords ∧
      pythonIdentifier (pythonIdentifier name) = pythonIdentifier name := by
  have hword : IsWordOf IsSnakeChar (pythonIdentifier name) :=
    (isWordOf_normalize_snakeCase h).escapePythonKeyword
  have hkeyword : pythonIdentifier name ∉ pythonKeywords := escapePythonKeyword_notMem _
  exact ⟨hword, hkeyword, pythonIdentifier_eq_self hword hkeyword⟩

/-- Letters that are capitals, that turn into two characters or that ASCII has not. -/
theorem python_identifier_canonical_of_mixed :
    "İHTTPClassΣ" ≠ "" ∧ pythonIdentifier "İHTTPClassΣ" = "i_http_class_" ∧
      IsWordOf IsSnakeChar "i_http_class_" ∧ "i_http_class_" ∉ pythonKeywords ∧
      pythonIdentifier "i_http_class_" = "i_http_class_" := by
  have hne : "İHTTPClassΣ" ≠ "" := by decide
  have hidentifier : pythonIdentifier "İHTTPClassΣ" = "i_http_class_" := by decide
  exact ⟨hne, hidentifier, hidentifier ▸ python_identifier_canonical hne⟩

end ApiClient.Naming
