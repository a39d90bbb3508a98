import ApiClient.Proofs.Naming.Character
import ApiClient.Proofs.Naming.Fresh
import ApiClient.Document.Model
import Mathlib

/-!
# The names of scopes and types

A name that is searched for is not taken (`Naming.fresh_notMem`). Whatever the segment of a URL is, the
name of its scope, with a number or without, is an identifier of the dialect as it stands
(`Naming.isIdentifier_numbered_scopeName`) and none of the names that callables have
(`Naming.numbered_scopeName_ne_key`). So are the names of types
(`Naming.isIdentifier_numbered_typeName`), which are made in the same way: a stem that begins with a
capital or with an underscore and a digit, and behind it an escape and a number.
-/

namespace ApiClient

/-- The words that are no names in a dialect. -/
def Dialect.keywords : Dialect → List String
  | python => Naming.pythonKeywords
  | kotlin => Naming.kotlinKeywords

/-- A name that may be written as it stands: an identifier of ASCII letters, digits and underscores that
does not consist of underscores only and is no keyword. -/
structure Dialect.IsIdentifier (d : Dialect) (name : String) : Prop where
  plain : Naming.IsPlainName name
  isIdentifier : Text.isIdentifier name = true
  exists_ne : ∃ c ∈ name.toList, c ≠ '_'
  notKeyword : name ∉ d.keywords

namespace Naming

/-! ## The search -/

theorem fresh_notMem (taken : List String) (name : String) : fresh taken name ∉ taken := by
  obtain ⟨n, hn, hfree⟩ := exists_numbered_notMem name (Nat.lt_succ_self taken.length)
  have hspec := (firstIndex_spec (p := fun n => !taken.contains (numbered name n))
    ⟨n, hn, by simpa using hfree⟩).1
  simpa [fresh] using hspec

theorem exists_fresh_eq (taken : List String) (name : String) :
    ∃ n, fresh taken name = numbered name n :=
  ⟨_, rfl⟩

/-! ## First characters -/

/-- A name begins with an ASCII capital or an underscore. -/
def StartsCapital (name : String) : Prop :=
  ∃ c rest, name.toList = c :: rest ∧ (c.isUpper = true ∨ c = '_')

theorem isDigit_eq_false_of_isAlpha {c : Char} (h : c.isAlpha = true) : c.isDigit = false := by
  have hnine : '9'.val.toNat = 57 := rfl
  have hupper : 'A'.val.toNat = 65 := rfl
  have hlower : 'a'.val.toNat = 97 := rfl
  simp only [Char.isAlpha, Char.isUpper, Char.isLower, Bool.or_eq_true, Bool.and_eq_true,
    decide_eq_true_eq, UInt32.le_iff_toNat_le, ge_iff_le] at h
  simp only [Char.isDigit, Bool.and_eq_false_imp, decide_eq_true_eq, decide_eq_false_iff_not,
    UInt32.le_iff_toNat_le]
  omega

theorem isAlpha_of_isDigit {c : Char} (h : c.isDigit = true) : c.isAlpha = false := by
  by_contra halpha
  rw [isDigit_eq_false_of_isAlpha (by simpa using halpha)] at h
  cases h

theorem isUpper_toUpper {c : Char} (h : isAsciiAlphanumeric c = true) (hdigit : c.isDigit = false) :
    c.toUpper.isUpper = true := by
  rw [Char.isUpper_toUpper_eq_isAlpha, Char.isAlpha]
  simpa [isAsciiAlphanumeric, hdigit] using h

theorem isDigit_toUpper (c : Char) : c.toUpper.isDigit = c.isDigit := by
  by_cases hlower : c.isLower = true
  · have halpha : c.isAlpha = true := by simp [Char.isAlpha, hlower]
    rw [isDigit_eq_false_of_isAlpha halpha,
      isDigit_eq_false_of_isAlpha ((Char.isAlpha_toUpper_eq_isAlpha c).trans halpha)]
  · rw [Char.toUpper_eq_of_not_isLower hlower]

/-- The first character that is kept is a capital or a digit. -/
theorem exists_of_capitalise_eq_cons {c : Char} {cs rest : List Char}
    (h : capitalise true cs = c :: rest) : c.isUpper = true ∨ c.isDigit = true := by
  induction cs with
  | nil => simp [capitalise] at h
  | cons d more ih =>
    rw [capitalise] at h
    split at h
    · rename_i hd
      obtain ⟨rfl, -⟩ := List.cons.inj h
      rw [if_pos rfl, isDigit_toUpper]
      cases hdigit : d.isDigit with
      | true => exact Or.inr rfl
      | false => exact Or.inl (isUpper_toUpper hd hdigit)
    · exact ih h

/-- A name begins with an ASCII capital, or with an underscore and a digit. -/
def StartsGuarded (name : String) : Prop :=
  ∃ c rest, name.toList = c :: rest ∧
    (c.isUpper = true ∨ c = '_' ∧ ∃ d more, rest = d :: more ∧ d.isDigit = true)

theorem StartsGuarded.append {name : String} (h : StartsGuarded name) (more : String) :
    StartsGuarded (name ++ more) := by
  obtain ⟨c, rest, hname, hc⟩ := h
  refine ⟨c, rest ++ more.toList, by simp [hname], hc.imp_right ?_⟩
  rintro ⟨hguard, d, after, rfl, hd⟩
  exact ⟨hguard, d, after ++ more.toList, rfl, hd⟩

theorem StartsGuarded.startsCapital {name : String} (h : StartsGuarded name) :
    StartsCapital name := by
  obtain ⟨c, rest, hname, hc⟩ := h
  exact ⟨c, rest, hname, hc.imp_right And.left⟩

theorem StartsGuarded.startsPlain {name : String} (h : StartsGuarded name) : StartsPlain name := by
  obtain ⟨c, rest, hname, hc | ⟨rfl, d, more, rfl, hd⟩⟩ := h
  · exact ⟨c, rest, fun heq => by simp [heq] at hc, Or.inl hname⟩
  · exact ⟨d, more, fun heq => by simp [heq] at hd, Or.inr hname⟩

theorem startsGuarded_className {name : String} (h : className name ≠ "") :
    StartsGuarded (className name) := by
  cases hcs : capitalise true name.toList with
  | nil => simp [className, hcs, guardDigit] at h
  | cons c rest =>
    by_cases hdigit : c.isDigit = true
    · exact ⟨'_', c :: rest, by simp [className, hcs, guardDigit, hdigit],
        Or.inr ⟨rfl, c, rest, rfl, hdigit⟩⟩
    · have hupper := (exists_of_capitalise_eq_cons hcs).resolve_right hdigit
      exact ⟨c, rest, by simp [className, hcs, guardDigit, hdigit], Or.inl hupper⟩

/-! ## Names of scopes and types -/

/-- What all names of scopes have that may be given to a segment, and all names of types. -/
structure IsScopeName (name : String) : Prop where
  plain : IsPlainName name
  startsPlain : StartsPlain name
  startsCapital : StartsCapital name

theorem StartsGuarded.isScopeName {name : String} (h : StartsGuarded name)
    (hplain : IsPlainName name) : IsScopeName name :=
  ⟨hplain, h.startsPlain, h.startsCapital⟩

/-- A stem as a dialect writes it: with an underscore behind it if it is a keyword of Python. -/
def escapeStem : Dialect → String → String
  | .python, stem => escapePythonKeyword stem
  | .kotlin, stem => stem

theorem typeName_eq_escapeStem (d : Dialect) (name : String) :
    d.typeName name = escapeStem d (className name) := by
  cases d <;> rfl

theorem scopeName_eq_escapeStem (d : Dialect) (segment : String) :
    d.scopeName segment = escapeStem d (Dialect.scopeStem segment) := by
  cases d <;> rfl

/-- The escape and the number stand behind the stem. -/
theorem exists_numbered_escapeStem_eq (d : Dialect) (stem : String) (n : Nat) :
    ∃ more, IsPlainName more ∧ numbered (escapeStem d stem) n = stem ++ more := by
  have hescape : ∃ mark, IsPlainName mark ∧ escapeStem d stem = stem ++ mark := by
    have hnone : IsPlainName "" := fun c hc => by cases hc
    cases d with
    | kotlin => exact ⟨"", hnone, String.append_empty.symm⟩
    | python =>
      rw [escapeStem, escapePythonKeyword]
      split_ifs
      · exact ⟨"_", isPlainName_underscore, rfl⟩
      · exact ⟨"", hnone, String.append_empty.symm⟩
  obtain ⟨mark, hmark, heq⟩ := hescape
  rw [heq]
  cases n with
  | zero => exact ⟨mark, hmark, rfl⟩
  | succ n =>
    exact ⟨mark ++ toString (n + 2), hmark.append (isPlainName_toString _), String.append_assoc⟩

theorem isPlainName_numbered_escapeStem {stem : String} (h : IsPlainName stem) (d : Dialect)
    (n : Nat) : IsPlainName (numbered (escapeStem d stem) n) := by
  obtain ⟨more, hmore, heq⟩ := exists_numbered_escapeStem_eq d stem n
  exact heq ▸ h.append hmore

theorem StartsGuarded.numbered_escapeStem {stem : String} (h : StartsGuarded stem) (d : Dialect)
    (n : Nat) : StartsGuarded (numbered (escapeStem d stem) n) := by
  obtain ⟨more, -, heq⟩ := exists_numbered_escapeStem_eq d stem n
  exact heq ▸ h.append more

theorem startsGuarded_scopeStem (segment : String) : StartsGuarded (Dialect.scopeStem segment) := by
  rw [Dialect.scopeStem]
  split
  · exact ⟨'R', _, rfl, Or.inl (by decide)⟩
  · exact startsGuarded_className ‹_›

theorem isPlainName_scopeStem (segment : String) : IsPlainName (Dialect.scopeStem segment) := by
  rw [Dialect.scopeStem]
  split
  · exact isPlainName_of_all (by decide)
  · exact isPlainName_className segment

theorem isScopeName_numbered_scopeName (d : Dialect) (segment : String) (n : Nat) :
    IsScopeName (numbered (d.scopeName segment) n) := by
  rw [scopeName_eq_escapeStem]
  exact ((startsGuarded_scopeStem segment).numbered_escapeStem d n).isScopeName
    (isPlainName_numbered_escapeStem (isPlainName_scopeStem segment) d n)

/-- The names that may be given to types begin with a capital or with an underscore and a digit. -/
theorem startsGuarded_numbered_typeName {d : Dialect} {base : String} (h : d.typeName base ≠ "")
    (n : Nat) : StartsGuarded (numbered (d.typeName base) n) := by
  rw [typeName_eq_escapeStem] at h ⊢
  have hname : className base ≠ "" := by
    rintro hempty
    rw [hempty] at h
    exact h (by cases d <;> decide)
  exact (startsGuarded_className hname).numbered_escapeStem d n

theorem isPlainName_numbered_typeName (d : Dialect) (base : String) (n : Nat) :
    IsPlainName (numbered (d.typeName base) n) := by
  rw [typeName_eq_escapeStem]
  exact isPlainName_numbered_escapeStem (isPlainName_className base) d n

/-! ## Identifiers -/

theorem IsNameChar.isIdentifierContinue {c : Char} (h : IsNameChar c) :
    Text.isIdentifierContinue c = true :=
  h.of_ascii (by decide)

theorem isIdentifierStart_of_capital {c : Char} (h : c.isUpper = true ∨ c = '_') :
    Text.isIdentifierStart c = true := by
  have hname : IsNameChar c := h.imp_left fun hupper => by simp [isAsciiAlphanumeric, hupper]
  have hboth : (!(c.isUpper || c = '_') || Text.isIdentifierStart c) = true :=
    hname.of_ascii (p := fun c => !(c.isUpper || c = '_') || Text.isIdentifierStart c)
      (by decide)
  rcases h with h | rfl
  · simpa [h] using hboth
  · decide

theorem IsScopeName.isIdentifier {name : String} (h : IsScopeName name) :
    Text.isIdentifier name = true := by
  obtain ⟨c, rest, hname, hc⟩ := h.startsCapital
  have hrest : ∀ d ∈ rest, Text.isIdentifierContinue d = true := fun d hd =>
    (h.plain d (hname ▸ List.mem_cons_of_mem c hd)).isIdentifierContinue
  rw [Text.isIdentifier, hname]
  simpa [isIdentifierStart_of_capital hc] using hrest

/-- The name of a scope is none of the words that begin with a small letter. -/
theorem IsScopeName.ne_of_isLower {name word : String} (h : IsScopeName name)
    (hword : word.toList.head?.any Char.isLower = true) : name ≠ word := by
  rintro rfl
  obtain ⟨c, rest, hname, hc⟩ := h.startsCapital
  rw [hname, List.head?_cons, Option.any_some] at hword
  rcases hc with hc | rfl
  · simp only [Char.isUpper, Char.isLower, Bool.and_eq_true, decide_eq_true_eq,
      UInt32.le_iff_toNat_le, ge_iff_le] at hc hword
    have hbounds : 'Z'.val.toNat < 'a'.val.toNat := by decide
    omega
  · exact absurd hword (by decide)

/-- A keyword of Python consists of letters. -/
theorem isAlpha_of_mem_pythonKeywords : ∀ word ∈ pythonKeywords, ∀ c ∈ word.toList,
    c.isAlpha = true := by
  have hall : (pythonKeywords.all fun word => word.toList.all Char.isAlpha) = true := by
    decide
  exact fun word hword => List.all_eq_true.1 (List.all_eq_true.1 hall word hword)

theorem notMem_pythonKeywords_of_append {name : String} {c : Char} (hc : c.isAlpha = false)
    {more : String} (hmem : c ∈ more.toList) : name ++ more ∉ pythonKeywords := by
  intro hword
  have halpha := isAlpha_of_mem_pythonKeywords _ hword c (by simp [hmem])
  rw [hc] at halpha
  cases halpha

/-- An escaped name is no keyword: where it was one, an underscore stands behind it. -/
theorem escapePythonKeyword_notMem (name : String) :
    escapePythonKeyword name ∉ pythonKeywords := by
  rw [escapePythonKeyword]
  split_ifs with h
  · exact notMem_pythonKeywords_of_append (c := '_') (by decide) (by decide)
  · exact h

theorem notMem_pythonKeywords_numbered_escapeStem (stem : String) (n : Nat) :
    numbered (escapeStem .python stem) n ∉ pythonKeywords := by
  cases n with
  | zero => exact escapePythonKeyword_notMem stem
  | succ n =>
    obtain ⟨c, hc⟩ := List.exists_mem_of_ne_nil (toString (n + 2)).toList
      (by simp [Nat.toString_eq_repr, Nat.toList_repr])
    have hdigit : c.isDigit = true := by
      rw [Nat.toString_eq_repr, Nat.toList_repr] at hc
      exact Nat.isDigit_of_mem_toDigits (by decide) (by decide) hc
    exact notMem_pythonKeywords_of_append (isAlpha_of_isDigit hdigit) hc

/-- A stem with its escape, with a number or without, may be written as it stands. -/
theorem isIdentifier_numbered_escapeStem {d : Dialect} {stem : String} {n : Nat}
    (h : IsScopeName (numbered (escapeStem d stem) n)) :
    d.IsIdentifier (numbered (escapeStem d stem) n) := by
  have hlower : ∀ word ∈ kotlinKeywords, word.toList.head?.any Char.isLower = true := by decide
  refine ⟨h.plain, h.isIdentifier, ?_, ?_⟩
  · obtain ⟨c, rest, hc, heq | heq⟩ := h.startsPlain
    · exact ⟨c, by simp [heq], hc⟩
    · exact ⟨c, by simp [heq], hc⟩
  · cases d with
    | kotlin => exact fun hmem => h.ne_of_isLower (hlower _ hmem) rfl
    | python => exact notMem_pythonKeywords_numbered_escapeStem stem n

/-- Whatever the segment is, the name of its scope may be written as it stands. -/
theorem isIdentifier_numbered_scopeName (d : Dialect) (segment : String) (n : Nat) :
    d.IsIdentifier (numbered (d.scopeName segment) n) := by
  have hname := isScopeName_numbered_scopeName d segment n
  rw [scopeName_eq_escapeStem] at hname ⊢
  exact isIdentifier_numbered_escapeStem hname

/-- Whatever a type is called after, its name may be written as it stands. -/
theorem isIdentifier_numbered_typeName {d : Dialect} {base : String} (h : d.typeName base ≠ "")
    (n : Nat) : d.IsIdentifier (numbered (d.typeName base) n) := by
  have hname := (startsGuarded_numbered_typeName h n).isScopeName
    (isPlainName_numbered_typeName d base n)
  rw [typeName_eq_escapeStem] at hname ⊢
  exact isIdentifier_numbered_escapeStem hname

theorem numbered_scopeName_ne_key (d : Dialect) (segment : String) (n : Nat) (m : Method) :
    numbered (d.scopeName segment) n ≠ m.key :=
  (isScopeName_numbered_scopeName d segment n).ne_of_isLower (by cases m <;> decide)

theorem IsPlainName.dot_notMem {name : String} (h : IsPlainName name) : '.' ∉ name.toList :=
  fun hmem => absurd (h _ hmem) (by decide)

end Naming

end ApiClient
