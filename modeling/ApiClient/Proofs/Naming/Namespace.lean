import ApiClient.Dialect.Basic
import ApiClient.Proofs.Naming.Identifier
import ApiClient.Proofs.Text.Line
import ApiClient.Settings
import Mathlib

/-!
# Namespaces made of titles

Whatever a title is, the namespace that is made of it is a word of small letters, digits and underscores
(`isWordOf_namespaceOfTitle`), so settings accept it. It is a keyword if nothing but a keyword is left of
the title (`namespaceOfTitle_mem_pythonKeywords_iff`), and only then it may not be imported
(`namespace_usable_iff`): unlike an identifier it does not get an underscore.
-/

namespace ApiClient.Naming

open Text

variable {name title : String}

/-! ## Words -/

theorem normalize_of_isPlainName (h : IsPlainName name) :
    normalize name = String.ofList (guardDigit name.toList) := by
  have hkept : (name.toList.map fun c => if isAsciiAlphanumeric c || c = '_' then c else '_') =
      name.toList :=
    (List.map_congr_left fun c hc => if_pos (by simpa [IsNameChar] using h c hc)).trans (List.map_id _)
  rw [normalize, hkept]

/-- The title in snake case, with an underscore for every character that no identifier has. -/
def titleStem (title : String) : String :=
  normalize (snakeCase (strip title))

/-- The words of a title. -/
def titleWords (title : String) : List String :=
  (split '_' (titleStem title)).filter (· ≠ "")

theorem namespaceOfTitle_eq (title : String) : namespaceOfTitle title =
    if normalize (join "_" (titleWords title)) = "" then "api_client"
    else normalize (join "_" (titleWords title)) :=
  rfl

theorem isSnakeChar_titleStem (title : String) : ∀ c ∈ (titleStem title).toList, IsSnakeChar c := by
  by_cases h : strip title = ""
  · have hempty : titleStem title = "" := by
      rw [titleStem, h]
      decide
    simp [hempty]
  · exact (isWordOf_normalize_snakeCase h).all

theorem isSnakeChar_join (title : String) :
    ∀ c ∈ (join "_" (titleWords title)).toList, IsSnakeChar c := by
  intro c hc
  obtain hsep | ⟨word, hword, hc⟩ := mem_join hc
  · have hmark : "_".toList = ['_'] := by decide
    rw [hmark] at hsep
    exact Or.inr (List.mem_singleton.1 hsep)
  · obtain ⟨piece, hpiece, rfl⟩ := List.mem_map.1 (List.mem_of_mem_filter hword)
    rw [String.toList_ofList] at hc
    exact isSnakeChar_titleStem title c ((sublist_of_mem_splitOnChar hpiece).subset hc)

theorem normalize_join (title : String) : normalize (join "_" (titleWords title)) =
    String.ofList (guardDigit (join "_" (titleWords title)).toList) :=
  normalize_of_isPlainName fun c hc => (isSnakeChar_join title c hc).isNameChar

/-- The namespace is a word of small letters, digits and underscores. -/
theorem isWordOf_namespaceOfTitle (title : String) : IsWordOf IsSnakeChar (namespaceOfTitle title) := by
  rw [namespaceOfTitle_eq]
  split_ifs with hempty
  · have hname : "api_client".toList = ['a', 'p', 'i', '_', 'c', 'l', 'i', 'e', 'n', 't'] := by
      decide
    exact ⟨by simp [hname, IsSnakeChar, isLowerOrDigit], 'a', _, hname, by decide⟩
  · rw [normalize_join] at hempty ⊢
    refine ⟨fun c hc => ?_, ?_⟩
    · rw [String.toList_ofList] at hc
      rcases mem_of_mem_guardDigit hc with rfl | hc
      · exact Or.inr rfl
      · exact isSnakeChar_join title c hc
    · rw [String.toList_ofList]
      refine exists_guardDigit_eq_cons fun hnil => hempty ?_
      rw [hnil]
      rfl

theorem IsSnakeChar.isIdentifierStart {c : Char} (h : IsSnakeChar c) (hdigit : c.isDigit = false) :
    Text.isIdentifierStart c = true := by
  have hstart : (c.isDigit || Text.isIdentifierStart c) = true :=
    h.of_ascii (p := fun c => c.isDigit || Text.isIdentifierStart c) (by decide)
  rwa [hdigit, Bool.false_or] at hstart

theorem IsWordOf.isIdentifier (h : IsWordOf IsSnakeChar name) : isIdentifier name = true := by
  obtain ⟨c, rest, hname, hdigit⟩ := h.begins
  obtain ⟨hc, hrest⟩ := List.forall_mem_cons.1 (hname ▸ h.all)
  rw [Text.isIdentifier, hname]
  refine Bool.and_eq_true_iff.2 ⟨hc.isIdentifierStart hdigit, List.all_eq_true.2 fun d hd => ?_⟩
  exact (hrest d hd).isNameChar.isIdentifierContinue

/-! ## Settings -/

theorem IsSnakeChar.not_isBlank {c : Char} (h : IsSnakeChar c) : isBlank c = false := by
  simpa using h.of_ascii (p := fun c => !isBlank c) (by decide)

theorem IsWordOf.dot_notMem (h : IsWordOf IsSnakeChar name) : '.' ∉ name.toList :=
  fun hmem => absurd (h.all _ hmem) (by decide)

theorem checkNamespace_of_isWordOf (h : IsWordOf IsSnakeChar name) :
    Settings.checkNamespace (.str name) = .ok name := by
  obtain ⟨c, rest, hname, -⟩ := h.begins
  have hblank : allBlank name = false := by
    have hc : c ∈ name.toList := hname ▸ List.mem_cons_self
    rw [allBlank, hname, List.all_cons, (h.all c hc).not_isBlank, Bool.false_and]
  have hdotted : Settings.isDottedIdentifier name = true := by
    rw [Settings.isDottedIdentifier, split, splitOnChar_of_notMem h.dot_notMem]
    simp [h.isIdentifier]
  rw [Settings.checkNamespace, hblank, hdotted]
  rfl

theorem make_of_isWordOf (h : IsWordOf IsSnakeChar name) (outputDir : String) (dialect : Json)
    (templateDir : Option String) :
    ∃ s, Settings.make (.str outputDir) (.str name) dialect (templateDir.elim .null .str) = .ok s ∧
      s.namespaceName = name := by
  refine ⟨⟨.ofString outputDir, name, dialect, templateDir.map .ofString⟩, ?_, rfl⟩
  rw [Settings.make, checkNamespace_of_isWordOf h]
  cases templateDir <;> rfl

/-! ## Keywords -/

/-- A keyword of Python is one word, which is left as it is. -/
theorem plain_of_mem_pythonKeywords {word : String} (h : word ∈ pythonKeywords) :
    '_' ∉ word.toList ∧ word ≠ "" ∧ normalize word = word := by
  have halpha : ∀ c ∈ word.toList, c.isAlpha = true := isAlpha_of_mem_pythonKeywords word h
  have hplain : IsPlainName word := fun c hc => by
    have hletter : (c.isUpper || c.isLower) = true := halpha c hc
    exact Or.inl (by rw [isAsciiAlphanumeric, hletter, Bool.true_or])
  have hne : word ≠ "" := by
    rintro rfl
    exact absurd h (by decide)
  refine ⟨fun hmem => absurd (halpha _ hmem) (by decide), hne, ?_⟩
  obtain ⟨c, rest, hword⟩ := List.exists_cons_of_ne_nil (mt String.toList_eq_nil_iff.1 hne)
  have hdigit := isDigit_eq_false_of_isAlpha (halpha c (hword ▸ List.mem_cons_self))
  rw [normalize_of_isPlainName hplain, hword, guardDigit_cons_of_not hdigit, ← hword,
    String.ofList_toList]

/-- Nothing but a keyword is left of the title: in snake case it is the keyword with underscores around
it. -/
def IsKeywordTitle (title : String) : Prop :=
  ∃ word ∈ pythonKeywords, ∃ m n, (titleStem title).toList =
    List.replicate m '_' ++ (word.toList ++ List.replicate n '_')

theorem titleWords_eq_singleton_iff {word : String} : titleWords title = [word] ↔
    word.toList ≠ [] ∧ '_' ∉ word.toList ∧ ∃ m n, (titleStem title).toList =
      List.replicate m '_' ++ (word.toList ++ List.replicate n '_') := by
  have hfilter : titleWords title =
      ((splitOnChar '_' (titleStem title).toList).filter (· ≠ [])).map String.ofList := by
    rw [titleWords, split, List.filter_map]
    congr 2
    funext piece
    have hempty : (String.ofList piece ≠ "") ↔ piece ≠ [] := by
      rw [ne_eq, ← String.toList_inj, String.toList_ofList]
      rfl
    exact decide_eq_decide.2 hempty
  rw [← filter_splitOnChar_eq_singleton_iff, hfilter, List.map_eq_singleton_iff]
  constructor
  · rintro ⟨piece, hpiece, rfl⟩
    rw [hpiece, String.toList_ofList]
  · exact fun h => ⟨_, h, String.ofList_toList⟩

/-- Words that are joined by underscores give a text without one only if there is one word. -/
theorem eq_singleton_of_join {words : List String} {word : String} (hword : '_' ∉ word.toList)
    (hne : word ≠ "") (h : join "_" words = word) : words = [word] := by
  have hmark : "_".toList = ['_'] := by decide
  match words with
  | [] => exact absurd h.symm hne
  | [only] => exact congrArg (fun w => [w]) h
  | first :: next :: rest =>
    rw [join_cons_cons] at h
    refine absurd ?_ hword
    rw [← h, String.toList_append, String.toList_append, hmark]
    simp

theorem namespaceOfTitle_mem_pythonKeywords_iff :
    namespaceOfTitle title ∈ pythonKeywords ↔ IsKeywordTitle title := by
  constructor
  · intro h
    obtain ⟨hmark, hne, -⟩ := plain_of_mem_pythonKeywords h
    rw [namespaceOfTitle_eq] at h hmark
    split_ifs at h with hempty
    · exact absurd h (by decide)
    rw [if_neg hempty] at hmark
    -- the digit that a name may not begin with would be behind an underscore, so there is none
    have hguard : normalize (join "_" (titleWords title)) = join "_" (titleWords title) := by
      rw [normalize_join] at hmark ⊢
      cases hjoin : (join "_" (titleWords title)).toList with
      | nil => exact String.toList_inj.1 (by rw [hjoin]; rfl)
      | cons c rest =>
        rw [hjoin, guardDigit] at hmark
        rw [guardDigit]
        split_ifs at hmark ⊢ with hdigit
        · simp at hmark
        · rw [← hjoin, String.ofList_toList]
    rw [hguard] at h hmark
    have hword := plain_of_mem_pythonKeywords h
    have hwords := eq_singleton_of_join hmark hword.2.1 rfl
    obtain ⟨-, -, hstem⟩ := titleWords_eq_singleton_iff.1 hwords
    exact ⟨_, h, hstem⟩
  · rintro ⟨word, hword, hstem⟩
    obtain ⟨hmark, hne, hnormal⟩ := plain_of_mem_pythonKeywords hword
    have hwords : titleWords title = [word] :=
      titleWords_eq_singleton_iff.2 ⟨by simpa using hne, hmark, hstem⟩
    rw [namespaceOfTitle_eq, hwords, join, hnormal, if_neg hne]
    exact hword

/-! ## Imports -/

/-- What an import statement may name: identifiers that are no keywords, with dots between them. -/
def isModulePath (path : String) : Bool :=
  (split '.' path).all isPythonIdentifier

/-- The package of the types of a client. -/
def typesModule (namespaceName : String) : String :=
  namespaceName ++ "." ++ Dialect.typesDir

theorem isModulePath_typesModule_iff (h : IsWordOf IsSnakeChar name) :
    isModulePath (typesModule name) = true ↔ name ∉ pythonKeywords := by
  have hdot : ".".toList = ['.'] := by decide
  have hdir : '.' ∉ Dialect.typesDir.toList ∧ isPythonIdentifier Dialect.typesDir = true := by
    decide
  have hcut : (typesModule name).toList = name.toList ++ '.' :: Dialect.typesDir.toList := by
    simp [typesModule, String.toList_append, hdot]
  rw [isModulePath, split, hcut, splitOnChar_append, splitOnChar_of_notMem h.dot_notMem,
    splitOnChar_of_notMem hdir.1]
  have hname : isPythonIdentifier name = true ↔ name ∉ pythonKeywords := by
    simp [isPythonIdentifier, h.isIdentifier]
  simpa [hdir.2] using hname

/-- Settings take the namespace that is made of a title, whatever the title is, and a client can import
the package of its types unless nothing but a keyword is left of the title. -/
theorem namespace_usable_iff (title : String) :
    let name := namespaceOfTitle title
    IsWordOf IsSnakeChar name ∧
    (∀ (outputDir : String) (dialect : Json) (templateDir : Option String), ∃ s,
      Settings.make (.str outputDir) (.str name) dialect (templateDir.elim .null .str) = .ok s ∧
        s.namespaceName = name) ∧
    (isModulePath (typesModule name) = true ↔ ¬IsKeywordTitle title) := by
  have hword := isWordOf_namespaceOfTitle title
  refine ⟨hword, fun outputDir dialect templateDir => ?_, ?_⟩
  · exact make_of_isWordOf hword outputDir dialect templateDir
  · rw [isModulePath_typesModule_iff hword, namespaceOfTitle_mem_pythonKeywords_iff]

/-- Of this title the keyword is left, and its client would have to import from a module of that name. -/
theorem namespace_of_class :
    namespaceOfTitle "Class" = "class" ∧ "class" ∈ pythonKeywords ∧
      isModulePath (typesModule (namespaceOfTitle "Class")) = false := by
  decide

end ApiClient.Naming
