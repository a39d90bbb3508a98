import ApiClient.Proofs.Dialect.RootLayout
import Mathlib

/-!
# Comments of root files

The title and the version of a document stand in the comments of a root file as they are, so a comment
ends at its own end if and only if neither of them closes it before: for Python, if they do not hold three
quotes in a row (`Python.behind?_rootDocstring_iff`, `Python.behind?_classDocstring_iff`); for Kotlin, if
what they open is closed again and nothing else is (`Kotlin.behind?_rootComment_iff`). A description is
escaped for Python, and never closes a comment for Kotlin, but it may open one.
-/

namespace ApiClient.Dialect

open Template

variable {r : Root} {title version : String} {description : Option String}

namespace Python

open Docstring

theorem unmarked_headDoc {text : String} (h : Unmarked text.toList) :
    Unmarked (headDoc text).toList := fun hmem =>
  h (mem_of_mem_headDoc (by decide) (by decide) hmem)

theorem behind?_rootDocstring_iff (title version : String) (description : Option String)
    (rest : List Char) : behind? (rootDocstring title version description ++ rest) = some rest ↔
      StaysOpen title.toList ∧ StaysOpen version.toList := by
  have htail : StaysOpen (descriptionTail [] headDoc description) := by
    cases description with
    | none => exact staysOpen_nil
    | some s =>
      exact (staysOpen_break [] '\n' _ (by decide)).2 ⟨staysOpen_nil, staysOpen_headDoc s⟩
  have hcut : rootDocstring title version description ++ rest =
      quotes ++ (rootDoc title version description ++ '\n' :: (quotes ++ rest)) := by
    simp [rootDocstring]
  have hdoc : rootDoc title version description = [] ++ '\n' :: (title.toList ++ ' ' ::
      (version.toList ++ '\n' :: descriptionTail [] headDoc description)) := by
    simp [rootDoc]
  rw [hcut, behind?_eq_some_iff (by decide) (by decide), hdoc,
    staysOpen_append_cons (by decide) (by decide), and_iff_right staysOpen_nil,
    staysOpen_append_cons (by decide) (by decide), staysOpen_append_cons (by decide) (by decide),
    and_iff_left htail]

theorem behind?_classDocstring_iff (title : String) (rest : List Char) :
    behind? (classDocstring title ++ rest) = some rest ↔ StaysOpen title.toList := by
  have hfront : StaysOpen classFront.toList := by
    rw [← Text.chars_eq]
    decide +kernel
  have hback : StaysOpen classBack.toList := by
    rw [← Text.chars_eq]
    decide +kernel
  have hcut : classDocstring title ++ rest = quotes ++ ((classFront.toList ++ ' ' ::
      (title.toList ++ ' ' :: classBack.toList)) ++ '.' :: (quotes ++ rest)) := by
    simp [classDocstring, classDoc]
  rw [hcut, behind?_eq_some_iff (by decide) (by decide), staysOpen_append_cons (by decide) (by decide),
    and_iff_right hfront, staysOpen_append_cons (by decide) (by decide), and_iff_left hback]

end Python

namespace Kotlin

open BlockComment

theorem unmarked_headComment {text : String} (h : Unmarked text.toList) :
    Unmarked (headComment text).toList := fun hmem =>
  h (mem_of_mem_headComment (by decide) (by decide) (by decide) hmem)

/-- How many comments a description opens. -/
def descriptionOpeners : Option String → Nat
  | none => 0
  | some s => openers (headComment s).toList

theorem descriptionOpeners_eq_zero_iff :
    descriptionOpeners description = 0 ↔ ∀ s ∈ description, ¬opener <:+: s.toList := by
  cases description with
  | none => simp [descriptionOpeners]
  | some s => simp [descriptionOpeners, openers_eq_zero_iff, opener_headComment_iff]

theorem nesting_descriptionTail (depth : Nat) (description : Option String) :
    nesting depth (descriptionTail lead headComment description ++ ['\n']) =
      some (depth + descriptionOpeners description) := by
  cases description with
  | none => rfl
  | some s =>
    have hcut : descriptionTail lead headComment (some s) ++ ['\n'] =
        [] ++ '\n' :: ([' ', '*'] ++ ' ' :: ((headComment s).toList ++ '\n' :: [])) := by
      simp [descriptionTail, lead]
    have hstar : nesting depth [' ', '*'] = some depth := rfl
    rw [hcut, nesting_append_cons (by decide) (by decide), nesting, Option.bind_some,
      nesting_append_cons (by decide) (by decide), hstar, Option.bind_some,
      nesting_append_cons (by decide) (by decide),
      nesting_of_not_closer (not_closer_headComment s), Option.bind_some, nesting, descriptionOpeners]

theorem nesting_rootDoc (title version : String) (description : Option String) :
    nesting 0 (rootDoc title version description) =
      ((nesting 0 title.toList).bind (nesting · version.toList)).map
        (· + descriptionOpeners description) := by
  obtain ⟨more, hmore⟩ : ∃ more, descriptionTail lead headComment description ++ ['\n'] =
      '\n' :: more := by
    cases description <;> exact ⟨_, rfl⟩
  have htail : ∀ depth, nesting depth more = some (depth + descriptionOpeners description) :=
    fun depth => by
      rw [← nesting_descriptionTail, hmore, nesting_cons_other (by decide) (by decide)]
  have hcut : rootDoc title version description =
      ['*'] ++ '\n' :: ([' ', '*'] ++ ' ' :: (title.toList ++ ' ' ::
        (version.toList ++ '\n' :: more))) := by
    simp [rootDoc, lead, ← hmore]
  have hfirst : nesting 0 ['*'] = some 0 := rfl
  have hstar : nesting 0 [' ', '*'] = some 0 := rfl
  rw [hcut, nesting_append_cons (by decide) (by decide), hfirst, Option.bind_some,
    nesting_append_cons (by decide) (by decide), hstar, Option.bind_some,
    nesting_append_cons (by decide) (by decide)]
  simp only [nesting_append_cons (by decide : '\n' ≠ '/') (by decide : '\n' ≠ '*'), htail]
  cases nesting 0 title.toList with
  | none => rfl
  | some depth =>
    rw [Option.bind_some, Option.bind_some]
    cases nesting depth version.toList <;> rfl

/-- The comment of a root file ends at its own end if and only if the title and the version together
close what they open and nothing else, and the description opens nothing. -/
theorem behind?_rootComment_iff (title version : String) (description : Option String)
    (rest : List Char) : behind? (rootComment title version description ++ rest) = some rest ↔
      (nesting 0 title.toList).bind (nesting · version.toList) = some 0 ∧
        ∀ s ∈ description, ¬opener <:+: s.toList := by
  have hcut : rootComment title version description ++ rest =
      opener ++ (rootDoc title version description ++ ' ' :: (closer ++ rest)) := by
    simp [rootComment]
  rw [hcut, behind?_eq_some_iff (by decide) (by decide), nesting_rootDoc, Option.map_eq_some_iff,
    ← descriptionOpeners_eq_zero_iff]
  constructor
  · rintro ⟨depth, hdepth, hzero⟩
    obtain ⟨rfl, hopeners⟩ := Nat.add_eq_zero_iff.1 hzero
    exact ⟨hdepth, hopeners⟩
  · rintro ⟨hdepth, hopeners⟩
    exact ⟨0, hdepth, by rw [hopeners]⟩

end Kotlin

/-! ## Root files -/

/-- A root file with texts without the character of a marker is written in both dialects. Each of its
comments that holds some of them is closed by its own end, whatever follows, if and only if: for the
Python module, the title and the version hold no three quotes in a row that are not escaped; for the Python
class, the title holds none; for the Kotlin comment, the title and the version together close what they
open and nothing else, and the description opens nothing. -/
theorem renderRoot_comments (h : r.Says title version description) (htitle : Unmarked title.toList)
    (hversion : Unmarked version.toList) (hdescription : ∀ s ∈ description, Unmarked s.toList) :
    (∃ settings members, python.renderRoot r =
      .ok (String.ofList (Python.rootLayout title version description settings members))) ∧
    (∃ package members, kotlin.renderRoot r =
      .ok (String.ofList (Kotlin.rootLayout title version description package members))) ∧
    ∀ rest,
      (Docstring.behind? (Python.rootDocstring title version description ++ rest) = some rest ↔
        Docstring.StaysOpen title.toList ∧ Docstring.StaysOpen version.toList) ∧
      (Docstring.behind? (Python.classDocstring title ++ rest) = some rest ↔
        Docstring.StaysOpen title.toList) ∧
      (BlockComment.behind? (Kotlin.rootComment title version description ++ rest) = some rest ↔
        (BlockComment.nesting 0 title.toList).bind (BlockComment.nesting · version.toList) = some 0 ∧
          ∀ s ∈ description, ¬BlockComment.opener <:+: s.toList) :=
  ⟨Python.exists_layout h htitle hversion fun s hs => Python.unmarked_headDoc (hdescription s hs),
    Kotlin.exists_layout h htitle hversion fun s hs => Kotlin.unmarked_headComment (hdescription s hs),
    fun rest => ⟨Python.behind?_rootDocstring_iff title version description rest,
      Python.behind?_classDocstring_iff title rest,
      Kotlin.behind?_rootComment_iff title version description rest⟩⟩

/-- A root without operations. -/
def bareRoot (title : String) (description : Option String) : Root where
  namespaceName := .str "acme"
  title := .str title
  version := .str "1"
  description := orNull description
  servers := .arr []
  scope := { name := .str "API" }
  hasTypes := .bool false

theorem says_bareRoot (title : String) (description : Option String) :
    (bareRoot title description).Says title "1" description where
  title_eq := rfl
  version_eq := rfl
  description_eq := rfl
  namespace_eq := ⟨_, rfl⟩
  servers_eq := ⟨[], rfl⟩
  functions_eq := ⟨[], rfl⟩
  children_eq := ⟨[], rfl⟩
  hasTypes_eq := ⟨_, rfl⟩

/-- Quotes in the title and a closer in the description close nothing. -/
theorem renderRoot_comments_files :
    ((bareRoot "\"Files\"" (some "under */")).Says "\"Files\"" "1" (some "under */") ∧
      Unmarked "\"Files\"".toList ∧ Unmarked "1".toList ∧ ∀ s ∈ some "under */", Unmarked s.toList) ∧
    ∀ rest,
      Docstring.behind? (Python.rootDocstring "\"Files\"" "1" (some "under */") ++ rest) = some rest ∧
      Docstring.behind? (Python.classDocstring "\"Files\"" ++ rest) = some rest ∧
      BlockComment.behind? (Kotlin.rootComment "\"Files\"" "1" (some "under */") ++ rest) =
        some rest := by
  have hroot := says_bareRoot "\"Files\"" (some "under */")
  have hdescription : ∀ s ∈ some "under */", Unmarked s.toList := by decide
  have hopener : ∀ s ∈ some "under */", ¬BlockComment.opener <:+: s.toList := by decide
  obtain ⟨-, -, hcomments⟩ := renderRoot_comments hroot (by decide) (by decide) hdescription
  refine ⟨⟨hroot, by decide, by decide, hdescription⟩, fun rest => ?_⟩
  obtain ⟨hmodule, hclass, hcomment⟩ := hcomments rest
  exact ⟨hmodule.2 ⟨by decide, by decide⟩, hclass.2 (by decide), hcomment.2 ⟨by decide, hopener⟩⟩

/-- Three quotes in the title close both docstrings early, and a closer the comment. -/
theorem renderRoot_comments_early :
    (∃ settings members, python.renderRoot (bareRoot "\"\"\" */" none) =
      .ok (String.ofList (Python.rootLayout "\"\"\" */" "1" none settings members))) ∧
    (∃ package members, kotlin.renderRoot (bareRoot "\"\"\" */" none) =
      .ok (String.ofList (Kotlin.rootLayout "\"\"\" */" "1" none package members))) ∧
    ∀ rest, Docstring.behind? (Python.rootDocstring "\"\"\" */" "1" none ++ rest) ≠ some rest ∧
      Docstring.behind? (Python.classDocstring "\"\"\" */" ++ rest) ≠ some rest ∧
      BlockComment.behind? (Kotlin.rootComment "\"\"\" */" "1" none ++ rest) ≠ some rest := by
  have hroot := says_bareRoot "\"\"\" */" none
  have htitle : Unmarked "\"\"\" */".toList := by decide
  have hopen : ¬Docstring.StaysOpen "\"\"\" */".toList := by decide
  refine ⟨Python.exists_layout hroot htitle (by decide) (by simp),
    Kotlin.exists_layout hroot htitle (by decide) (by simp),
    fun rest => ⟨fun h => ?_, fun h => ?_, fun h => ?_⟩⟩
  · exact hopen ((Python.behind?_rootDocstring_iff _ _ _ _).1 h).1
  · exact hopen ((Python.behind?_classDocstring_iff _ _).1 h)
  · exact absurd ((Kotlin.behind?_rootComment_iff _ _ _ _).1 h).1 (by decide)

end ApiClient.Dialect
