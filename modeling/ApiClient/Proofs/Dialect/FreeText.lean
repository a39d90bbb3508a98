import ApiClient.Dialect.Comment
import ApiClient.Dialect.Url
import ApiClient.Proofs.Json.Spelling
import ApiClient.Proofs.Template.Filling
import ApiClient.Proofs.Template.Separation
import Mathlib

/-!
# Texts of a document without a marker

Comments and string literals cut a text at white space, put other characters in the place of backslashes,
quotes, dollar signs and line ends, and add some of their own, none of which is a character of the marker.
So each of them holds the marker exactly if its text does (`markerFree_docstring_iff`,
`markerFree_docComment_iff`, `markerFree_kotlinString_iff` and the like): no marker is made up, and none
goes away. Only a Python literal is without the marker whatever its text is (`unmarked_pythonString`).
-/

namespace ApiClient

open Template Text

namespace Template

theorem markerFree_ofList {cs : List Char} : MarkerFree (String.ofList cs).toList ↔ MarkerFree cs := by
  rw [String.toList_ofList]

/-- Foreign characters that are replaced by foreign ones make no difference. -/
theorem markerFree_of_recast {cs cs' : List Char} (h : Recast dropMarker cs cs') :
    MarkerFree cs' ↔ MarkerFree cs :=
  not_congr (h.isInfix_iff dropMarker_ne_nil).symm

theorem markerFree_replaceAll {old new : String} (hold : IsForeign dropMarker old.toList)
    (hnew : IsForeign dropMarker new.toList) (s : String) :
    MarkerFree (replaceAll old new s).toList ↔ MarkerFree s.toList := by
  rw [replaceAll, markerFree_ofList]
  exact markerFree_of_recast (recast_replaceChars hold hnew s.toList)

theorem markerFree_strip (s : String) : MarkerFree (strip s).toList ↔ MarkerFree s.toList := by
  rw [strip, markerFree_ofList]
  exact not_congr (isInfix_trim_iff dropMarker_ne_nil isBlank_of_mem_dropMarker s.toList)

theorem forall_lines_markerFree_iff (s : String) :
    (∀ line ∈ lines s, MarkerFree line.toList) ↔ MarkerFree s.toList := by
  have hlines := not_isInfix_iff_forall_linesOf dropMarker_ne_nil isBlank_of_mem_dropMarker s.toList
  rw [MarkerFree, hlines, lines, List.forall_mem_map]
  exact forall₂_congr fun line _ => markerFree_ofList

/-- Joined texts hold the marker if one of them does. -/
theorem markerFree_join_iff {separator : String} (h : IsForeign dropMarker separator.toList)
    (texts : List String) :
    MarkerFree (join separator texts).toList ↔ ∀ text ∈ texts, MarkerFree text.toList := by
  rw [MarkerFree, isInfix_join_iff dropMarker_ne_nil h]
  simp [MarkerFree]

end Template

namespace Dialect

/-! ## Docstrings -/

variable {indent : Nat} {text out line : String}

theorem markerFree_escapeDoc_iff (s : String) :
    MarkerFree (escapeDoc s).toList ↔ MarkerFree s.toList := by
  have hslash : IsForeign dropMarker "\\".toList ∧ IsForeign dropMarker "\\\\".toList := by decide
  have hquotes : IsForeign dropMarker "\"\"\"".toList ∧
      IsForeign dropMarker "\\\"\\\"\\\"".toList := by decide
  rw [escapeDoc, markerFree_replaceAll hquotes.1 hquotes.2, markerFree_replaceAll hslash.1 hslash.2]

theorem markerFree_guardQuote_iff (s : String) :
    MarkerFree (guardQuote s).toList ↔ MarkerFree s.toList := by
  have hquote : '"' ∉ dropMarker ∧ Unmarked "\\\"".toList := by decide
  rw [guardQuote]
  split
  · rename_i rest hrest
    have hs : s.toList = rest.reverse ++ ['"'] := by
      rw [← List.reverse_reverse s.toList, hrest, List.reverse_cons]
    rw [String.toList_append, String.toList_ofList, markerFree_append_unmarked hquote.2, hs,
      markerFree_append_cons hquote.1, and_iff_left markerFree_nil]
  · rfl

theorem unmarked_blanks (n : Nat) : Unmarked (blanks n).toList := by
  rw [blanks, String.toList_ofList]
  exact fun hmem => absurd (List.eq_of_mem_replicate hmem) (by decide)

theorem markerFree_docLine_iff (indent : Nat) (line : String) :
    MarkerFree (docLine indent line).toList ↔ MarkerFree line.toList := by
  rw [docLine]
  split_ifs with hblank
  · refine iff_of_true markerFree_nil (markerFree_of_unmarked fun hmem => ?_)
    exact absurd (List.all_eq_true.1 hblank _ hmem) (by decide)
  · rw [String.toList_append, markerFree_append_of_unmarked (unmarked_blanks indent)]

theorem markerFree_docstring_iff (h : docstring indent text = .ok out) :
    MarkerFree out.toList ↔ MarkerFree text.toList := by
  have hquotes : Unmarked "\"\"\"".toList := by decide
  have hfeed : IsForeign dropMarker "\n".toList := by decide
  have htext := forall_lines_markerFree_iff (guardQuote (escapeDoc (strip text)))
  rw [markerFree_guardQuote_iff, markerFree_escapeDoc_iff, markerFree_strip] at htext
  rw [← htext]
  unfold docstring at h
  split at h
  · cases h
  · rename_i line hlines
    obtain rfl := Except.ok.inj h
    rw [hlines, String.toList_append, String.toList_append, markerFree_append_unmarked hquotes,
      markerFree_append_of_unmarked hquotes, List.forall_mem_singleton]
  · rename_i line rest hne hlines
    obtain rfl := Except.ok.inj h
    have hrest := markerFree_join_iff hfeed (rest.map (docLine indent))
    rw [List.forall_mem_map, forall₂_congr fun line _ => markerFree_docLine_iff indent line] at hrest
    have hbreak : "\n".toList = ['\n'] := by decide
    have hfree : '\n' ∉ dropMarker := by decide
    rw [hlines, List.forall_mem_cons, ← hrest]
    simp only [String.toList_append, hbreak, List.append_assoc, List.cons_append, List.nil_append]
    rw [markerFree_append_of_unmarked hquotes, markerFree_append_cons hfree,
      markerFree_append_cons hfree, markerFree_append_of_unmarked (unmarked_blanks indent),
      and_iff_left (markerFree_of_unmarked hquotes)]

theorem markerFree_headDoc_iff (text : String) :
    MarkerFree (headDoc text).toList ↔ MarkerFree text.toList := by
  rw [headDoc, markerFree_escapeDoc_iff, markerFree_strip]

theorem markerFree_collapse_iff (text : String) :
    MarkerFree (collapse text).toList ↔ MarkerFree text.toList := by
  have hblank : IsForeign dropMarker " ".toList := by decide
  have hwords := isInfix_words_iff dropMarker_ne_nil isBlank_of_mem_dropMarker text
  rw [collapse, markerFree_join_iff hblank, MarkerFree, hwords]
  simp [MarkerFree]

/-! ## Comments -/

theorem markerFree_openComment_iff (text : String) :
    MarkerFree (openComment text).toList ↔ MarkerFree text.toList := by
  have hforeign : IsForeign dropMarker "*/".toList ∧ IsForeign dropMarker "* /".toList := by decide
  rw [openComment, markerFree_replaceAll hforeign.1 hforeign.2, markerFree_strip]

theorem markerFree_commentLine_iff (line : String) :
    MarkerFree (commentLine line).toList ↔ MarkerFree line.toList := by
  have hfront : Unmarked " * ".toList := by decide
  have htrim := isInfix_trimEnd_iff dropMarker_ne_nil isBlank_of_mem_dropMarker (" * " ++ line).toList
  rw [commentLine, markerFree_ofList, MarkerFree, htrim, String.toList_append]
  exact markerFree_append_of_unmarked hfront

theorem markerFree_docComment_iff (text : String) :
    MarkerFree (docComment text).toList ↔ MarkerFree text.toList := by
  have hends : Unmarked "/** ".toList ∧ Unmarked " */".toList ∧ Unmarked "/**\n".toList ∧
      Unmarked "\n */".toList := by decide
  have hfeed : IsForeign dropMarker "\n".toList := by decide
  have htext := forall_lines_markerFree_iff (openComment text)
  rw [markerFree_openComment_iff] at htext
  rw [← htext, docComment]
  split
  · rename_i line hlines
    rw [hlines, String.toList_append, String.toList_append, markerFree_append_unmarked hends.2.1,
      markerFree_append_of_unmarked hends.1, List.forall_mem_singleton]
  · rw [String.toList_append, String.toList_append, markerFree_append_unmarked hends.2.2.2,
      markerFree_append_of_unmarked hends.2.2.1, markerFree_join_iff hfeed, List.forall_mem_map]
    exact forall₂_congr fun line _ => markerFree_commentLine_iff line

theorem markerFree_headComment_iff (text : String) :
    MarkerFree (headComment text).toList ↔ MarkerFree text.toList := by
  have hforeign : IsForeign dropMarker "\n".toList ∧ IsForeign dropMarker "\n * ".toList := by decide
  rw [headComment, markerFree_replaceAll hforeign.1 hforeign.2, markerFree_openComment_iff]

/-! ## String literals -/

theorem unmarked_pythonString (s : String) : Unmarked (pythonString s).toList :=
  Json.unmarked_literal s

theorem markerFree_kotlinInside_iff (s : String) :
    MarkerFree (kotlinInside s).toList ↔ MarkerFree s.toList := by
  rw [kotlinInside, markerFree_ofList]
  refine markerFree_of_recast (recast_flatMap fun c _ => ?_)
  rw [kotlinChar]
  split_ifs with hc
  · rcases hc with rfl | rfl | rfl <;> exact Or.inr (by decide)
  · exact Or.inl rfl

theorem markerFree_kotlinString_iff (s : String) :
    MarkerFree (kotlinString s).toList ↔ MarkerFree s.toList := by
  have hquote : Unmarked "\"".toList := by decide
  rw [kotlinString, String.toList_append, String.toList_append, markerFree_append_unmarked hquote,
    markerFree_append_of_unmarked hquote, markerFree_kotlinInside_iff]

/-! ## URLs -/

variable {identifiers : Identifiers} {url : String}

theorem forall_split_markerFree_iff (url : String) :
    (∀ segment ∈ split '/' url, MarkerFree segment.toList) ↔ MarkerFree url.toList := by
  have hbreak : ∀ a b, MarkerFree (a ++ '/' :: b) ↔ MarkerFree a ∧ MarkerFree b := fun a b =>
    markerFree_append_cons (by decide)
  rw [forall_splitOnChar_iff hbreak, split, List.forall_mem_map]
  exact forall₂_congr fun segment _ => markerFree_ofList

theorem unmarked_identifierFor (h : ∀ e ∈ identifiers, Unmarked e.2.toList) {segment identifier : String}
    (hfound : identifierFor identifiers segment = some identifier) : Unmarked identifier.toList := by
  rw [identifierFor] at hfound
  obtain ⟨name, -, hfound⟩ := Option.bind_eq_some_iff.1 hfound
  obtain ⟨e, he, hidentifier⟩ := Option.bind_eq_some_iff.1 hfound
  obtain rfl := Option.some.inj hidentifier
  exact h e (List.mem_of_find?_eq_some he)

/-- The expression for a URL holds no marker if the URL does not. -/
theorem markerFree_urlExpression (d : Dialect) (hurl : MarkerFree url.toList)
    (h : ∀ e ∈ identifiers, Unmarked e.2.toList) : MarkerFree (d.urlExpression url identifiers).toList := by
  cases d with
  | python =>
    have hletter : Unmarked "f".toList := by decide
    rw [urlExpression]
    split_ifs
    · rw [String.toList_append, markerFree_append_of_unmarked hletter]
      exact markerFree_of_unmarked (unmarked_pythonString _)
    · exact markerFree_of_unmarked (unmarked_pythonString _)
  | kotlin =>
    have hmarks : Unmarked "\"".toList ∧ Unmarked "$\x7b".toList ∧ Unmarked "\x7d".toList := by decide
    have hslash : IsForeign dropMarker "/".toList := by decide
    rw [urlExpression, String.toList_append, String.toList_append,
      markerFree_append_unmarked hmarks.1, markerFree_append_of_unmarked hmarks.1,
      markerFree_join_iff hslash, List.forall_mem_map]
    intro segment hsegment
    rw [kotlinSegment]
    split
    · rename_i identifier hfound
      rw [String.toList_append, String.toList_append, markerFree_append_unmarked hmarks.2.2,
        markerFree_append_of_unmarked hmarks.2.1]
      exact markerFree_of_unmarked (unmarked_identifierFor h hfound)
    · exact (markerFree_kotlinInside_iff segment).2 ((forall_split_markerFree_iff url).2 hurl _ hsegment)

end Dialect

end ApiClient
