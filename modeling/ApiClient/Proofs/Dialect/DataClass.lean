import ApiClient.Dialect.Rendering
import ApiClient.Proofs.Naming.Collision
import ApiClient.Proofs.Template.Filling
import ApiClient.Proofs.Template.Source
import ApiClient.Proofs.Types.Expression
import Mathlib

/-!
# The files of data classes

The file of a Kotlin type ends in its data class, which has one parameter for each field in the order
of the fields (`dataClass`). It stands there in full if nothing in it is taken for the mark of a line
that is to go (`exists_dataClass_of_renderType`), and only the name of a property could be
(`unmarked_parameterLine`).
-/

namespace ApiClient.Dialect.Kotlin

open Naming Template

/-! ## Parameters -/

/-- The type of a parameter, with a value for one that may be left out. -/
def parameterType (f : Field) : String :=
  if f.required then f.type.short else optionalType kotlin f.type.short ++ " = null"

/-- The parameter of a field in the constructor of a data class. -/
def parameterLine (f : Field) : String :=
  String.join [
    "@SerialName(", kotlinString f.name, ") val ", f.identifier, ": ", parameterType f, ","]

/-- A data class with one parameter for each field. -/
def dataClass (t : NamedType) : String :=
  String.join [
    "@Serializable\ndata class ", t.name, "(\n    ",
    Text.join "\n    " (t.fields.map parameterLine), "\n)\n"]

theorem propertyLines_map_property (fields : List Field) :
    propertyLines (fields.map Field.property) = .ok ((fields.map parameterLine).map .str) := by
  induction fields with
  | nil => rfl
  | cons f rest ih =>
    have hline : propertyLine f.property = .ok (parameterLine f) := rfl
    rw [List.map_cons, propertyLines, hline, ih]
    rfl

/-! ## Texts without a mark -/

theorem unmarked_of_isPlainName {name : String} (h : IsPlainName name) : Unmarked name.toList :=
  fun hmem => absurd (h _ hmem) (by decide)

theorem unmarked_kotlinString {name : String} (h : Unmarked name.toList) :
    Unmarked (kotlinString name).toList := by
  have hinside : Unmarked (kotlinInside name).toList := by
    rw [kotlinInside, String.toList_ofList]
    intro hmem
    obtain ⟨c, hc, hmem⟩ := List.mem_flatMap.1 hmem
    unfold kotlinChar at hmem
    split_ifs at hmem
    · rcases List.mem_cons.1 hmem with hslash | hself
      · exact absurd hslash (by decide)
      · exact h (List.mem_singleton.1 hself ▸ hc)
    · exact h (List.mem_singleton.1 hmem ▸ hc)
  simp only [kotlinString, String.toList_append, unmarked_append]
  exact ⟨⟨by decide, hinside⟩, by decide⟩

theorem unmarked_identifier (name : String) : Unmarked (kotlin.identifier name).toList := by
  have hplain := unmarked_of_isPlainName (isPlainName_parameterName name)
  rw [identifier, escapeKotlinKeyword]
  split_ifs
  · simp only [String.toList_append, unmarked_append]
    exact ⟨⟨by decide, hplain⟩, by decide⟩
  · exact hplain

theorem unmarked_parameterType {f : Field} (h : Unmarked f.type.short.toList) :
    Unmarked (parameterType f).toList := by
  rw [parameterType, optionalType]
  split_ifs
  · exact h
  · simp only [String.toList_append, unmarked_append]
    exact ⟨h, by decide⟩
  · simp only [String.toList_append, unmarked_append]
    exact ⟨⟨h, by decide⟩, by decide⟩

theorem unmarked_parameterLine {f : Field} (hname : Unmarked f.name.toList)
    (hidentifier : f.identifier = kotlin.identifier f.name) (htype : Unmarked f.type.short.toList) :
    Unmarked (parameterLine f).toList := by
  have hliteral := unmarked_kotlinString hname
  have hnamed : Unmarked f.identifier.toList := hidentifier ▸ unmarked_identifier f.name
  have hparameter := unmarked_parameterType htype
  simp only [parameterLine, String.join, List.foldl_cons, List.foldl_nil, String.toList_append,
    unmarked_append]
  exact ⟨⟨⟨⟨⟨⟨⟨by decide, by decide⟩, hliteral⟩, by decide⟩, hnamed⟩, by decide⟩, hparameter⟩,
    by decide⟩

theorem unmarked_dataClass {t : NamedType} (hname : Unmarked t.name.toList)
    (hfields : ∀ f ∈ t.fields, Unmarked (parameterLine f).toList) :
    Unmarked (dataClass t).toList := by
  have hlines : Unmarked (Text.join "\n    " (t.fields.map parameterLine)).toList :=
    unmarked_join (by decide) (List.forall_mem_map.2 hfields)
  simp only [dataClass, String.join, List.foldl_cons, List.foldl_nil, String.toList_append,
    unmarked_append]
  exact ⟨⟨⟨⟨⟨by decide, by decide⟩, hname⟩, by decide⟩, hlines⟩, by decide⟩

/-! ## The template -/

/-- The lines between the package of a file and the comment of its type. -/
def typeImports : String :=
  "import kotlinx.serialization.SerialName\nimport kotlinx.serialization.Serializable"

theorem scan_typeSource : scan typeSource = .ok [
    .text "package ", .placeholder "namespace" ⟨1, 8⟩,
    .text (".schemas\n\n" ++ typeImports ++ "\n\n"), .placeholder "doc" ⟨6, 0⟩,
    .text "\n@Serializable\ndata class ", .placeholder "name" ⟨8, 11⟩, .text "(\n    ",
    .placeholder "fields" ⟨9, 4⟩, .text "\n)\n"] :=
  scan_of_agrees (by decide +kernel)

/-- The pieces in front of a data class. -/
def headPieces : List (Template.Part Template) :=
  [.text "package ", .slot "namespace", .text (".schemas\n\n" ++ typeImports ++ "\n\n"), .slot "doc"]

/-- The pieces of a data class, with the end of the line in front of it. -/
def classPieces : List (Template.Part Template) :=
  [.text "\n@Serializable\ndata class ", .slot "name", .text "(\n    ", .slot "fields", .text "\n)\n"]

/-- The template of the file of a type. -/
def typePieces : Template where
  parts := headPieces ++ classPieces
  inputs := [{ name := "namespace" }, { commentDeclaration with form := .plain }, { name := "name" },
    { linesDeclaration "fields" "\n    " with form := .plain }]
  indent := 0

theorem typeTemplate_eq : typeTemplate = .ok typePieces := by
  rw [typeTemplate, ofSource_eq, scan_typeSource]
  rfl

/-! ## The file -/

theorem fillParts_classPieces {t : NamedType} {values : Table Json}
    {found : List (Variable × Option Json)} (hfound : resolve values typePieces.inputs = .ok found)
    (hname : values.get? "name" = some (.str t.name))
    (hfields : values.get? "fields" = some (.arr ((t.fields.map parameterLine).map .str))) :
    fillParts values found classPieces = .ok ('\n' :: (dataClass t).toList) := by
  have hnamed : fillPart values found (.slot "name") = .ok t.name.toList :=
    fillPart_text hfound rfl hname
  have hlisted : fillPart values found (.slot "fields") =
      .ok (Text.join "\n    " (t.fields.map parameterLine)).toList :=
    fillPart_slot hfound rfl (lookup_of_fits hfields (by simp) rfl) (joined_map_str _ _)
  have hfront : "\n@Serializable\ndata class ".toList =
      '\n' :: "@Serializable\ndata class ".toList := by decide
  rw [classPieces, fillParts_of_pieces (.cons rfl (.cons hnamed (.cons rfl (.cons hlisted
    (.cons rfl .nil)))))]
  simp [dataClass, String.join, hfront]

theorem exists_dataClass_line (t : NamedType) :
    ∃ line, (dataClass t).toList = line ++ ['\n'] := by
  have htail : "\n)\n".toList = "\n)".toList ++ ['\n'] := by decide
  refine ⟨(("@Serializable\ndata class ".toList ++ t.name.toList) ++ "(\n    ".toList) ++
    (Text.join "\n    " (t.fields.map parameterLine)).toList ++ "\n)".toList, ?_⟩
  simp [dataClass, String.join, htail]

/-- The text of a type ends in its data class. -/
theorem exists_dataClass_of_renderType {t : NamedType} {namespaceName : Json} {text : String}
    (h : renderType t.record namespaceName = .ok text) (hmarked : Unmarked (dataClass t).toList) :
    ∃ head, text = head ++ dataClass t := by
  rw [renderType, NamedType.record, propertyLines_map_property, typeTemplate_eq] at h
  obtain ⟨found, filled, hfound, hfilled, htext⟩ := exists_of_fill (fill_of_build h)
  obtain ⟨front, back, -, hback, rfl⟩ := exists_of_fillParts_append headPieces classPieces hfilled
  obtain rfl := Except.ok.inj ((fillParts_classPieces hfound rfl rfl).symm.trans hback)
  obtain ⟨line, hline⟩ := exists_dataClass_line t
  have hkept : keptText line = line ++ ['\n'] := by
    rw [hline] at hmarked
    exact keptText_of_unmarked (unmarked_append.1 hmarked).1
  refine ⟨String.ofList (keptText front), String.toList_injective ?_⟩
  have hcut : front ++ '\n' :: (dataClass t).toList = (front ++ '\n' :: line) ++ ['\n'] := by
    simp [hline]
  have hindent : typePieces.indent = 0 := rfl
  rw [htext, hindent, hcut, finish_append_newline, keptText_append_cons, hkept, ← hline]
  simp

end ApiClient.Dialect.Kotlin
