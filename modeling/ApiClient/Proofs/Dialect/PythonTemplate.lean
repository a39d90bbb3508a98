import ApiClient.Dialect.Python
import ApiClient.Proofs.Template.Line
import ApiClient.Proofs.Template.Source
import Mathlib

/-!
# The templates of Python types

Both forms of the module of a type have the names that are imported, the imports of other types and
the properties on lines of their own (`IsModule`), so all of these are lines of the text, if nothing in
them ends a line or marks one (`hasLine_typing`, `hasLine_references`, `hasLine_fields`).
-/

namespace ApiClient.Dialect.Python

open Template Text

/-! ## Pieces -/

/-- The imports of other types, as a template. -/
def referencesSource : String :=
  "\nif TYPE_CHECKING:\n%references%"

theorem scan_referencesSource : scan referencesSource = .ok [
    .text "\nif TYPE_CHECKING:\n", .placeholder "references" ⟨3, 0⟩] :=
  scan_of_agrees (by decide +kernel)

theorem scan_typeClassSource : scan typeClassSource = .ok [
    .placeholder "module_doc" ⟨1, 0⟩,
    .text "\n\nfrom __future__ import annotations\n\nfrom typing import ",
    .placeholder "typing_names" ⟨5, 19⟩, .text "\n",
    .conditional "has_references" referencesSource true ⟨6, 0⟩,
    .text "\n\n\nclass ", .placeholder "name" ⟨9, 6⟩, .text "(TypedDict):\n    ",
    .placeholder "doc" ⟨10, 4⟩, .text "\n    ", .placeholder "fields" ⟨11, 4⟩, .text "\n"] :=
  scan_of_agrees (by decide +kernel)

theorem scan_typeCallSource : scan typeCallSource = .ok [
    .placeholder "module_doc" ⟨1, 0⟩,
    .text "\n\nfrom __future__ import annotations\n\nfrom typing import ",
    .placeholder "typing_names" ⟨5, 19⟩, .text "\n",
    .conditional "has_references" referencesSource true ⟨6, 0⟩,
    .text "\n\n", .placeholder "name" ⟨8, 0⟩, .text " = TypedDict(\n    \"",
    .placeholder "name" ⟨9, 5⟩, .text "\",\n    \x7b\n        ", .placeholder "fields" ⟨11, 8⟩,
    .text "\n    \x7d,\n)\n"] :=
  scan_of_agrees (by decide +kernel)

/-- The branch with the imports of other types. -/
def referencesBranch : Template where
  parts := [.text "\nif TYPE_CHECKING:\n", .slot "references"]
  inputs := [{ linesDeclaration "references" "\n" with form := .plain }]
  indent := 0

theorem ofSource_references (separator : String) :
    ofSource (typeDeclarations ++ [linesDeclaration "fields" separator]) referencesSource 0 =
      .ok referencesBranch := by
  rw [ofSource_eq, scan_referencesSource]
  rfl

/-! ## Modules -/

/-- The variables of a module that stand in both forms. -/
def sharedInputs : List Variable :=
  [{ name := "module_doc", format := ofText (docstring 0) },
    { linesDeclaration "typing_names" ", " with form := .plain },
    { name := "has_references", form := .wholeLine },
    { name := "name" }]

/-- The pieces of a module: those that both forms share, then a heading, the text in front of the
properties, the properties, and the text behind them. -/
def moduleParts (heading : List (Template.Part Template)) (title tail : String) :
    List (Template.Part Template) :=
  [.slot "module_doc", .text "\n\nfrom __future__ import annotations\n\nfrom typing import ",
    .slot "typing_names", .text "\n", .branch "has_references" true referencesBranch] ++
  (heading ++ [.text title, .slot "fields", .text tail])

/-- A template for the module of a type whose properties are indented by `lead`. -/
structure IsModule (t : Template) (lead : String) : Prop where
  indent_eq : t.indent = 0
  parts_eq : ∃ heading title tail, t.parts = moduleParts heading title tail ∧
    BeginsLine (heading ++ [.text title, .slot "fields", .text tail]) ∧
    (∃ earlier, title.toList = earlier ++ '\n' :: lead.toList) ∧ BeginsLine [.text tail]
  typing_names : t.inputs.find? (·.name = "typing_names") =
    some { linesDeclaration "typing_names" ", " with form := .plain }
  has_references : t.inputs.find? (·.name = "has_references") =
    some { name := "has_references", form := .wholeLine }
  fields : t.inputs.find? (·.name = "fields") =
    some { linesDeclaration "fields" ("\n" ++ lead) with form := .plain }

/-- The template of the class form. -/
def typeClassPieces : Template where
  parts := moduleParts [.text "\n\n\nclass ", .slot "name", .text "(TypedDict):\n    ", .slot "doc"]
    "\n    " "\n"
  inputs := sharedInputs ++ [{ docDeclaration "doc" (ofText (docstring 4)) with form := .plain },
    { linesDeclaration "fields" "\n    " with form := .plain }]
  indent := 0

/-- The template of the call form. -/
def typeCallPieces : Template where
  parts := moduleParts [.text "\n\n", .slot "name", .text " = TypedDict(\n    \"", .slot "name"]
    "\",\n    \x7b\n        " "\n    \x7d,\n)\n"
  inputs := sharedInputs ++ [{ linesDeclaration "fields" "\n        " with form := .plain }]
  indent := 0

theorem typeClassTemplate_eq : typeClassTemplate = .ok typeClassPieces := by
  rw [typeClassTemplate, ofSource_eq, scan_typeClassSource]
  simp only [ofScan, assemble, Int.ofNat_zero, ofSource_references]
  rfl

theorem typeCallTemplate_eq : typeCallTemplate = .ok typeCallPieces := by
  rw [typeCallTemplate, ofSource_eq, scan_typeCallSource]
  simp only [ofScan, assemble, Int.ofNat_zero, ofSource_references]
  rfl

theorem isModule_typeClassTemplate : ∃ t, typeClassTemplate = .ok t ∧ IsModule t "    " :=
  ⟨typeClassPieces, typeClassTemplate_eq, rfl, ⟨_, _, _, rfl, ⟨_, rfl⟩, ⟨[], by decide⟩,
    ⟨[], by decide⟩⟩, rfl, rfl, rfl⟩

theorem isModule_typeCallTemplate : ∃ t, typeCallTemplate = .ok t ∧ IsModule t "        " :=
  ⟨typeCallPieces, typeCallTemplate_eq, rfl, ⟨_, _, _, rfl, ⟨_, rfl⟩,
    ⟨"\",\n    \x7b".toList, by decide⟩, ⟨"    \x7d,\n)\n".toList, by decide⟩⟩, rfl, rfl, rfl⟩

/-! ## Lines of a module -/

/-- A text that neither ends a line nor holds the character that marks one. -/
def IsClean (text : String) : Prop :=
  '\n' ∉ text.toList ∧ Char.ofNat 0 ∉ text.toList

theorem IsClean.append {a b : String} (ha : IsClean a) (hb : IsClean b) : IsClean (a ++ b) := by
  simp only [IsClean, String.toList_append, List.mem_append, not_or]
  exact ⟨⟨ha.1, hb.1⟩, ha.2, hb.2⟩

theorem joined_lines (separator : String) (xs : List String) :
    joined separator (lines xs) = .ok (Text.join separator xs) :=
  joined_map_str separator xs

variable {t : Template} {lead : String} {values : Table Json} {text : String}

theorem IsModule.hasLine_typing (ht : IsModule t lead) (h : t.build values = .ok text)
    {typing : List String} (hvalue : values.get? "typing_names" = some (lines typing))
    (hclean : IsClean (Text.join ", " typing)) :
    HasLine text ("from typing import " ++ Text.join ", " typing) := by
  obtain ⟨heading, title, tail, hparts, -⟩ := ht.parts_eq
  obtain ⟨found, piece, hfound, hpiece, hlines⟩ := exists_piece_of_fill (fill_of_build h)
    ht.indent_eq.le [.slot "module_doc"] hparts
    "\n\nfrom __future__ import annotations\n".toList "from typing import ".toList (by decide)
    ⟨[], by decide⟩
  obtain ⟨joint, hjoint, rfl⟩ :=
    format_of_fillPart hfound ht.typing_names hvalue (by simp [lines]) hpiece
  obtain rfl := Except.ok.inj ((joined_lines ", " typing).symm.trans hjoint)
  have hline : IsClean ("from typing import " ++ Text.join ", " typing) :=
    IsClean.append ⟨by decide, by decide⟩ hclean
  refine hlines _ ?_ hline.2
  rw [← String.toList_append, splitOnChar_of_notMem hline.1]
  exact List.mem_singleton_self _

theorem hasLine_referencesBranch {piece : List Char}
    (h : referencesBranch.fill values none = .ok piece) {references : List String}
    (hvalue : values.get? "references" = some (lines references)) {reference : String}
    (hmem : reference ∈ references) (hclean : IsClean reference) :
    reference.toList ∈ splitOnChar '\n' piece := by
  have hparts : referencesBranch.parts =
      [] ++ .text "\nif TYPE_CHECKING:\n" :: .slot "references" :: [] := rfl
  obtain ⟨found, inner, hfound, hinner, hlines⟩ := exists_piece_of_fill h le_rfl [] hparts
    "\nif TYPE_CHECKING:".toList [] (by decide) trivial
  obtain ⟨joint, hjoint, rfl⟩ := format_of_fillPart hfound rfl hvalue (by simp [lines]) hinner
  obtain rfl := Except.ok.inj ((joined_lines "\n" references).symm.trans hjoint)
  refine hlines _ ?_ hclean.2
  have hline := mem_splitOnChar_join "" hmem (by simp) hclean.1
  simpa using hline

theorem IsModule.hasLine_references (ht : IsModule t lead) (h : t.build values = .ok text)
    (htrue : values.get? "has_references" = some (.bool true)) {references : List String}
    (hvalue : values.get? "references" = some (lines references)) {reference : String}
    (hmem : reference ∈ references) (hclean : IsClean reference) : HasLine text reference := by
  obtain ⟨heading, title, tail, hparts, hheading, -⟩ := ht.parts_eq
  obtain ⟨found, piece, hfound, hpiece, hlines⟩ := exists_piece_of_fill (fill_of_build h)
    ht.indent_eq.le [.slot "module_doc",
      .text "\n\nfrom __future__ import annotations\n\nfrom typing import ", .slot "typing_names"]
    hparts [] [] (by decide) hheading
  have hbranch := fill_of_fillPart hfound ht.has_references htrue hpiece
  exact hlines _ (hasLine_referencesBranch hbranch hvalue hmem hclean) hclean.2

theorem IsModule.hasLine_fields (ht : IsModule t lead) (h : t.build values = .ok text)
    (hlead : IsClean lead) {fields : List String}
    (hvalue : values.get? "fields" = some (lines fields)) {field : String} (hmem : field ∈ fields)
    (hclean : IsClean field) : HasLine text (lead ++ field) := by
  obtain ⟨heading, title, tail, hparts, -, ⟨earlier, htitle⟩, htail⟩ := ht.parts_eq
  have hparts' : t.parts = ([.slot "module_doc",
      .text "\n\nfrom __future__ import annotations\n\nfrom typing import ",
      .slot "typing_names", .text "\n", .branch "has_references" true referencesBranch] ++ heading) ++
      .text title :: .slot "fields" :: [.text tail] := by
    rw [hparts, moduleParts, List.append_assoc]
  obtain ⟨found, piece, hfound, hpiece, hlines⟩ :=
    exists_piece_of_fill (fill_of_build h) ht.indent_eq.le _ hparts' earlier _ htitle htail
  obtain ⟨joint, hjoint, rfl⟩ := format_of_fillPart hfound ht.fields hvalue (by simp [lines]) hpiece
  obtain rfl := Except.ok.inj ((joined_lines ("\n" ++ lead) fields).symm.trans hjoint)
  refine hlines _ ?_ (hlead.append hclean).2
  rw [← String.toList_append]
  exact mem_splitOnChar_join lead hmem hlead.1 hclean.1

end ApiClient.Dialect.Python
