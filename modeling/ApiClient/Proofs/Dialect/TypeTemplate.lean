import ApiClient.Proofs.Dialect.EndpointTemplate
import ApiClient.Proofs.Dialect.PythonModule
import Mathlib

/-!
# The templates of Python types

A named type whose descriptions are texts or missing (`NamedType.IsTyped`) is written in the class form if
the names of its fields are identifiers (`renderType_of_class`), and in the call form otherwise
(`renderType_of_call`). What the pieces of the two forms give is `classText` and `callText`; only the class
form has a docstring, and it is not filled in if the description is blank
(`build_typeClassPieces_eq_error`).
-/

namespace ApiClient

/-- A named type with this description, whose fields have descriptions that are texts or missing. -/
structure NamedType.IsTyped (t : NamedType) (description : Option String) : Prop where
  description_eq : t.description = Dialect.orNull description
  fields_described : ∀ f ∈ t.fields, ∃ text, f.description = Dialect.orNull text

namespace Dialect.Python

open Naming Template

variable {t : NamedType} {description doc : Option String} {namespaceName : String} {fields : List String}
  {values : Table Json} {found : List (Variable × Option Json)}

/-! ## Fields -/

/-- Whether a type is written in the class form. -/
def isClassForm (t : NamedType) : Bool :=
  t.fields.all fun f => isPythonIdentifier f.name

/-- The comment above a field in the class form. -/
def fieldComment (f : Field) : List String :=
  match f.description with
  | .str s => if s = "" then [] else ["#: " ++ collapse s]
  | _ => []

/-- The lines of a field in the class form. -/
def fieldLines (f : Field) : List String :=
  fieldComment f ++ [f.name ++ ": " ++ typeHint f]

theorem areIdentifiers_map_property (fields : List Field) :
    areIdentifiers (fields.map Field.property) = .ok (fields.all fun f => isPythonIdentifier f.name) := by
  induction fields with
  | nil => rfl
  | cons f rest ih =>
    have hname : f.property.name = .str f.name := rfl
    rw [List.map_cons, areIdentifiers, hname, List.all_cons]
    dsimp only
    split_ifs with hidentifier
    · rw [ih, hidentifier, Bool.true_and]
    · rw [Bool.eq_false_iff.2 hidentifier, Bool.false_and]

theorem classLines_property {f : Field} (h : ∃ text, f.description = orNull text) :
    classLines f.property = .ok (fieldLines f) := by
  have hhint : (propertyType f.property).display = typeHint f := by
    rw [propertyType_property]
    rfl
  have hdescription : f.property.description = f.description := rfl
  obtain ⟨text, htext⟩ := h
  rw [classLines, hhint, hdescription, fieldLines, fieldComment, htext]
  cases text with
  | none => rfl
  | some s =>
    have htruth : (orNull (some s)).truth = !decide (s = "") := by
      simp [orNull, Json.truth]
    by_cases hs : s = ""
    · rw [htruth, if_neg (by simp [hs])]
      simp [orNull, hs]
      rfl
    · rw [htruth, if_pos (by simp [hs])]
      simp [orNull, hs]
      rfl

theorem classBody_map_property {fields : List Field}
    (h : ∀ f ∈ fields, ∃ text, f.description = orNull text) :
    classBody (fields.map Field.property) = .ok (fields.flatMap fieldLines) := by
  induction fields with
  | nil => rfl
  | cons f rest ih =>
    obtain ⟨hf, hrest⟩ := List.forall_mem_cons.1 h
    rw [List.map_cons, classBody, classLines_property hf, ih hrest]
    rfl

/-! ## Pieces -/

/-- The text of the docstring of a module. -/
def moduleDoc (t : NamedType) (namespaceName : String) : String :=
  t.name ++ " schema of the " ++ namespaceName ++ " client."

theorem allBlank_moduleDoc (t : NamedType) (namespaceName : String) :
    Text.allBlank (moduleDoc t namespaceName) = false := by
  rw [moduleDoc, Text.allBlank, String.toList_append, List.all_append, Bool.and_eq_false_iff]
  exact .inr (by decide)

theorem exists_moduleDoc (t : NamedType) (namespaceName : String) :
    ∃ text, docstring 0 (moduleDoc t namespaceName) = .ok text :=
  exists_docstring 0 (allBlank_moduleDoc t namespaceName)

/-- The placeholder for the docstring of a module. -/
def headVariable : Variable :=
  { name := "module_doc", format := ofText (docstring 0) }

theorem format_headVariable (text : String) : headVariable.format (.str text) = docstring 0 text := by
  simp only [headVariable, ofText]

/-- The placeholder for the docstring of a class. -/
def classDocVariable : Variable :=
  { docDeclaration "doc" (ofText (docstring 4)) with form := .plain }

theorem format_classDocVariable (text : String) :
    classDocVariable.format (.str text) = docstring 4 text := by
  simp only [classDocVariable, docDeclaration, ofText]

/-- The imports of other types. -/
def referencesText (t : NamedType) : String :=
  "\nif TYPE_CHECKING:\n" ++ Text.join "\n" (t.references.map importOf)

/-- What the pieces give that both forms share. -/
def moduleText (t : NamedType) (head : String) : List Char :=
  head.toList ++ '\n' :: '\n' :: ("from __future__ import annotations".toList ++ '\n' :: '\n' ::
    (("from typing import " ++ Text.join ", " (typing t)).toList ++ '\n' ::
      held (!t.references.isEmpty) (finish 0 (referencesText t).toList)))

/-- The pieces that both forms share. -/
def sharedParts : List (Template.Part Template) :=
  [.slot "module_doc", .text "\n\nfrom __future__ import annotations\n\nfrom typing import ",
    .slot "typing_names", .text "\n", .branch "has_references" true referencesBranch]

theorem fill_referencesBranch (h : values.get? "references" = some (lines (t.references.map importOf))) :
    referencesBranch.fill values none = .ok (finish 0 (referencesText t).toList) := by
  have hinputs : ∀ v ∈ referencesBranch.inputs, ∃ x, v.lookup values = .ok x :=
    List.forall_mem_singleton.2 ⟨_, lookup_list h⟩
  obtain ⟨found, hfound⟩ := exists_resolve hinputs
  have hpiece : fillPart values found (.slot "references") =
      .ok (Text.join "\n" (t.references.map importOf)).toList :=
    fillPart_slot hfound rfl (lookup_list h) (joined_lines "\n" _)
  have htext : (referencesText t).toList =
      "\nif TYPE_CHECKING:\n".toList ++ (Text.join "\n" (t.references.map importOf)).toList :=
    String.toList_append ..
  have hfill : referencesBranch.fill values none = .ok (finish 0 _) :=
    fill_of_pieces hfound (.cons rfl (.cons hpiece .nil))
  rw [hfill, htext, List.flatten_cons, List.flatten_cons, List.flatten_nil, List.append_nil]

theorem fillParts_sharedParts {namespaceName head : String} {fields : List String}
    {inputs : List Variable}
    (hfound : resolve (valuesOf t (.str namespaceName) fields) (sharedInputs ++ inputs) = .ok found)
    (hhead : docstring 0 (moduleDoc t namespaceName) = .ok head) :
    fillParts (valuesOf t (.str namespaceName) fields) found sharedParts = .ok (moduleText t head) := by
  have hinput : (sharedInputs ++ inputs).find? (·.name = "module_doc") = some headVariable := rfl
  have hlookup : headVariable.lookup (valuesOf t (.str namespaceName) fields) =
      .ok (some (.str (moduleDoc t namespaceName))) := lookup_of_fits rfl (by simp) rfl
  have hdoc : fillPart (valuesOf t (.str namespaceName) fields) found (.slot "module_doc") =
      .ok head.toList :=
    fillPart_slot hfound hinput hlookup ((format_headVariable _).trans hhead)
  have htyping : fillPart (valuesOf t (.str namespaceName) fields) found (.slot "typing_names") =
      .ok (Text.join ", " (typing t)).toList :=
    fillPart_slot hfound rfl (lookup_list rfl) (joined_lines ", " _)
  have hreferences : fillPart (valuesOf t (.str namespaceName) fields) found
      (.branch "has_references" true referencesBranch) = .ok (held (!t.references.isEmpty) _) :=
    fillPart_branch hfound rfl rfl (fill_referencesBranch rfl)
  have himports : "\n\nfrom __future__ import annotations\n\nfrom typing import ".toList =
      '\n' :: '\n' :: ("from __future__ import annotations".toList ++
        '\n' :: '\n' :: "from typing import ".toList) := by
    simp
  have hbreak : "\n".toList = ['\n'] := by simp
  have hline : ("from typing import " ++ Text.join ", " (typing t)).toList =
      "from typing import ".toList ++ (Text.join ", " (typing t)).toList := String.toList_append ..
  rw [sharedParts, fillParts_of_pieces (.cons hdoc (.cons rfl (.cons htyping (.cons rfl
    (.cons hreferences .nil))))), moduleText, himports, hbreak, hline]
  simp only [List.flatten_cons, List.flatten_nil, List.append_nil, List.append_assoc, List.cons_append,
    List.nil_append]

/-- A placeholder whose value is formatted, or that takes its line along when there is none. -/
theorem fillPart_mapM {name : String} {inputs : List Variable} {v : Variable}
    {format : String → Except Json.Misfit String} (hfound : resolve values inputs = .ok found)
    (hinput : inputs.find? (·.name = name) = some v)
    (hv : v.nullable = true ∧ v.wholeLine = true ∧ v.expected = .one .str) (hformat : v.format = ofText format)
    (h : values.get? name = some (orNull description)) (hdoc : description.mapM format = .ok doc) :
    fillPart values found (.slot name) = .ok (described id doc) := by
  cases description with
  | none =>
    obtain rfl := Except.ok.inj hdoc
    have hpiece : fillPart values found (.slot name) = .ok (described id none) :=
      fillPart_orNull hfound hinput hv h (by simp)
    exact hpiece
  | some s =>
    obtain ⟨text, htext, rfl⟩ := exists_of_map hdoc
    have htexts : ∀ u ∈ some s, v.format (.str u) = .ok text := fun u hu => by
      obtain rfl := Option.some.inj hu
      rw [hformat]
      exact htext
    have hpiece : fillPart values found (.slot name) = .ok (described (fun _ => text) (some s)) :=
      fillPart_orNull hfound hinput hv h htexts
    exact hpiece

/-! ## Class form -/

/-- The pieces in front of the docstring of a class. -/
def headingParts : List (Template.Part Template) :=
  [.text "\n\n\nclass ", .slot "name", .text "(TypedDict):\n    "]

/-- The pieces behind the docstring of a class. -/
def fieldParts : List (Template.Part Template) :=
  [.text "\n    ", .slot "fields", .text "\n"]

theorem parts_typeClassPieces :
    typeClassPieces.parts = (sharedParts ++ headingParts) ++ .slot "doc" :: fieldParts :=
  rfl

/-- The lines of the fields in the class form. -/
def classLinesOf (t : NamedType) : String :=
  "    " ++ Text.join "\n    " (t.fields.flatMap fieldLines)

/-- What the pieces of the class form give. -/
def classText (t : NamedType) (head : String) (doc : Option String) : List Char :=
  moduleText t head ++ '\n' :: '\n' :: '\n' :: (("class " ++ t.name ++ "(TypedDict):").toList ++ '\n' ::
    ("    ".toList ++ described id doc ++ '\n' :: ((classLinesOf t).toList ++ ['\n'])))

theorem exists_resolve_typeClassPieces (h : t.IsTyped description) (namespaceName : String)
    (fields : List String) :
    ∃ found, resolve (valuesOf t (.str namespaceName) fields) typeClassPieces.inputs = .ok found := by
  refine exists_resolve ?_
  have hdoc : (valuesOf t (.str namespaceName) fields).get? "doc" = some (orNull description) :=
    congrArg some h.description_eq
  simp only [typeClassPieces, sharedInputs, List.cons_append, List.nil_append, List.forall_mem_cons]
  exact ⟨⟨_, lookup_of_fits rfl (by simp) rfl⟩, ⟨_, lookup_list rfl⟩, exists_lookup_condition rfl,
    ⟨_, lookup_text rfl⟩, exists_lookup_orNull ⟨rfl, rfl⟩ hdoc, ⟨_, lookup_list rfl⟩,
    List.forall_mem_nil _⟩

theorem fillParts_headingParts (hfound : resolve (valuesOf t (.str namespaceName) fields)
      typeClassPieces.inputs = .ok found) :
    fillParts (valuesOf t (.str namespaceName) fields) found headingParts =
      .ok ('\n' :: '\n' :: '\n' :: (("class " ++ t.name ++ "(TypedDict):").toList ++
        '\n' :: "    ".toList)) := by
  have hname : fillPart (valuesOf t (.str namespaceName) fields) found (.slot "name") =
      .ok t.name.toList := fillPart_text hfound rfl rfl
  have hclass : "\n\n\nclass ".toList = '\n' :: '\n' :: '\n' :: "class ".toList := by simp
  have hcolon : "(TypedDict):\n    ".toList = "(TypedDict):".toList ++ '\n' :: "    ".toList := by simp
  rw [headingParts, fillParts_of_pieces (.cons rfl (.cons hname (.cons rfl .nil))), hclass, hcolon]
  simp -implicitDefEqProofs only [String.toList_append, List.flatten_cons, List.flatten_nil,
    List.append_nil, List.append_assoc, List.cons_append]

theorem fillParts_fieldParts {fields : List String} (hfound : resolve
      (valuesOf t (.str namespaceName) fields) typeClassPieces.inputs = .ok found) :
    fillParts (valuesOf t (.str namespaceName) fields) found fieldParts =
      .ok ('\n' :: (("    " ++ Text.join "\n    " fields).toList ++ ['\n'])) := by
  have hfields : fillPart (valuesOf t (.str namespaceName) fields) found (.slot "fields") =
      .ok (Text.join "\n    " fields).toList :=
    fillPart_slot hfound rfl (lookup_list rfl) (joined_lines "\n    " _)
  have hindent : "\n    ".toList = '\n' :: "    ".toList := by simp
  have hbreak : "\n".toList = ['\n'] := by simp
  rw [fieldParts, fillParts_of_pieces (.cons rfl (.cons hfields (.cons rfl .nil))), hindent, hbreak]
  simp -implicitDefEqProofs only [String.toList_append, List.flatten_cons, List.flatten_nil,
    List.append_nil, List.append_assoc, List.cons_append]

theorem build_typeClassPieces (h : t.IsTyped description) {namespaceName head : String}
    (hhead : docstring 0 (moduleDoc t namespaceName) = .ok head)
    (hdoc : description.mapM (docstring 4) = .ok doc) :
    typeClassPieces.build (valuesOf t (.str namespaceName) (t.fields.flatMap fieldLines)) =
      .ok (String.ofList (finish 0 (classText t head doc))) := by
  obtain ⟨found, hfound⟩ := exists_resolve_typeClassPieces h namespaceName (t.fields.flatMap fieldLines)
  have hdescription : (valuesOf t (.str namespaceName) (t.fields.flatMap fieldLines)).get? "doc" =
      some (orNull description) := congrArg some h.description_eq
  have hinput : typeClassPieces.inputs.find? (·.name = "doc") = some classDocVariable := rfl
  have hpiece : fillPart (valuesOf t (.str namespaceName) (t.fields.flatMap fieldLines)) found
      (.slot "doc") = .ok (described id doc) :=
    fillPart_mapM hfound hinput ⟨rfl, rfl, rfl⟩ rfl hdescription hdoc
  have hfront := fillParts_append (fillParts_sharedParts hfound hhead) (fillParts_headingParts hfound)
  have hback := fillParts_cons hpiece (fillParts_fieldParts hfound)
  have hparts := parts_typeClassPieces ▸ fillParts_append hfront hback
  rw [build, fill_eq_ok_iff.2 ⟨found, _, hfound, hparts, rfl⟩, classText, classLinesOf]
  simp -implicitDefEqProofs only [List.append_assoc, List.cons_append]
  rfl

/-- The class form of a type with a blank description is not filled in. -/
theorem build_typeClassPieces_eq_error (h : t.IsTyped description) (hblank : IsBlankText description)
    (namespaceName : String) (fields : List String) :
    typeClassPieces.build (valuesOf t (.str namespaceName) fields) = .error (.format .empty) := by
  obtain ⟨found, hfound⟩ := exists_resolve_typeClassPieces h namespaceName fields
  obtain ⟨head, hhead⟩ := exists_moduleDoc t namespaceName
  obtain ⟨s, rfl, hs⟩ := hblank
  have hdoc : (valuesOf t (.str namespaceName) fields).get? "doc" = some (.str s) :=
    congrArg some h.description_eq
  have hinput : typeClassPieces.inputs.find? (·.name = "doc") = some classDocVariable := rfl
  have hpiece : fillPart (valuesOf t (.str namespaceName) fields) found (.slot "doc") =
      .error (.format .empty) :=
    fillPart_eq_error hfound hinput (lookup_of_fits hdoc (by simp) rfl)
      ((format_classDocVariable s).trans (docstring_eq_error 4 hs))
  refine build_eq_error hfound ?_
  rw [parts_typeClassPieces]
  exact fillParts_eq_error
    (fillParts_append (fillParts_sharedParts hfound hhead) (fillParts_headingParts hfound)) hpiece

theorem exists_of_not_isBlankText (h : ¬IsBlankText description) :
    ∃ doc, description.mapM (docstring 4) = .ok doc := by
  cases description with
  | none => exact ⟨none, rfl⟩
  | some s =>
    obtain ⟨text, htext⟩ := exists_docstring 4 (Bool.eq_false_iff.2 fun hs => h ⟨s, rfl, hs⟩)
    exact ⟨some text, by rw [Option.mapM_some, htext]; rfl⟩

/-! ## Call form -/

/-- The line of a field in the call form. -/
def callLineOf (f : Field) : String :=
  Json.literal f.name ++ ": " ++ Json.literal (typeHint f) ++ ","

/-- The lines of the fields in the call form. -/
def callLinesOf (t : NamedType) : String :=
  "        " ++ Text.join "\n        " (t.fields.map callLineOf)

/-- The pieces of the call form behind those that both forms share. -/
def callParts : List (Template.Part Template) :=
  [.text "\n\n", .slot "name", .text " = TypedDict(\n    \"", .slot "name",
    .text "\",\n    \x7b\n        ", .slot "fields", .text "\n    \x7d,\n)\n"]

theorem parts_typeCallPieces : typeCallPieces.parts = sharedParts ++ callParts :=
  rfl

/-- What the pieces of the call form give. -/
def callText (t : NamedType) (head : String) : List Char :=
  moduleText t head ++ '\n' :: '\n' :: ((t.name ++ " = TypedDict(").toList ++ '\n' ::
    (("    \"" ++ t.name ++ "\",").toList ++ '\n' :: ("    \x7b".toList ++ '\n' ::
    ((callLinesOf t).toList ++ '\n' :: ("    \x7d,".toList ++ '\n' :: (")".toList ++ ['\n']))))))

theorem build_typeCallPieces {t : NamedType} {namespaceName head : String}
    (hhead : docstring 0 (moduleDoc t namespaceName) = .ok head) :
    typeCallPieces.build (valuesOf t (.str namespaceName) (t.fields.map callLineOf)) =
      .ok (String.ofList (finish 0 (callText t head))) := by
  have hinputs : ∀ v ∈ typeCallPieces.inputs, ∃ x,
      v.lookup (valuesOf t (.str namespaceName) (t.fields.map callLineOf)) = .ok x := by
    simp only [typeCallPieces, sharedInputs, List.cons_append, List.nil_append, List.forall_mem_cons]
    exact ⟨⟨_, lookup_of_fits rfl (by simp) rfl⟩, ⟨_, lookup_list rfl⟩, exists_lookup_condition rfl,
      ⟨_, lookup_text rfl⟩, ⟨_, lookup_list rfl⟩, List.forall_mem_nil _⟩
  obtain ⟨found, hfound⟩ := exists_resolve hinputs
  have hshared := fillParts_sharedParts hfound hhead
  have hname : fillPart (valuesOf t (.str namespaceName) (t.fields.map callLineOf)) found
      (.slot "name") = .ok t.name.toList := fillPart_text hfound rfl rfl
  have hfields : fillPart (valuesOf t (.str namespaceName) (t.fields.map callLineOf)) found
      (.slot "fields") = .ok (Text.join "\n        " (t.fields.map callLineOf)).toList :=
    fillPart_slot hfound rfl (lookup_list rfl) (joined_lines "\n        " _)
  have hrest : fillParts _ found callParts = .ok _ :=
    fillParts_of_pieces (.cons rfl (.cons hname (.cons rfl (.cons hname (.cons rfl (.cons hfields
      (.cons rfl .nil)))))))
  have hparts := parts_typeCallPieces ▸ fillParts_append hshared hrest
  have htwo : "\n\n".toList = ['\n', '\n'] := by simp
  have hcall : " = TypedDict(\n    \"".toList = " = TypedDict(".toList ++ '\n' :: "    \"".toList := by simp
  have hopen : "\",\n    \x7b\n        ".toList =
      "\",".toList ++ '\n' :: ("    \x7b".toList ++ '\n' :: "        ".toList) := by simp
  have hclose : "\n    \x7d,\n)\n".toList =
      '\n' :: ("    \x7d,".toList ++ '\n' :: (")".toList ++ ['\n'])) := by simp
  rw [build, fill_eq_ok_iff.2 ⟨found, _, hfound, hparts, rfl⟩, callText, callLinesOf, htwo, hcall, hopen,
    hclose]
  -- definitional steps would have the kernel compare the texts themselves
  simp -implicitDefEqProofs only [String.toList_append, List.flatten_cons, List.flatten_nil,
    List.append_nil, List.append_assoc, List.cons_append, List.nil_append]
  rfl

/-! ## Modules -/

theorem renderType_eq {r : Record} {namespaceName : Json} {isClass : Bool} {template : Template}
    (hclass : areIdentifiers r.properties = .ok isClass)
    (hvalues : typeValues r namespaceName isClass = .ok values)
    (htemplate : (if isClass then typeClassTemplate else typeCallTemplate) = .ok template) :
    renderType r namespaceName = template.build values := by
  rw [renderType, bind_mapError_of_ok hclass, bind_mapError_of_ok hvalues]
  cases isClass with
  | true =>
    rw [if_pos rfl] at htemplate
    exact bind_of_ok htemplate _
  | false =>
    rw [if_neg (by decide)] at htemplate
    exact bind_of_ok htemplate _

theorem renderType_of_class (h : t.IsTyped description) (hclass : isClassForm t = true)
    (namespaceName : String) : t.render python namespaceName =
      typeClassPieces.build (valuesOf t (.str namespaceName) (t.fields.flatMap fieldLines)) := by
  have hidentifiers : areIdentifiers t.record.properties = .ok true := by
    rw [← hclass]
    exact areIdentifiers_map_property t.fields
  have hfields : (if true then classBody (t.fields.map Field.property)
      else .ok ((t.fields.map Field.property).map callLine)) = .ok (t.fields.flatMap fieldLines) :=
    classBody_map_property h.fields_described
  exact renderType_eq hidentifiers (typeValues_record hfields (.str namespaceName))
    ((if_pos rfl).trans typeClassTemplate_eq)

theorem renderType_of_call (hcall : isClassForm t = false) (namespaceName : String) :
    t.render python namespaceName =
      typeCallPieces.build (valuesOf t (.str namespaceName) (t.fields.map callLineOf)) := by
  have hidentifiers : areIdentifiers t.record.properties = .ok false := by
    rw [← hcall]
    exact areIdentifiers_map_property t.fields
  have hlines : (t.fields.map Field.property).map callLine = t.fields.map callLineOf := by
    rw [List.map_map]
    exact List.map_congr_left fun f _ => callLine_property f
  have hfields : (if false then classBody (t.fields.map Field.property)
      else .ok ((t.fields.map Field.property).map callLine)) = .ok (t.fields.map callLineOf) :=
    congrArg Except.ok hlines
  exact renderType_eq hidentifiers (typeValues_record hfields (.str namespaceName))
    ((if_neg (by decide)).trans typeCallTemplate_eq)

/-! ## A type -/

/-- A type with this description and required fields of one type. -/
def page (description : Option String) (names : List String) : NamedType where
  name := "Page"
  qualified := "ns.Page"
  schema := ⟨.str "object", .null, .null, orNull description, none, [], none, none, none, .null, .null,
    false, false, false, false, [], [], [], none, none⟩
  fields := names.map fun name => ⟨name, name, .plain "int", true, .null⟩

theorem isTyped_page (h : description ≠ some "") (names : List String) :
    (page description names).IsTyped description where
  description_eq := by
    cases description with
    | none => rfl
    | some s =>
      have htruth : (Json.str s).truth = true := by
        simpa [Json.truth] using fun hs : s = "" => h (congrArg some hs)
      have habout : (page (some s) names).description =
          if (Json.str s).truth then .str s else .null := rfl
      rw [habout, if_pos htruth]
      rfl
  fields_described := List.forall_mem_map.2 fun _ _ => ⟨none, rfl⟩

end Dialect.Python

end ApiClient
