import ApiClient.Dialect.Rendering
import ApiClient.Proofs.Dialect.PythonTemplate
import ApiClient.Proofs.Dialect.TypeHint
import ApiClient.Proofs.Naming.Fresh
import Mathlib

/-!
# The modules of Python types

The module of a type has a line for each field with its type hint, a line with the names it takes from
the typing module, and a line for each type it imports (`hasLine_of_renderType`). The words of an
type hint are builtin types, the names from the typing module, and types that are imported or the
module's own (`isWord_typeHint`).
-/

namespace ApiClient.Dialect.Python

open Naming Template Text

/-! ## Fields -/

theorem propertyType_property (f : Field) : propertyType f.property = .str (typeHint f) := by
  rw [propertyType, typeHint]
  cases hrequired : f.required <;>
  · simp [Field.property, hrequired, Json.display]

/-- The line of a field in the class form. -/
def classField (f : Field) : String :=
  "    " ++ (f.name ++ ": " ++ typeHint f)

/-- The line of a field in the call form. -/
def callField (f : Field) : String :=
  "        " ++ (Json.literal f.name ++ ": " ++ Json.literal (typeHint f) ++ ",")

theorem callLine_property (f : Field) :
    callLine f.property = Json.literal f.name ++ ": " ++ Json.literal (typeHint f) ++ "," := by
  rw [callLine, propertyType_property]
  rfl

theorem mem_classBody {properties : List Property} {lines : List String}
    (h : classBody properties = .ok lines) {p : Property} (hp : p ∈ properties) :
    p.name.display ++ ": " ++ (propertyType p).display ∈ lines := by
  induction properties generalizing lines with
  | nil => cases hp
  | cons q rest ih =>
    rw [classBody] at h
    obtain ⟨first, hfirst, hrest⟩ := exists_of_bind h
    obtain ⟨more, hmore, hpure⟩ := exists_of_bind hrest
    obtain rfl := Except.ok.inj hpure
    rcases List.mem_cons.1 hp with rfl | hp
    · refine List.mem_append_left _ ?_
      unfold classLines at hfirst
      dsimp only at hfirst
      split at hfirst
      · split at hfirst
        · obtain rfl := Except.ok.inj hfirst
          simp
        · cases hfirst
      · obtain rfl := Except.ok.inj hfirst
        simp
    · exact List.mem_append_right _ (ih hmore hp)

theorem isPythonIdentifier_of_areIdentifiers {properties : List Property}
    (h : areIdentifiers properties = .ok true) {p : Property} (hp : p ∈ properties) :
    ∃ name, p.name = .str name ∧ isPythonIdentifier name = true := by
  induction properties with
  | nil => cases hp
  | cons q rest ih =>
    rw [areIdentifiers] at h
    split at h
    · rename_i name hname
      split at h
      · rename_i hidentifier
        rcases List.mem_cons.1 hp with rfl | hp
        · exact ⟨name, hname, hidentifier⟩
        · exact ih h hp
      · cases h
    · cases h

/-! ## Texts that fit in a line -/

theorem isClean_of_all {text : String} {p : Char → Bool} (hnewline : p '\n' = false)
    (hmarker : p (Char.ofNat 0) = false) (h : ∀ c ∈ text.toList, p c = true) : IsClean text := by
  refine ⟨fun hmem => ?_, fun hmem => ?_⟩
  · rw [h _ hmem] at hnewline
    cases hnewline
  · rw [h _ hmem] at hmarker
    cases hmarker

theorem isClean_of_isPlainName {name : String} (h : IsPlainName name) : IsClean name :=
  isClean_of_all (p := isWordChar) (by decide) (by decide) fun c hc => (h c hc).isWordChar

theorem isClean_of_isIdentifier {name : String} (h : isIdentifier name = true) : IsClean name :=
  isClean_of_all (p := isIdentifierChar) (by decide) (by decide) (isIdentifierChar_of_mem h)

theorem isClean_text {e : TypeExpr} (hproper : e.IsProper .python)
    (hnames : ∀ n ∈ e.names, IsPlainName n) : IsClean (e.text .python id) :=
  isClean_of_all (p := isTypeChar) (by decide) (by decide)
    (List.all_eq_true.1 (e.all_isTypeChar_text hproper hnames))

theorem exists_of_mem_hexDigits {c : Char} : ∀ {width n : Nat}, c ∈ Json.hexDigits width n →
    ∃ k < 16, c = Json.hexDigit k
  | 0, _, h => by cases h
  | width + 1, n, h => by
    rcases List.mem_append.1 h with h | h
    · exact exists_of_mem_hexDigits h
    · exact ⟨n % 16, Nat.mod_lt _ (by decide), List.mem_singleton.1 h⟩

/-- A character of a literal is printed: it is no control character. -/
theorem le_toNat_of_mem_literalChar {c d : Char} (h : c ∈ Json.literalChar d) : 32 ≤ c.toNat := by
  have hpair : ∀ {a b : Char}, 32 ≤ a.toNat → 32 ≤ b.toNat → c ∈ [a, b] → 32 ≤ c.toNat := by
    intro a b ha hb hmem
    rcases List.mem_cons.1 hmem with rfl | hmem
    · exact ha
    · rw [List.mem_singleton.1 hmem]
      exact hb
  unfold Json.literalChar at h
  split at h
  · exact hpair (by decide) (by decide) h
  split at h
  · exact hpair (by decide) (by decide) h
  split at h
  · exact hpair (by decide) (by decide) h
  split at h
  · exact hpair (by decide) (by decide) h
  split at h
  · exact hpair (by decide) (by decide) h
  split at h
  · exact hpair (by decide) (by decide) h
  split at h
  · exact hpair (by decide) (by decide) h
  split at h
  · rcases List.mem_cons.1 h with rfl | h
    · decide
    rcases List.mem_cons.1 h with rfl | h
    · decide
    obtain ⟨k, hk, rfl⟩ := exists_of_mem_hexDigits h
    have hall : ∀ k < 16, 32 ≤ (Json.hexDigit k).toNat := by decide
    exact hall k hk
  · rename_i hcontrol
    rw [List.mem_singleton.1 h]
    exact Nat.le_of_not_lt hcontrol

theorem isClean_literal (text : String) : IsClean (Json.literal text) := by
  refine isClean_of_all (p := fun c => decide (32 ≤ c.toNat)) (by decide) (by decide) fun c hc => ?_
  rw [Json.literal, String.toList_ofList, List.mem_append, List.mem_cons] at hc
  rcases hc with (rfl | hc) | hc
  · decide
  · obtain ⟨d, -, hd⟩ := List.mem_flatMap.1 hc
    exact decide_eq_true (le_toNat_of_mem_literalChar hd)
  · rw [List.mem_singleton.1 hc]
    decide

theorem isClean_join {separator : String} (hseparator : IsClean separator) {texts : List String}
    (h : ∀ text ∈ texts, IsClean text) : IsClean (Text.join separator texts) := by
  refine ⟨fun hmem => ?_, fun hmem => ?_⟩
  · obtain hsep | ⟨text, htext, hc⟩ := mem_join hmem
    · exact hseparator.1 hsep
    · exact (h text htext).1 hc
  · obtain hsep | ⟨text, htext, hc⟩ := mem_join hmem
    · exact hseparator.2 hsep
    · exact (h text htext).2 hc

/-! ## Imports -/

theorem mentions_map_property (fields : List Field) :
    Record.mentions (fields.map Field.property) =
      .ok ((fields.flatMap (·.type.named)).map .str) := by
  induction fields with
  | nil => rfl
  | cons f rest ih =>
    simp [Record.mentions, ih, Field.property, Json.elements, bind, Except.bind, pure, Except.pure]

theorem firstUses_map_str (names : List String) :
    firstUses Json.same (names.map .str) = (firstUses (· = ·) names).map .str := by
  induction names with
  | nil => rfl
  | cons name rest ih =>
    simp only [List.map_cons, firstUses, ih, List.filter_map]
    rfl

theorem references_record (t : NamedType) :
    t.record.references = .ok (t.references.map .str) := by
  have hfilter : ((t.fields.flatMap (·.type.named)).map Json.str).filter
      (fun name => !name.same (.str t.name)) =
        ((t.fields.flatMap (·.type.named)).filter (· ≠ t.name)).map .str := by
    rw [List.filter_map]
    congr 1
    refine List.filter_congr fun name _ => ?_
    simp [Json.same]
  have hkeys : (((t.fields.flatMap (·.type.named)).filter (· ≠ t.name)).map Json.str).all
      Json.isKey = true := by
    simp [Json.isKey]
  rw [Record.references, NamedType.record, mentions_map_property]
  simp only [bind, Except.bind, hfilter, hkeys, if_true, firstUses_map_str]
  rfl

/-- The names that the module of a type takes from the typing module. -/
def typing (t : NamedType) : List String :=
  typingNames (!t.references.isEmpty) (t.fields.all (·.required)) (t.fields.map (·.type.short))

theorem all_isWordChar_of_mem_typing {t : NamedType} {name : String} (h : name ∈ typing t) :
    name.toList.all isWordChar = true := by
  have hall : ∀ name ∈ ["TYPE_CHECKING", "Any", "NotRequired", "Optional", "TypedDict"],
      name.toList.all isWordChar = true := by decide
  refine hall name ?_
  simp only [typing, typingNames, List.mem_append, List.mem_ite_nil_right, List.mem_ite_nil_left,
    List.mem_singleton] at h
  rcases h with (((h | h) | h) | h) | h <;> simp [h]

theorem isClean_of_mem_typing {t : NamedType} {name : String} (h : name ∈ typing t) :
    IsClean name :=
  isClean_of_all (p := isWordChar) (by decide) (by decide)
    (List.all_eq_true.1 (all_isWordChar_of_mem_typing h))

theorem notRequired_mem_typing {t : NamedType} {f : Field} (hf : f ∈ t.fields)
    (h : f.required = false) : "NotRequired" ∈ typing t := by
  have hall : t.fields.all (·.required) = false := by
    rw [List.all_eq_false]
    exact ⟨f, hf, by simp [h]⟩
  have hmem : "NotRequired" ∈ if false = true then [] else ["NotRequired"] := by simp
  rw [typing, typingNames, hall]
  exact List.mem_append_left _ (List.mem_append_left _ (List.mem_append_right _ hmem))

theorem any_mem_typing {t : NamedType} {f : Field} (hf : f ∈ t.fields)
    (h : IsWord "Any".toList f.type.short.toList) : "Any" ∈ typing t := by
  have hspace : " " = String.singleton ' ' := by decide
  have hword : hasWord "Any".toList none (Text.join " " (t.fields.map (·.type.short))).toList =
      true := by
    rw [hspace]
    exact hasWord_of_isWord (h.join (by decide) (List.mem_map_of_mem hf))
  have hmem : "Any" ∈ if true = true then ["Any"] else [] := by simp
  rw [typing, typingNames]
  refine List.mem_append_left _ (List.mem_append_left _ (List.mem_append_left _ ?_))
  rw [hword]
  exact List.mem_append_right _ hmem

/-- The line that imports a type. -/
def importOf (name : String) : String :=
  "    from ." ++ name ++ " import " ++ name

/-! ## Modules -/

/-- The values of the template of a type, with these lines for its fields. -/
def valuesOf (t : NamedType) (namespaceName : Json) (fields : List String) : Table Json := [
  ("module_doc", .str (t.name ++ " schema of the " ++ namespaceName.display ++ " client.")),
  ("typing_names", lines (typing t)),
  ("has_references", .bool !t.references.isEmpty),
  ("references", lines (t.references.map importOf)),
  ("name", .str t.name),
  ("doc", t.description),
  ("fields", lines fields)]

theorem typeValues_record {t : NamedType} {isClass : Bool} {fields : List String}
    (h : (if isClass then classBody (t.fields.map Field.property)
      else .ok ((t.fields.map Field.property).map callLine)) = .ok fields) (namespaceName : Json) :
    typeValues t.record namespaceName isClass = .ok (valuesOf t namespaceName fields) := by
  have hshort : texts ((t.fields.map Field.property).map (·.type)) =
      .ok (t.fields.map (·.type.short)) := by
    rw [← texts_map_str]
    simp [Function.comp_def, Field.property]
  have hrequired : (t.fields.map Field.property).all (·.required) = t.fields.all (·.required) := by
    rw [List.all_map]
    rfl
  have himport : (t.references.map Json.str).map importLine = t.references.map importOf := by
    rw [List.map_map]
    rfl
  have hempty : (t.references.map Json.str).isEmpty = t.references.isEmpty := by
    simp
  rw [typeValues, references_record]
  cases isClass with
  | true =>
    rw [if_pos rfl] at h
    simp only [NamedType.record, if_true, h, bind, Except.bind, hshort, hrequired, himport, hempty,
      pure, Except.pure]
    rfl
  | false =>
    obtain rfl := Except.ok.inj h
    simp only [NamedType.record, Bool.false_eq_true, if_false, bind, Except.bind, hshort, hrequired,
      himport, hempty, pure, Except.pure]
    rfl

theorem values_of_typeValues {t : NamedType} {namespaceName : Json} {isClass : Bool}
    {values : Table Json} (h : typeValues t.record namespaceName isClass = .ok values) :
    ∃ fields, (if isClass then classBody (t.fields.map Field.property)
        else .ok ((t.fields.map Field.property).map callLine)) = .ok fields ∧
      values.get? "typing_names" = some (lines (typing t)) ∧
      values.get? "has_references" = some (.bool (!t.references.isEmpty)) ∧
      values.get? "references" = some (lines (t.references.map importOf)) ∧
      values.get? "fields" = some (lines fields) := by
  obtain ⟨fields, hfields⟩ : ∃ fields, (if isClass then classBody (t.fields.map Field.property)
      else .ok ((t.fields.map Field.property).map callLine)) = .ok fields := by
    cases isClass with
    | true => exact (exists_of_bind h).imp fun _ hfields => hfields.1
    | false => exact ⟨_, rfl⟩
  obtain rfl := Except.ok.inj ((typeValues_record hfields namespaceName).symm.trans h)
  exact ⟨fields, hfields, rfl, rfl, rfl, rfl⟩

variable {r : Resolver} {names : List String}

/-- A spelling of a type expression of Python over plain names. -/
def IsSpelt (s : Spelling) : Prop :=
  ∃ e : TypeExpr, e.IsProper .python ∧ (∀ n ∈ e.names, IsPlainName n) ∧
    s.short = e.text .python id ∧ s.named = e.names

theorem isSpelt_of_spells (hdialect : r.dialect = .python) (hnames : ∀ n ∈ names, IsPlainName n)
    {spelling : Spelling} (h : r.Spells names spelling) : IsSpelt spelling := by
  obtain ⟨e, hproper, hsub, rfl⟩ := h
  rw [hdialect] at hproper
  refine ⟨e, hproper, fun n hn => hnames n (hsub hn), ?_, rfl⟩
  rw [← hdialect]
  rfl

theorem isClean_typeHint {f : Field} (h : IsSpelt f.type) : IsClean (typeHint f) := by
  obtain ⟨e, hproper, hplain, hshort, -⟩ := h
  have hclean : IsClean f.type.short := hshort ▸ isClean_text hproper hplain
  have hfront : IsClean "NotRequired[" := ⟨by decide, by decide⟩
  rw [typeHint]
  split
  · exact hclean
  · exact (hfront.append hclean).append ⟨by decide, by decide⟩

/-- The words of the type hint of a field are builtin types, names that are taken from the typing
module, the name of the type itself and the names of types that are imported. -/
theorem isWord_typeHint (hdialect : r.dialect = .python) (hnames : ∀ n ∈ names, IsPlainName n)
    {t : NamedType} {f : Field} (hf : f ∈ t.fields) (h : r.Spells names f.type) {word : String}
    (hword : IsWord word.toList (typeHint f).toList) :
    word ∈ builtins ∨ word ∈ typing t ∨ word = t.name ∨ word ∈ t.references := by
  obtain ⟨e, hproper, hplain, hshort, hnamed⟩ := isSpelt_of_spells hdialect hnames h
  have hinner : IsWord word.toList f.type.short.toList →
      word ∈ builtins ∨ word ∈ typing t ∨ word = t.name ∨ word ∈ t.references := by
    intro hshortWord
    have hcases := hshortWord
    rw [hshort] at hcases
    rcases isWord_text hproper hplain hcases with hmem | rfl | hmem
    · exact Or.inl hmem
    · exact Or.inr (Or.inl (any_mem_typing hf hshortWord))
    · by_cases hself : word = t.name
      · exact Or.inr (Or.inr (Or.inl hself))
      · refine Or.inr (Or.inr (Or.inr (mem_firstUses.2 (List.mem_filter.2 ⟨?_, by simpa⟩))))
        exact List.mem_flatMap.2 ⟨f, hf, hnamed ▸ hmem⟩
  cases hrequired : f.required with
  | true =>
    rw [typeHint, hrequired] at hword
    exact hinner hword
  | false =>
    rw [typeHint, hrequired] at hword
    have hopened : "NotRequired[" = "NotRequired" ++ "[" := by decide
    rcases isWord_bracket hopened (isPlainName_of_all (by decide)) hword with rfl | hword
    · exact Or.inr (Or.inl (notRequired_mem_typing hf hrequired))
    · exact hinner hword

theorem isClean_importOf {name : String} (h : IsPlainName name) : IsClean (importOf name) := by
  have hname := isClean_of_isPlainName h
  have hfrom : IsClean "    from ." := ⟨by decide, by decide⟩
  have himport : IsClean " import " := ⟨by decide, by decide⟩
  exact ((hfrom.append hname).append himport).append hname

/-- A template that is filled in with the values of a type has the lines for its imports. -/
theorem IsModule.hasLine_imports {template : Template} {lead text : String} {values : Table Json}
    {t : NamedType} (hmodule : IsModule template lead) (h : template.build values = .ok text)
    (htyping : values.get? "typing_names" = some (lines (typing t)))
    (hhas : values.get? "has_references" = some (.bool (!t.references.isEmpty)))
    (hreferences : values.get? "references" = some (lines (t.references.map importOf)))
    (hplain : ∀ n ∈ t.references, IsPlainName n) :
    HasLine text ("from typing import " ++ Text.join ", " (typing t)) ∧
      ∀ n ∈ t.references, HasLine text (importOf n) := by
  refine ⟨hmodule.hasLine_typing h htyping (isClean_join ⟨by decide, by decide⟩ fun _ =>
    isClean_of_mem_typing), fun n hn => ?_⟩
  have htrue : (!t.references.isEmpty) = true := by
    rw [Bool.not_eq_true', List.isEmpty_eq_false_iff]
    exact List.ne_nil_of_mem hn
  rw [htrue] at hhas
  exact hmodule.hasLine_references h hhas hreferences (List.mem_map_of_mem hn)
    (isClean_importOf (hplain n hn))

theorem isPlainName_of_mem_references {t : NamedType} (hspelt : ∀ f ∈ t.fields, IsSpelt f.type) :
    ∀ n ∈ t.references, IsPlainName n := by
  intro n hn
  obtain ⟨f, hf, hnamed⟩ := List.mem_flatMap.1 (List.mem_of_mem_filter (mem_firstUses.1 hn))
  obtain ⟨e, -, hplain, -, hnames⟩ := hspelt f hf
  exact hplain n (hnames ▸ hnamed)

theorem hasLine_classField {template : Template} {text : String} {values : Table Json}
    {t : NamedType} {fields : List String} (hmodule : IsModule template "    ")
    (h : template.build values = .ok text)
    (hclass : areIdentifiers (t.fields.map Field.property) = .ok true)
    (hfields : classBody (t.fields.map Field.property) = .ok fields)
    (hvalue : values.get? "fields" = some (lines fields)) {f : Field} (hf : f ∈ t.fields)
    (hclean : IsClean (typeHint f)) : HasLine text (classField f) := by
  have hproperty : f.property ∈ t.fields.map Field.property := List.mem_map_of_mem hf
  obtain ⟨name, hname, hidentifier⟩ := isPythonIdentifier_of_areIdentifiers hclass hproperty
  obtain rfl : f.name = name := Json.str.inj hname
  rw [isPythonIdentifier, Bool.and_eq_true] at hidentifier
  have hcolon : IsClean ": " := ⟨by decide, by decide⟩
  refine hmodule.hasLine_fields h ⟨by decide, by decide⟩ hvalue ?_
    (((isClean_of_isIdentifier hidentifier.1).append hcolon).append hclean)
  have hmem := mem_classBody hfields hproperty
  rwa [propertyType_property] at hmem

theorem hasLine_callField {template : Template} {text : String} {values : Table Json}
    {t : NamedType} (hmodule : IsModule template "        ") (h : template.build values = .ok text)
    (hvalue : values.get? "fields" = some (lines ((t.fields.map Field.property).map callLine)))
    {f : Field} (hf : f ∈ t.fields) : HasLine text (callField f) := by
  have hcolon : IsClean ": " := ⟨by decide, by decide⟩
  refine hmodule.hasLine_fields h ⟨by decide, by decide⟩ hvalue ?_
    ((((isClean_literal _).append hcolon).append (isClean_literal _)).append
      ⟨by decide, by decide⟩)
  rw [← callLine_property]
  exact List.mem_map_of_mem (List.mem_map_of_mem hf)

/-- The text of a module comes from a template of one of the two forms, filled in with the values of
the type. -/
theorem stages_of_renderType {t : NamedType} {namespaceName : Json} {text : String}
    (h : renderType t.record namespaceName = .ok text) : ∃ isClass values template,
      areIdentifiers (t.fields.map Field.property) = .ok isClass ∧
        typeValues t.record namespaceName isClass = .ok values ∧
        (if isClass then typeClassTemplate else typeCallTemplate) = .ok template ∧
        template.build values = .ok text := by
  rw [renderType] at h
  obtain ⟨isClass, hclass, hrest⟩ := exists_of_bind_mapError h
  obtain ⟨values, hvalues, hbuild⟩ := exists_of_bind_mapError hrest
  refine ⟨isClass, values, ?_⟩
  cases isClass with
  | true =>
    rw [if_pos rfl] at hbuild ⊢
    obtain ⟨template, htemplate, hbuild⟩ := exists_of_bind hbuild
    exact ⟨template, hclass, hvalues, htemplate, hbuild⟩
  | false =>
    rw [if_neg Bool.false_ne_true] at hbuild ⊢
    obtain ⟨template, htemplate, hbuild⟩ := exists_of_bind hbuild
    exact ⟨template, hclass, hvalues, htemplate, hbuild⟩

/-- The module of a type has a line for what it takes from the typing module, one for each type that it
imports, and one for each field with its type hint. -/
theorem hasLine_of_renderType (hdialect : r.dialect = .python)
    (hnames : ∀ n ∈ names, IsPlainName n) {t : NamedType}
    (hspells : ∀ f ∈ t.fields, r.Spells names f.type) {namespaceName : Json} {text : String}
    (h : renderType t.record namespaceName = .ok text) :
    HasLine text ("from typing import " ++ Text.join ", " (typing t)) ∧
      (∀ n ∈ t.references, HasLine text (importOf n)) ∧
      ∀ f ∈ t.fields, HasLine text (classField f) ∨ HasLine text (callField f) := by
  have hplain := isPlainName_of_mem_references fun f hf =>
    isSpelt_of_spells hdialect hnames (hspells f hf)
  obtain ⟨isClass, values, template, hclass, hvalues, htemplate, hbuild⟩ := stages_of_renderType h
  obtain ⟨fields, hfields, htyping, hhas, hreferences, hlines⟩ := values_of_typeValues hvalues
  cases isClass with
  | true =>
    rw [if_pos rfl] at hfields htemplate
    obtain ⟨_, hclassTemplate, hmodule⟩ := isModule_typeClassTemplate
    obtain rfl := Except.ok.inj (hclassTemplate.symm.trans htemplate)
    obtain ⟨htypingLine, hreferencesLine⟩ :=
      hmodule.hasLine_imports hbuild htyping hhas hreferences hplain
    refine ⟨htypingLine, hreferencesLine, fun f hf => Or.inl ?_⟩
    exact hasLine_classField hmodule hbuild hclass hfields hlines hf
      (isClean_typeHint (isSpelt_of_spells hdialect hnames (hspells f hf)))
  | false =>
    rw [if_neg Bool.false_ne_true] at hfields htemplate
    obtain ⟨_, hcallTemplate, hmodule⟩ := isModule_typeCallTemplate
    obtain rfl := Except.ok.inj (hcallTemplate.symm.trans htemplate)
    obtain ⟨htypingLine, hreferencesLine⟩ :=
      hmodule.hasLine_imports hbuild htyping hhas hreferences hplain
    obtain rfl := Except.ok.inj hfields
    exact ⟨htypingLine, hreferencesLine, fun f hf =>
      Or.inr (hasLine_callField hmodule hbuild hlines hf)⟩

end ApiClient.Dialect.Python
