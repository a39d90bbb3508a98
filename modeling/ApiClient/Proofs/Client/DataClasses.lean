import ApiClient.Proofs.Client.ClosedTypes
import ApiClient.Proofs.Dialect.DataClass
import ApiClient.Proofs.Types.Completeness
import Mathlib

/-!
# The data classes of a client

When a client has been made, every type has one field for each property of its schema
(`Client.complete_of_draft`), so the data class of a Kotlin type has one parameter for each property,
with the identifier of the property. Nothing tells parameters apart afterwards: those of one class are
distinct exactly when the class names of the properties are (`data_class_parameters`).
-/

namespace ApiClient

open Naming Template Working

namespace Resolver

variable {r : Resolver}

theorem covers_fills (r : Resolver) : r.Covers fun _ work => Delivers (r.Fills []) work where
  closed := closed_delivers
  record entries s s' _ h := by
    obtain ⟨-, rfl⟩ := Prod.mk.inj h
    exact fills_record s entries
  resolve := fills_resolve

end Resolver

namespace Client

open Dialect.Kotlin Drafting

variable {r : Resolver}

theorem fills_buildScope (scopes : List String) (route : Route PathItem) :
    Delivers (fun d d' : Draft => r.Fills [] d.types d'.types) (buildScope r scopes route) :=
  closed_buildScope (covers_delivers r.covers_fills) scopes route

/-- The types of a client that has been made are complete. -/
theorem complete_of_draft {settings : Settings} {source : PageSource} {d : Document}
    {dialect : Dialect} {files : Files} {final : Draft}
    (hdialect : Dialect.find settings.dialect = .ok dialect)
    (h : outcome (draft settings source d) {} = (.ok files, final)) :
    let r : Resolver := ⟨some d.components, dialect, settings.namespaceName⟩
    ∀ t ∈ final.types.types, r.Complete final.types t := by
  intro r t ht
  have hsound : r.Sound final.types.types := sound_of_draft hdialect h
  obtain ⟨journal, tree, named, scope, built, root, typed, paged, -, hcomponents, hscope, -, -, -, -,
    htypes, hgrows⟩ := exists_stages_of_draft hdialect h
  have hnamed : r.Fills [] ⟨[], journal⟩ named.types :=
    Resolver.fills_resolveComponents r _ _ () hcomponents
  have hbuilt : r.Fills [] ⟨[], journal⟩ built.types :=
    hnamed.trans (fills_buildScope [] tree named built scope hscope)
  have hfind : built.types.types.find t.name = some t := by
    rw [← htypes]
    exact Registry.find_of_mem hsound.nodup ht
  exact (hbuilt.complete t.name List.not_mem_nil t rfl hfind).later
    (hgrows.weaken (List.nil_subset _))

theorem spelled_of_draft {settings : Settings} {source : PageSource} {d : Document}
    {dialect : Dialect} {files : Files} {final : Draft}
    (hdialect : Dialect.find settings.dialect = .ok dialect)
    (h : outcome (draft settings source d) {} = (.ok files, final)) :
    let r : Resolver := ⟨some d.components, dialect, settings.namespaceName⟩
    r.Spelled final.types.types := by
  intro r
  obtain ⟨journal, tree, named, scope, built, root, typed, paged, -, hcomponents, hscope, -, -, -, -,
    htypes, -⟩ := exists_stages_of_draft hdialect h
  have hnamed : r.Sound named.types.types ∧ r.Spelled named.types.types :=
    Moves.leads (Resolver.keeps_resolveComponents r) hcomponents ⟨r.sound_nil, r.spelled_nil⟩
  rw [htypes]
  exact ((keeps_buildScope [] tree).leads hscope hnamed).2

/-! ## Parameters -/

theorem unmarked_short {names : List String} (hnames : ∀ n ∈ names, IsPlainName n)
    {spelling : Spelling} (h : r.Spells names spelling) : Unmarked spelling.short.toList := by
  obtain ⟨e, hproper, hsub, rfl⟩ := h
  have hchars := e.all_isTypeChar_text hproper fun n hn => hnames n (hsub hn)
  exact fun hmem => absurd (List.all_eq_true.1 hchars _ hmem) (by decide)

/-- The data class of a sound type stands in its file in full, if no property has the character of a
mark in its name. -/
theorem exists_dataClass_of_isTypeFile (hdialect : r.dialect = .kotlin) {types : Registry}
    (hsound : r.Sound types) (hspelled : r.Spelled types) {s : TypeState} {t : NamedType}
    (ht : t ∈ types) (hcomplete : r.Complete s t) (hnames : ∀ f ∈ t.fields, Unmarked f.name.toList)
    {text : String} (htext : t.render r.dialect r.namespaceName = .ok text) :
    ∃ head, text = head ++ dataClass t := by
  have hplain : ∀ n ∈ types.names, IsPlainName n := fun n => hsound.isPlainName
  rw [hdialect] at htext
  refine exists_dataClass_of_renderType htext (unmarked_dataClass ?_ fun f hf => ?_)
  · exact unmarked_of_isPlainName (hplain _ (List.mem_map_of_mem ht))
  · have hidentifier : f.identifier = Dialect.kotlin.identifier f.name :=
      hdialect ▸ hcomplete.identifier_of_mem f hf
    exact unmarked_parameterLine (hnames f hf) hidentifier (unmarked_short hplain (hspelled t ht f hf))

/-- The names of the properties of a type, in the order of its schema. -/
def propertyNames (t : NamedType) : List String :=
  (t.schema.properties.getD []).map Prod.fst

/-- What a Kotlin client has for a type: a field for each property, with the identifier of its name,
and a file that ends in the data class of these fields, if no property has the character of a mark in its
name. -/
structure HasDataClass (files : Files) (t : NamedType) : Prop where
  names_eq : t.fields.map (·.name) = propertyNames t
  identifiers_eq : t.fields.map (·.identifier) = (propertyNames t).map Dialect.kotlin.identifier
  file : ∃ text, Table.get? files (Dialect.kotlin.typeFile t.name) = some text ∧
    ((∀ name ∈ propertyNames t, Unmarked name.toList) → ∃ head, text = head ++ dataClass t)

theorem hasDataClass_of_generate {settings : Settings} {source : PageSource} {d : Document}
    {files : Files} (hdialect : Dialect.find settings.dialect = .ok .kotlin)
    (h : (generate settings source d).1 = .ok files) :
    ∀ t ∈ (outcome (draft settings source d) {}).2.types.types, HasDataClass files t := by
  intro t ht
  have hdraft := outcome_of_generate h
  let r : Resolver := ⟨some d.components, .kotlin, settings.namespaceName⟩
  have hcomplete : r.Complete _ t := complete_of_draft hdialect hdraft t ht
  have hnames : t.fields.map (·.name) = propertyNames t := hcomplete.map_name
  refine ⟨hnames, hcomplete.map_identifier, ?_⟩
  obtain ⟨dialect, root, typed, paged, hfound, hparts, rfl, hdistinct, -⟩ :=
    exists_parts_of_draft hdraft
  obtain rfl : .kotlin = dialect := Except.ok.inj (hdialect.symm.trans hfound)
  obtain ⟨text, htext, hfile⟩ := exists_of_isTypeFile hparts.types ht
  refine ⟨text, Table.get?_of_mem hdistinct ?_, fun hunmarked => ?_⟩
  · exact List.mem_append_left _ (List.mem_cons_of_mem _ hfile)
  · rw [← hnames] at hunmarked
    exact exists_dataClass_of_isTypeFile (r := r) rfl (sound_of_draft hdialect hdraft)
      (spelled_of_draft hdialect hdraft) ht hcomplete
      (fun f hf => hunmarked f.name (List.mem_map_of_mem hf)) htext

theorem HasDataClass.nodup_iff {files : Files} {t : NamedType} (h : HasDataClass files t) :
    (t.fields.map (·.identifier)).Nodup ↔ ((propertyNames t).map className).Nodup := by
  rw [h.identifiers_eq, nodup_map_kotlin_identifier_iff]

/-- Every type of a Kotlin client that has been made has a file with its data class, which has one
parameter for each property of the type. The parameters are distinct exactly when the class names of
the properties are. -/
theorem data_class_parameters {settings : Settings} {source : PageSource} {d : Document}
    {files : Files} (hdialect : Dialect.find settings.dialect = .ok .kotlin)
    (h : (generate settings source d).1 = .ok files) :
    ∀ t ∈ (outcome (draft settings source d) {}).2.types.types, HasDataClass files t ∧
      ((t.fields.map (·.identifier)).Nodup ↔ ((propertyNames t).map className).Nodup) := by
  intro t ht
  have hclass := hasDataClass_of_generate hdialect h t ht
  exact ⟨hclass, hclass.nodup_iff⟩

/-! ## A client with a pair -/

/-- A document with a component for an object whose two properties differ in a separator. -/
def ledger : Document where
  version := "3.0.0"
  info := ⟨"Ledger", "1", .null, .null, none, none⟩
  paths := []
  servers := []
  components := { schemas := [("Pair", .inline { Schema.single "" with
    properties := some [("a-b", .inline Schema.single.text), ("a_b", .inline Schema.single.text)] })] }
  tags := []
  externalDocs := none
  security := []

/-- The names of types, with their properties and their parameters. -/
def rows (types : Registry) : List (String × List String × List String) :=
  types.map fun t => (t.name, propertyNames t, t.fields.map parameterLine)

theorem draft_ledger : let run := outcome (draft shopSettings blankPages ledger) {}
    run.1.toOption.isSome = true ∧ rows run.2.types.types = [("Pair", ["a-b", "a_b"],
      ["@SerialName(\"a-b\") val aB: String? = null,",
        "@SerialName(\"a_b\") val aB: String? = null,"])] := by
  simp only [draft, dialectOf_shopSettings, pure_bind]
  simp only [rootText, Dialect.renderRoot, Dialect.Kotlin.renderRoot, Dialect.Kotlin.rootTemplate_eq,
    typeFiles_eq, NamedType.render, Dialect.renderType, Dialect.Kotlin.renderType,
    Dialect.Kotlin.typeTemplate_eq]
  decide +kernel

/-- The pair is a type of its client. -/
theorem data_class_parameters_ledger :
    Dialect.find shopSettings.dialect = .ok .kotlin ∧
    ∃ files, (generate shopSettings blankPages ledger).1 = .ok files ∧
      let types := (outcome (draft shopSettings blankPages ledger) {}).2.types.types
      types.names = ["Pair"] ∧ ∀ t ∈ types, HasDataClass files t ∧
        ((t.fields.map (·.identifier)).Nodup ↔ ((propertyNames t).map className).Nodup) := by
  obtain ⟨hsome, hrows⟩ := draft_ledger
  obtain ⟨files, hfiles⟩ := exists_of_isSome hsome
  refine ⟨rfl, files, hfiles, ?_, data_class_parameters rfl hfiles⟩
  have hnames := congrArg (List.map Prod.fst) hrows
  rw [rows, List.map_map] at hnames
  exact hnames

/-- The two properties of the pair have different names, and give its data class the same parameter
twice. -/
theorem data_class_parameters_merged :
    ∃ files head, ∃ t ∈ (outcome (draft shopSettings blankPages ledger) {}).2.types.types,
      (generate shopSettings blankPages ledger).1 = .ok files ∧
      Table.get? files "schemas/Pair.kt" = some (head ++ dataClass t) ∧
      dataClass t = "@Serializable\ndata class Pair(\n" ++
        "    @SerialName(\"a-b\") val aB: String? = null,\n" ++
        "    @SerialName(\"a_b\") val aB: String? = null,\n)\n" ∧
      propertyNames t = ["a-b", "a_b"] ∧ (propertyNames t).Nodup ∧
      t.fields.map (·.identifier) = ["aB", "aB"] ∧ ¬(t.fields.map (·.identifier)).Nodup := by
  obtain ⟨hsome, hrows⟩ := draft_ledger
  obtain ⟨files, hfiles⟩ := exists_of_isSome hsome
  have hdata := hasDataClass_of_generate rfl hfiles
  generalize (outcome (draft shopSettings blankPages ledger) {}).2.types.types = types at *
  obtain ⟨t, rfl, hrow⟩ := List.map_eq_singleton_iff.1 hrows
  obtain ⟨hname, hproperties, hlines⟩ : t.name = "Pair" ∧ propertyNames t = ["a-b", "a_b"] ∧
      t.fields.map parameterLine = ["@SerialName(\"a-b\") val aB: String? = null,",
        "@SerialName(\"a_b\") val aB: String? = null,"] := by
    simpa only [Prod.mk.injEq] using hrow
  obtain ⟨-, hidentifiers, text, htext, hclass⟩ := hdata t (List.mem_singleton_self t)
  rw [hproperties] at hidentifiers hclass
  have hmerged : t.fields.map (·.identifier) = ["aB", "aB"] := hidentifiers.trans (by decide)
  obtain ⟨head, rfl⟩ := hclass (by decide)
  rw [hname] at htext
  refine ⟨files, head, t, List.mem_singleton_self t, hfiles, htext, ?_, hproperties, ?_, hmerged, ?_⟩
  · rw [dataClass, hname, hlines]
    decide +kernel
  · rw [hproperties]
    decide
  · rw [hmerged]
    decide

end Client

end ApiClient
