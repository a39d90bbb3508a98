import ApiClient.Proofs.Client.Files
import ApiClient.Proofs.Dialect.DataClass
import ApiClient.Proofs.Dialect.RootTemplate
import ApiClient.Proofs.Types.Agreement
import ApiClient.Proofs.Types.WriteOnce
import Mathlib

/-!
# The files of components

Two documents with the same components make clients with the same files for the types of the
components: right after the root file, in the same order and with the same texts, whatever the
paths of the documents are (`component_files_shared`). The components are resolved before the
paths, and the paths only add types.
-/

namespace ApiClient.Client

open Working

variable {r : Resolver}

theorem exists_of_forall₂_append {types more : Registry} {typed : List (String × String)}
    (h : List.Forall₂ (IsTypeFile r) (types ++ more) typed) :
    ∃ front back, typed = front ++ back ∧ List.Forall₂ (IsTypeFile r) types front := by
  refine ⟨typed.take types.length, typed.drop types.length, (List.take_append_drop _ _).symm, ?_⟩
  have htake := List.forall₂_take types.length h
  rwa [List.take_left] at htake

/-- What is made of a document whose client is `files`: the root file, the files of the types of
the components, and others, no two under the same path. -/
theorem exists_files {settings : Settings} {source : PageSource} {d : Document} {dialect : Dialect}
    {files : Files} (hdialect : Dialect.find settings.dialect = .ok dialect)
    (h : (generate settings source d).1 = .ok files) :
    let r : Resolver := ⟨some d.components, dialect, settings.namespaceName⟩
    ∃ root typed more, List.Forall₂ (IsTypeFile r) (outcome r.resolveComponents {}).2.types typed ∧
      files = (dialect.rootFile, root) :: (typed ++ more) ∧ Table.Distinct files := by
  intro r
  have hdraft := outcome_of_generate h
  obtain ⟨journal, named, root, typed, paged, hcomponents, hgrows, hfiles, hkeys, rfl⟩ :=
    exists_of_draft hdialect hdraft
  have hsame : (outcome r.resolveComponents {}).2.types = named.types := by
    have hagrees := (Resolver.agrees_resolveComponents r {} ⟨[], journal⟩ rfl).2
    rwa [hcomponents] at hagrees
  have hdistinct := distinct_files hfiles hkeys (sound_of_draft hdialect hdraft) root
  obtain ⟨rest, hrest⟩ := hgrows.types_isPrefix
  rw [← hrest] at hfiles
  obtain ⟨front, back, rfl, hfront⟩ := exists_of_forall₂_append hfiles
  refine ⟨root, front, back ++ paged, hsame ▸ hfront, ?_, ?_⟩
  · rw [Table.ofList_of_nodup hdistinct, List.cons_append, List.append_assoc]
  · rwa [Table.ofList_of_nodup hdistinct]

/-- Two clients that are made with the same dialect and namespace of documents with the same
components share the files of the types that resolving the components registers: each client is its
root file, then these files in the same order, then others, and under the paths of these files both
clients have the same texts. -/
theorem component_files_shared {settings settings' : Settings} {source source' : PageSource}
    {d d' : Document} {dialect : Dialect} {files files' : Files}
    (hdialect : Dialect.find settings.dialect = .ok dialect)
    (hdialect' : Dialect.find settings'.dialect = .ok dialect)
    (hnamespace : settings.namespaceName = settings'.namespaceName)
    (hcomponents : d.components = d'.components)
    (hfiles : (generate settings source d).1 = .ok files)
    (hfiles' : (generate settings' source' d').1 = .ok files') :
    let r : Resolver := ⟨some d.components, dialect, settings.namespaceName⟩
    ∃ shared root root' more more',
      List.Forall₂ (IsTypeFile r) (outcome r.resolveComponents {}).2.types shared ∧
        files = (dialect.rootFile, root) :: (shared ++ more) ∧
        files' = (dialect.rootFile, root') :: (shared ++ more') ∧
        ∀ path text, (path, text) ∈ shared →
          Table.get? files path = some text ∧ Table.get? files' path = some text := by
  intro r
  obtain ⟨root, shared, more, hshared, hlist, hdistinct⟩ := exists_files hdialect hfiles
  obtain ⟨root', shared', more', hshared', hlist', hdistinct'⟩ := exists_files hdialect' hfiles'
  rw [← hcomponents, ← hnamespace] at hshared'
  obtain rfl := (rightUnique_isTypeFile r).forall₂ hshared hshared'
  refine ⟨shared, root, root', more, more', hshared, hlist, hlist', fun path text hmem => ?_⟩
  constructor
  · refine Table.get?_of_mem hdistinct ?_
    rw [hlist]
    exact List.mem_cons_of_mem _ (List.mem_append_left _ hmem)
  · refine Table.get?_of_mem hdistinct' ?_
    rw [hlist']
    exact List.mem_cons_of_mem _ (List.mem_append_left _ hmem)

/-! ## Two clients of a shop -/

/-- The files of types, from what gives a type its path and its text. -/
def filesOf (path : String → String) (text : NamedType → Except Template.Error String) :
    Registry → Drafting (List (String × String))
  | [] => return []
  | t :: rest => do
    let content ← Drafting.within ("schema " ++ t.name) (Drafting.ofTemplate (text t))
    let more ← filesOf path text rest
    return (path t.name, content) :: more

theorem typeFiles_eq (r : Resolver) : ∀ types : Registry,
    typeFiles r types = filesOf r.dialect.typeFile (·.render r.dialect r.namespaceName) types
  | [] => rfl
  | t :: rest => by simp only [typeFiles, filesOf, typeFiles_eq r rest]

/-- An operation with a response of its own type. -/
def listing : PathItem where
  ref := .null
  summary := .null
  description := .null
  operations := [(.get, {
    responses := ⟨none, [("200", .inline ⟨.null, [],
      [("application/json", ⟨some (.inline (.single "total")), .null, [], []⟩)], []⟩)]⟩
    tags := []
    summary := .null
    description := .null
    externalDocs := none
    operationId := .str "item"
    parameters := []
    requestBody := none
    callbacks := []
    deprecated := false
    security := none
    servers := [] })]
  servers := []
  parameters := []

/-- A document with one component. -/
def shop (paths : Table PathItem) : Document where
  version := "3.0.0"
  info := ⟨"Shop", "1", .null, .null, none, none⟩
  paths := paths
  servers := []
  components := { schemas := [("ItemResponse", .inline (.single "id"))] }
  tags := []
  externalDocs := none
  security := []

theorem components_shop (paths : Table PathItem) :
    (shop paths).components = { schemas := [("ItemResponse", .inline (.single "id"))] } :=
  rfl

def shopSettings : Settings :=
  ⟨⟨"", []⟩, "acme", .str "kotlin", none⟩

/-- Pages without text. -/
def blankPages : PageSource :=
  .directory ⟨"", []⟩ fun _ => some ""

theorem dialectOf_shopSettings : dialectOf shopSettings = pure .kotlin :=
  rfl

theorem exists_of_isSome {settings : Settings} {source : PageSource} {d : Document}
    (h : (outcome (draft settings source d) {}).1.toOption.isSome = true) :
    ∃ files, (generate settings source d).1 = .ok files := by
  have hfst : (generate settings source d).1 = (outcome (draft settings source d) {}).1 := rfl
  rw [hfst]
  cases hdraft : (outcome (draft settings source d) {}).1 with
  | error e => simp [hdraft, Except.toOption] at h
  | ok files => exact ⟨files, rfl⟩

theorem exists_files_shop :
    ∃ files, (generate shopSettings blankPages (shop [])).1 = .ok files := by
  refine exists_of_isSome ?_
  simp only [draft, dialectOf_shopSettings, pure_bind]
  simp only [rootText, Dialect.renderRoot, Dialect.Kotlin.renderRoot, Dialect.Kotlin.rootTemplate_eq,
    typeFiles_eq, NamedType.render, Dialect.renderType, Dialect.Kotlin.renderType,
    Dialect.Kotlin.typeTemplate_eq]
  decide +kernel

theorem exists_files_shop_listing :
    ∃ files, (generate shopSettings blankPages (shop [("/", listing)])).1 = .ok files := by
  have hroutes : routes (shop [("/", listing)]) = pure ⟨some "/", some listing, []⟩ := by rfl
  refine exists_of_isSome ?_
  simp only [draft, dialectOf_shopSettings, hroutes, pure_bind]
  simp only [listing, buildScope, buildChildren, writeEndpoints, writeEndpoint,
    Dialect.renderEndpoint, Dialect.Kotlin.renderEndpoint, Dialect.Kotlin.endpointTemplate,
    rootText, Dialect.renderRoot, Dialect.Kotlin.renderRoot, Dialect.Kotlin.rootTemplate_eq,
    typeFiles_eq, NamedType.render, Dialect.renderType, Dialect.Kotlin.renderType,
    Dialect.Kotlin.typeTemplate_eq, Template.ofSource_eq, Template.scan_eq]
  decide +kernel

/-- The response of the second document asks for the name of the component, and does not change
the component's file. -/
theorem component_files_shared_shop :
    let r : Resolver := ⟨some (shop []).components, .kotlin, shopSettings.namespaceName⟩
    (outcome r.resolveComponents {}).2.types.names = ["ItemResponse"] ∧
      ∃ files files', (generate shopSettings blankPages (shop [])).1 = .ok files ∧
        (generate shopSettings blankPages (shop [("/", listing)])).1 = .ok files' ∧
        ∃ shared root root' more more',
          List.Forall₂ (IsTypeFile r) (outcome r.resolveComponents {}).2.types shared ∧
            files = (Dialect.kotlin.rootFile, root) :: (shared ++ more) ∧
            files' = (Dialect.kotlin.rootFile, root') :: (shared ++ more') ∧
            ∀ path text, (path, text) ∈ shared →
              Table.get? files path = some text ∧ Table.get? files' path = some text := by
  obtain ⟨files, hfiles⟩ := exists_files_shop
  obtain ⟨files', hfiles'⟩ := exists_files_shop_listing
  have hdialect : Dialect.find shopSettings.dialect = .ok .kotlin := rfl
  have hcomponents : (shop []).components = (shop [("/", listing)]).components :=
    (components_shop []).trans (components_shop _).symm
  obtain ⟨shared, root, root', more, more', hshared, hlists⟩ :=
    component_files_shared hdialect hdialect rfl hcomponents hfiles hfiles'
  refine ⟨by decide +kernel, files, files', hfiles, hfiles', shared, root, root', more, more', ?_⟩
  exact ⟨hshared, hlists⟩

end ApiClient.Client
