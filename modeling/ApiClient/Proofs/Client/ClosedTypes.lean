import ApiClient.Proofs.Client.Callables
import ApiClient.Proofs.Client.ComponentFiles
import ApiClient.Proofs.Dialect.PythonModule
import ApiClient.Proofs.Types.Termination
import Mathlib

/-!
# The types of a client are closed

Whatever a type mentions is there. In every state of a resolver the names in the types of fields are
registered (`Resolver.named_afterAll`), so in a Python client every name that a module of a type uses is
builtin, imported or its own, every module that it imports from is a file of the client, and so is that
of every type in the signature of a callable (`types_closed`).
-/

namespace ApiClient

open Naming Text Working

namespace Resolver

variable {r : Resolver}

theorem covers_keeps (r : Resolver) : r.Covers fun _ work => Moves r.Keeps work where
  closed := closed_moves
  record entries s := keeps_record s entries
  resolve := keeps_resolve

end Resolver

namespace Client

open Drafting Dialect.Python

variable {r : Resolver}

theorem keeps_buildScope (scopes : List String) (route : Route PathItem) :
    Moves (fun d d' : Draft => r.Keeps d.types d'.types) (buildScope r scopes route) :=
  closed_buildScope (covers_moves r.covers_keeps) scopes route

/-- The client has a file for a type of this name. -/
def HasTypeFile (d : Dialect) (files : Files) (name : String) : Prop :=
  ∃ text, Table.get? files (d.typeFile name) = some text

/-- The type hints in the module of a type use no other names than builtin types, those that it takes
from the typing module, its own, and those that it takes from files of the client. -/
structure IsClosedModule (files : Files) (t : NamedType) (text : String) : Prop where
  typing_line : HasLine text ("from typing import " ++ Text.join ", " (typing t))
  imports : ∀ n ∈ t.references, HasLine text (importOf n) ∧ HasTypeFile .python files n
  fields : ∀ f ∈ t.fields, HasLine text (classField f) ∨ HasLine text (callField f)
  words : ∀ f ∈ t.fields, ∀ word : String, IsWord word.toList (typeHint f).toList →
    word ∈ builtins ∨ word ∈ typing t ∨ word = t.name ∨ word ∈ t.references

/-- A Python client is its root file, closed modules of types, and pages. The root file is that of a
scope whose callables, and those of the scopes below it, mention types with files. -/
def IsClosed (settings : Settings) (d : Document) (files : Files) : Prop :=
  let r : Resolver := ⟨some d.components, .python, settings.namespaceName⟩
  ∃ (types : Registry) (root : String) (typed paged : List (String × String))
    (tree : Route PathItem) (scope : Scope),
    files = (Dialect.python.rootFile, root) :: (typed ++ paged) ∧
    paged.map Prod.fst = (pages .python).map Prod.fst ∧
    List.Forall₂ (fun t file => IsTypeFile r t file ∧ IsClosedModule files t file.2) types typed ∧
    Route.ofPaths d.paths = .ok tree ∧ rootText r d scope types = .ok root ∧
    IsWritten r (Endpoint.Mentions r types.names) tree scope ∧
    ∀ n ∈ types.names, HasTypeFile .python files n

theorem hasTypeFile_of_mem {types : Registry} {typed : List (String × String)} {files : Files}
    (hfiles : List.Forall₂ (IsTypeFile r) types typed) (hsub : typed ⊆ files)
    (hdistinct : Table.Distinct files) : ∀ n ∈ types.names, HasTypeFile r.dialect files n := by
  intro n hn
  obtain ⟨t, ht, rfl⟩ := List.mem_map.1 hn
  obtain ⟨text, -, hfile⟩ := exists_of_isTypeFile hfiles ht
  exact ⟨text, Table.get?_of_mem hdistinct (hsub hfile)⟩

theorem isClosedModule_of_isTypeFile (hdialect : r.dialect = .python) {types : Registry}
    (hsound : r.Sound types) (hspelled : r.Spelled types) {files : Files}
    (hhas : ∀ n ∈ types.names, HasTypeFile .python files n) {t : NamedType} (ht : t ∈ types)
    {file : String × String} (hfile : IsTypeFile r t file) : IsClosedModule files t file.2 := by
  have hplain : ∀ n ∈ types.names, IsPlainName n := fun n => hsound.isPlainName
  have hrender : renderType t.record (.str r.namespaceName) = .ok file.2 := by
    have htext := hfile.2
    rw [hdialect] at htext
    exact htext
  obtain ⟨htyping, himports, hfields⟩ :=
    hasLine_of_renderType hdialect hplain (hspelled t ht) hrender
  refine ⟨htyping, fun n hn => ⟨himports n hn, hhas n ?_⟩, hfields, fun f hf word hword => ?_⟩
  · obtain ⟨f, hf, hnamed⟩ := List.mem_flatMap.1 (List.mem_of_mem_filter (mem_firstUses.1 hn))
    exact (hspelled t ht f hf).named_subset hnamed
  · exact isWord_typeHint hdialect hplain hf (hspelled t ht f hf) hword

theorem isClosed_of_generate {settings : Settings} {source : PageSource} {d : Document}
    {files : Files} (hdialect : Dialect.find settings.dialect = .ok .python)
    (h : (generate settings source d).1 = .ok files) : IsClosed settings d files := by
  unfold IsClosed
  intro r
  have hdraft := outcome_of_generate h
  obtain ⟨journal, tree, named, scope, built, root, typed, paged, htree, hcomponents, hscope, hroot,
    hfiles, hkeys, rfl, htypes, -⟩ := exists_stages_of_draft hdialect hdraft
  generalize (outcome (draft settings source d) {}).2.types.types = types at *
  subst htypes
  have hnamed : r.Sound named.types.types ∧ r.Spelled named.types.types :=
    Moves.leads (Resolver.keeps_resolveComponents r) hcomponents ⟨r.sound_nil, r.spelled_nil⟩
  obtain ⟨hsound, hspelled⟩ := (keeps_buildScope [] tree).leads hscope hnamed
  have hdistinct := distinct_files (r := r) hfiles hkeys hsound root
  rw [Table.ofList_of_nodup hdistinct, List.cons_append]
  have hhas : ∀ n ∈ built.types.types.names, HasTypeFile .python
      ((Dialect.python.rootFile, root) :: (typed ++ paged)) n :=
    hasTypeFile_of_mem hfiles (fun _ hf => List.mem_cons_of_mem _ (List.mem_append_left _ hf))
      hdistinct
  refine ⟨built.types.types, root, typed, paged, tree, scope, rfl, hkeys, ?_, htree, hroot, ?_, hhas⟩
  · refine ((List.forall₂_and_left _ _).2 ⟨fun _ ht => ht, hfiles⟩).imp fun t file ⟨ht, hfile⟩ => ?_
    exact ⟨hfile, isClosedModule_of_isTypeFile rfl hsound hspelled hhas ht hfile⟩
  · exact isWritten_buildScope hnamed.1 hscope (List.Subset.refl _)

/-- The types of a client are closed. In every state that calls of a resolver lead to, also when some of
them have failed, the names in the type of a field are registered, and those in a type that a call gives
are registered from then on. So every Python client that is made is closed. -/
theorem types_closed :
    (∀ (r : Resolver) (journal : Journal) (queries : List Resolver.Query),
      let s := r.afterAll ⟨[], journal⟩ queries
      (∀ t ∈ s.types, ∀ f ∈ t.fields, f.type.named ⊆ s.types.names) ∧
        ∀ value name parent property spelling s',
          outcome (r.resolve value name parent property) s = (.ok spelling, s') →
            ∀ later, spelling.named ⊆ (r.afterAll s' later).types.names) ∧
    ∀ settings source d files, Dialect.find settings.dialect = .ok .python →
      (generate settings source d).1 = .ok files → IsClosed settings d files :=
  ⟨Resolver.named_afterAll, fun _ _ _ _ => isClosed_of_generate⟩

/-! ## A client of nodes -/

/-- A document with the nodes of the tree and an operation. -/
def orchard : Document where
  version := "3.0.0"
  info := ⟨"Orchard", "1", .null, .null, none, none⟩
  paths := [("/", listing)]
  servers := []
  components := (Resolver.tree).components.getD {}
  tags := []
  externalDocs := none
  security := []

def orchardSettings : Settings :=
  ⟨⟨"", []⟩, "acme", .str "python", none⟩

theorem exists_files_orchard :
    ∃ files, (generate orchardSettings blankPages orchard).1 = .ok files := by
  have hdialect : dialectOf orchardSettings = pure .python := rfl
  have hroutes : routes orchard = pure ⟨some "/", some listing, []⟩ := by rfl
  refine exists_of_isSome ?_
  simp only [draft, hdialect, hroutes, pure_bind]
  simp only [listing, buildScope, buildChildren, writeEndpoints, writeEndpoint,
    Dialect.renderEndpoint, Dialect.Python.renderEndpoint, Dialect.Python.endpointTemplate,
    rootText, Dialect.renderRoot, Dialect.Python.renderRoot, Dialect.Python.rootTemplate_eq,
    typeFiles_eq, NamedType.render, Dialect.renderType, Dialect.Python.renderType,
    Dialect.Python.typeClassTemplate_eq, Dialect.Python.typeCallTemplate_eq, Template.ofSource_eq,
    Template.scan_eq]
  decide +kernel

/-- The client of the nodes is closed, and so is what resolving the components registers. -/
theorem types_closed_orchard :
    let s := Resolver.tree.afterAll {} [.components]
    (s.types.names = ["Node", "NodeLink2", "NodeLink"] ∧
      ∀ t ∈ s.types, ∀ f ∈ t.fields, f.type.named ⊆ s.types.names) ∧
    ∃ files, (generate orchardSettings blankPages orchard).1 = .ok files ∧
      IsClosed orchardSettings orchard files := by
  obtain ⟨files, hfiles⟩ := exists_files_orchard
  refine ⟨⟨by decide +kernel, (types_closed.1 Resolver.tree [] [.components]).1⟩, files, hfiles, ?_⟩
  exact types_closed.2 _ _ _ _ rfl hfiles

end Client

end ApiClient
