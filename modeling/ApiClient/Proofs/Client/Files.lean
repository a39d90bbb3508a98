import ApiClient.Proofs.Client.Growth
import ApiClient.Proofs.Client.Paths
import ApiClient.Proofs.Json.Table
import Mathlib

/-!
# The files of a client

The files of a client are its root file, the files of its types and its pages, in this order and each
under a path of its own, which is a text of names with slashes between them (`exists_parts_of_draft`).
-/

namespace ApiClient.Client

open Working

variable {r : Resolver} {types : Registry} {typed paged : List (String × String)}

theorem rightUnique_isTypeFile (r : Resolver) : Relator.RightUnique (IsTypeFile r) := by
  rintro t ⟨path, text⟩ ⟨path', text'⟩ ⟨rfl, htext⟩ ⟨hpath, htext'⟩
  rw [htext] at htext'
  exact Prod.ext hpath.symm (Except.ok.inj htext')

theorem paths_of_isTypeFile (h : List.Forall₂ (IsTypeFile r) types typed) :
    typed.map Prod.fst = types.map fun t => r.dialect.typeFile t.name := by
  induction h with
  | nil => rfl
  | cons hfile _ ih => rw [List.map_cons, List.map_cons, hfile.1, ih]

section Listed

variable (hfiles : List.Forall₂ (IsTypeFile r) types typed)
  (hpages : paged.map Prod.fst = (pages r.dialect).map Prod.fst)

include hfiles hpages

theorem paths_of_files (root : String) : ((r.dialect.rootFile, root) :: typed ++ paged).map Prod.fst =
    r.dialect.rootFile :: types.map (fun t => r.dialect.typeFile t.name) ++
      (pages r.dialect).map Prod.fst := by
  rw [List.map_append, List.map_cons, paths_of_isTypeFile hfiles, hpages]

theorem distinct_files (hs : r.Sound types) (root : String) :
    Table.Distinct ((r.dialect.rootFile, root) :: typed ++ paged) := by
  rw [Table.Distinct, Table.keys, paths_of_files hfiles hpages]
  exact nodup_paths hs

theorem ofList_files (hs : r.Sound types) (root : String) :
    Table.ofList ((r.dialect.rootFile, root) :: typed ++ paged) =
      (r.dialect.rootFile, root) :: typed ++ paged :=
  Table.ofList_of_nodup (distinct_files hfiles hpages hs root)

end Listed

theorem exists_dialect_of_draft {settings : Settings} {source : PageSource} {d : Document}
    {files : Files} {final : Draft} (h : outcome (draft settings source d) {} = (.ok files, final)) :
    ∃ dialect, Dialect.find settings.dialect = .ok dialect := by
  rw [draft, dialectOf] at h
  cases hdialect : Dialect.find settings.dialect with
  | error e =>
    rw [hdialect] at h
    cases h
  | ok dialect => exact ⟨dialect, rfl⟩

/-- The types of a client that has been made are sound. -/
theorem sound_of_draft {settings : Settings} {source : PageSource} {d : Document}
    {dialect : Dialect} {files : Files} {final : Draft}
    (hdialect : Dialect.find settings.dialect = .ok dialect)
    (h : outcome (draft settings source d) {} = (.ok files, final)) :
    let r : Resolver := ⟨some d.components, dialect, settings.namespaceName⟩
    r.Sound final.types.types := by
  intro r
  obtain ⟨journal, named, -, -, -, hcomponents, hgrows, -⟩ := exists_of_draft hdialect h
  have hnamed : r.Sound named.types :=
    (Moves.leads (Resolver.grows_resolveComponents r) hcomponents).sound r.sound_nil
  exact hgrows.sound hnamed

/-- The files of a client by their kinds: the text of the root file, a file with the rendering of each
type of the draft, and the pages, which are made of the types and calls of the draft. -/
structure Parts (r : Resolver) (source : PageSource) (d : Document) (final : Draft) (root : String)
    (typed paged : List (String × String)) : Prop where
  root : ∃ scope, rootText r d scope final.types.types = .ok root
  types : List.Forall₂ (IsTypeFile r) final.types.types typed
  pages : ∃ tree, Route.ofPaths d.paths = .ok tree ∧
    List.Forall₂ (IsPage source (pageValues r d (tree.format hasOperations) final.types.types
      final.calls)) (pages r.dialect) paged

/-- The files of a client that has been made are its parts, one after the other. Their paths are
distinct, and names with slashes between them. -/
theorem exists_parts_of_draft {settings : Settings} {source : PageSource} {d : Document}
    {files : Files} {final : Draft} (h : outcome (draft settings source d) {} = (.ok files, final)) :
    ∃ dialect root typed paged, Dialect.find settings.dialect = .ok dialect ∧
      Parts ⟨some d.components, dialect, settings.namespaceName⟩ source d final root typed paged ∧
      files = (dialect.rootFile, root) :: typed ++ paged ∧ Table.Distinct files ∧
      ∀ e ∈ files, Path.JoinsNames e.1 := by
  obtain ⟨dialect, hdialect⟩ := exists_dialect_of_draft h
  let r : Resolver := ⟨some d.components, dialect, settings.namespaceName⟩
  have hsound : r.Sound final.types.types := sound_of_draft hdialect h
  obtain ⟨journal, tree, named, scope, built, root, typed, paged, htree, -, -, -, hroot, htyped,
    hpaged, rfl, -⟩ := exists_steps_of_draft hdialect h
  have hpages : paged.map Prod.fst = (pages r.dialect).map Prod.fst := keys_of_isPage hpaged
  rw [ofList_files (r := r) htyped hpages hsound]
  refine ⟨dialect, root, typed, paged, hdialect, ⟨⟨scope, hroot⟩, htyped, tree, htree, hpaged⟩, rfl,
    distinct_files (r := r) htyped hpages hsound root, fun e he => joinsNames_of_mem_paths hsound ?_⟩
  rw [← paths_of_files (r := r) htyped hpages root]
  exact List.mem_map_of_mem he

/-- The files of a client have paths of their own, and these are names with slashes between them. -/
theorem joinsNames_of_generate {settings : Settings} {source : PageSource} {d : Document}
    {files : Files} (h : (generate settings source d).1 = .ok files) :
    Table.Distinct files ∧ ∀ e ∈ files, Path.JoinsNames e.1 := by
  have hdraft := outcome_of_generate h
  obtain ⟨_, _, _, _, -, -, -, hdistinct, hnames⟩ := exists_parts_of_draft hdraft
  exact ⟨hdistinct, hnames⟩

end ApiClient.Client
