import ApiClient.Proofs.Client.ComponentFiles
import ApiClient.Proofs.Dialect.PythonTemplate
import Mathlib

/-!
# No file of a client is lost

The files of a client are a table, in which a file would take the place of another one under the same
path without a word. No client that is made loses a file in this way (`no_file_lost`), whatever the
names in its document are: the names of its types are distinct and plain, and none of them is that of the
file that makes a directory a package.
-/

namespace ApiClient.Client

open Working

/-- The paths of the files below a directory are distinct if the files have texts of names as paths. -/
theorem nodup_append_paths {files : Files} (hdistinct : Table.Distinct files)
    (hnames : ∀ e ∈ files, Path.JoinsNames e.1) (top : Path) :
    (files.map fun e => top.append (Path.ofString e.1)).Nodup := by
  rw [Table.Distinct, Table.keys, List.Nodup, List.pairwise_map] at hdistinct
  rw [List.Nodup, List.pairwise_map]
  exact hdistinct.imp_of_mem fun he he' hne heq => hne ((hnames _ he).append_inj (hnames _ he') heq)

/-- The files of every client that is made are the root file, one for each type that is registered in the
end and one for each page of the dialect, and no others. No two of them have the same path below the
output directory, so the root file is found under its path, and under the path of every type and of every
page is what has been rendered for it. -/
theorem no_file_lost {settings : Settings} {source : PageSource} {d : Document} {files : Files}
    {final : Draft} (h : outcome (draft settings source d) {} = (.ok files, final)) :
    ∃ dialect root typed paged, Dialect.find settings.dialect = .ok dialect ∧
      Parts ⟨some d.components, dialect, settings.namespaceName⟩ source d final root typed paged ∧
      files = (dialect.rootFile, root) :: typed ++ paged ∧
      (files.map fun e => settings.outputDir.append (Path.ofString e.1)).Nodup ∧
      Table.get? files dialect.rootFile = some root ∧
      (∀ t ∈ final.types.types, ∃ text, t.render dialect settings.namespaceName = .ok text ∧
        Table.get? files (dialect.typeFile t.name) = some text) ∧
      ∀ page ∈ pages dialect, ∃ text, (page.1, text) ∈ paged ∧
        Table.get? files page.1 = some text := by
  obtain ⟨dialect, root, typed, paged, hdialect, hparts, hlist, hdistinct, hnames⟩ :=
    exists_parts_of_draft h
  obtain ⟨tree, -, hpaged⟩ := hparts.pages
  have hfound : ∀ path text, (path, text) ∈ (dialect.rootFile, root) :: typed ++ paged →
      Table.get? files path = some text := fun path text hmem =>
    Table.get?_of_mem hdistinct (hlist ▸ hmem)
  refine ⟨dialect, root, typed, paged, hdialect, hparts, hlist,
    nodup_append_paths hdistinct hnames settings.outputDir, hfound _ _ List.mem_cons_self,
    fun t ht => ?_, fun page hpage => ?_⟩
  · obtain ⟨text, htext, hfile⟩ := exists_of_isTypeFile hparts.types ht
    exact ⟨text, htext, hfound _ _ (List.mem_append_left _ (List.mem_cons_of_mem _ hfile))⟩
  · obtain ⟨text, -, hfile⟩ := exists_of_isPage hpaged hpage
    exact ⟨text, hfile, hfound _ _ (List.mem_append_right _ hfile)⟩

/-- A document whose components both ask for the name of the package's own file. -/
def kernels : Document where
  version := "3.0.0"
  info := ⟨"Kernels", "1", .null, .null, none, none⟩
  paths := []
  servers := []
  components := { schemas := [("__init__", .inline (.single "id")), ("init", .inline (.single "name"))] }
  tags := []
  externalDocs := none
  security := []

def kernelSettings : Settings :=
  ⟨⟨"", ["out"]⟩, "acme", .str "python", none⟩

theorem keys_draft_kernels :
    (outcome (draft kernelSettings blankPages kernels) {}).1.toOption.map Table.keys =
      some ["api.py", "schemas/Init.py", "schemas/Init2.py", "__init__.py", "schemas/__init__.py",
        "README.md"] := by
  have hdialect : dialectOf kernelSettings = pure .python := rfl
  simp only [draft, hdialect, pure_bind]
  simp only [rootText, Dialect.renderRoot, Dialect.Python.renderRoot, Dialect.Python.rootTemplate_eq,
    typeFiles_eq, NamedType.render, Dialect.renderType, Dialect.Python.renderType,
    Dialect.Python.typeClassTemplate_eq, Dialect.Python.typeCallTemplate_eq]
  decide +kernel

/-- The components get two names, and their files stand beside the one of the package. -/
theorem no_file_lost_kernels :
    ∃ files final, outcome (draft kernelSettings blankPages kernels) {} = (.ok files, final) ∧
      Table.keys files = ["api.py", "schemas/Init.py", "schemas/Init2.py", "__init__.py",
        "schemas/__init__.py", "README.md"] ∧
      (files.map fun e => kernelSettings.outputDir.append (Path.ofString e.1)).Nodup ∧
      ∀ t ∈ final.types.types, ∃ text, t.render .python "acme" = .ok text ∧
        Table.get? files (Dialect.python.typeFile t.name) = some text := by
  obtain ⟨files, hfiles, hkeys⟩ := Option.map_eq_some_iff.1 keys_draft_kernels
  have hdraft := outcome_of_toOption hfiles
  obtain ⟨dialect, root, typed, paged, hdialect, -, -, hnodup, -, htypes, -⟩ := no_file_lost hdraft
  obtain rfl : Dialect.python = dialect := Except.ok.inj hdialect
  exact ⟨files, _, hdraft, hkeys, hnodup, htypes⟩

end ApiClient.Client
