import ApiClient.Client.Generation
import ApiClient.Proofs.Files.Path
import ApiClient.Proofs.Naming.Scope
import ApiClient.Proofs.Types.Edit
import Mathlib

/-!
# The paths of a client

The root file, the files of types and the pages have paths of their own (`nodup_paths`). The files
of types stand in a directory where the only page is one whose name no type can have. All of them
are names with slashes between them (`joinsNames_of_mem_paths`).
-/

namespace ApiClient

open Naming

namespace Dialect

theorem typeFile_injective (d : Dialect) : Function.Injective d.typeFile := by
  intro a b h
  have hchars := congrArg String.toList h
  simp only [typeFile, String.toList_append, List.append_assoc] at hchars
  have hnames := List.append_cancel_left (List.append_cancel_left hchars)
  exact String.toList_injective (List.append_cancel_right hnames)

theorem head?_typeFile (d : Dialect) (name : String) :
    (d.typeFile name).toList.head? = some 's' := by
  have hdir : typesDir.toList = 's' :: "chemas".toList := by decide
  simp only [typeFile, String.toList_append, hdir, List.cons_append, List.head?_cons]

theorem typeFile_ne (d : Dialect) (name : String) {path : String}
    (h : path.toList.head? ≠ some 's') : d.typeFile name ≠ path := by
  rintro rfl
  exact h (d.head?_typeFile name)

theorem typeFile_ne_rootFile (d : Dialect) (name : String) : d.typeFile name ≠ d.rootFile := by
  cases d <;> exact typeFile_ne _ _ (by decide)

/-- The ending makes a name of a plain name, however short it is. -/
theorem isName_typeFile (d : Dialect) {name : String} (h : IsPlainName name) :
    Path.IsName (name ++ "." ++ d.fileExtension) := by
  have hslash : '/' ∉ (name ++ "." ++ d.fileExtension).toList := by
    have hname : '/' ∉ name.toList := fun hmem => absurd (h _ hmem) (by decide)
    have hext : '/' ∉ ("." ++ d.fileExtension).toList := by cases d <;> decide
    rw [String.append_assoc, String.toList_append, List.mem_append]
    exact not_or.2 ⟨hname, hext⟩
  have hlong : 3 ≤ (name ++ "." ++ d.fileExtension).toList.length := by
    have hext : ("." ++ d.fileExtension).toList.length = 3 := by cases d <;> decide
    rw [String.append_assoc, String.toList_append, List.length_append, hext]
    exact Nat.le_add_left 3 _
  have hne : ∀ short : String, short.toList.length < 3 → name ++ "." ++ d.fileExtension ≠ short := by
    rintro short hshort rfl
    exact absurd hlong (not_le.2 hshort)
  have hcounts : Path.counts (name ++ "." ++ d.fileExtension) = true := by
    simp [Path.counts, hne "" (by decide), hne "." (by decide)]
  exact ⟨hslash, hcounts, (hne ".." (by decide)).symm⟩

theorem typeFile_eq (d : Dialect) (name : String) :
    d.typeFile name = typesDir ++ "/" ++ (name ++ "." ++ d.fileExtension) := by
  simp only [typeFile, String.append_assoc]

/-- The file of a type has a name and lies in the directory of types. -/
theorem joinsNames_typeFile (d : Dialect) {name : String} (h : IsPlainName name) :
    Path.JoinsNames (d.typeFile name) := by
  rw [typeFile_eq]
  exact Path.joinsNames_of_isName_inside (by decide) (d.isName_typeFile h)

end Dialect

theorem Resolver.Sound.isPlainName {r : Resolver} {types : Registry} (h : r.Sound types)
    {name : String} (hname : name ∈ types.names) : IsPlainName name := by
  rw [Registry.names_eq_heads] at hname
  obtain ⟨t, ht, rfl⟩ := List.mem_map.1 hname
  obtain ⟨base, n, -, heq⟩ := h.candidate t ht
  rw [heq]
  exact isPlainName_numbered_typeName r.dialect base n

namespace Client

theorem rootFile_notMem_pages (d : Dialect) : d.rootFile ∉ (pages d).map Prod.fst := by
  cases d <;> decide

theorem nodup_pages (d : Dialect) : ((pages d).map Prod.fst).Nodup := by
  cases d <;> decide

/-- Only a type with the name of the file that makes a directory a package could have the path of a
page. -/
theorem eq_init_of_mem_pages {d : Dialect} {name : String}
    (h : d.typeFile name ∈ (pages d).map Prod.fst) : name = "__init__" := by
  cases d with
  | python =>
    simp only [pages, List.map_cons, List.map_nil, List.mem_cons, List.not_mem_nil, or_false] at h
    rcases h with h | h | h
    · exact absurd h (Dialect.typeFile_ne _ _ (by decide))
    · exact Dialect.typeFile_injective .python h
    · exact absurd h (Dialect.typeFile_ne _ _ (by decide))
  | kotlin =>
    simp only [pages, List.map_cons, List.map_nil, List.mem_singleton] at h
    exact absurd h (Dialect.typeFile_ne _ _ (by decide))

variable {r : Resolver} {types : Registry}

/-- No two files of a client have the same path. -/
theorem nodup_paths (hs : r.Sound types) :
    (r.dialect.rootFile :: types.map (fun t => r.dialect.typeFile t.name) ++
      (pages r.dialect).map Prod.fst).Nodup := by
  have hfiles : types.map (fun t => r.dialect.typeFile t.name) =
      types.names.map r.dialect.typeFile := by
    simp [Registry.names]
  rw [hfiles, List.cons_append, List.nodup_cons, List.nodup_append]
  refine ⟨?_, hs.nodup.map r.dialect.typeFile_injective, nodup_pages r.dialect, ?_⟩
  · intro h
    rcases List.mem_append.1 h with h | h
    · obtain ⟨name, -, hname⟩ := List.mem_map.1 h
      exact r.dialect.typeFile_ne_rootFile name hname
    · exact rootFile_notMem_pages r.dialect h
  · rintro path htype page hpage rfl
    obtain ⟨name, hname, rfl⟩ := List.mem_map.1 htype
    rw [Registry.names_eq_heads] at hname
    obtain ⟨t, ht, rfl⟩ := List.mem_map.1 hname
    obtain ⟨base, n, hbase, heq⟩ := hs.candidate t ht
    refine StartsPlain.ne_init ?_ (eq_init_of_mem_pages hpage)
    rw [heq]
    exact (startsGuarded_numbered_typeName hbase n).startsPlain

/-- The paths of a client's files are names with slashes between them. -/
theorem joinsNames_of_mem_paths (hs : r.Sound types) {path : String}
    (h : path ∈ r.dialect.rootFile :: types.map (fun t => r.dialect.typeFile t.name) ++
      (pages r.dialect).map Prod.fst) : Path.JoinsNames path := by
  rcases List.mem_append.1 h with h | h
  · rcases List.mem_cons.1 h with rfl | h
    · cases r.dialect <;> exact Path.joinsNames_of_isName (by decide)
    · obtain ⟨t, ht, rfl⟩ := List.mem_map.1 h
      exact r.dialect.joinsNames_typeFile (hs.isPlainName (List.mem_map_of_mem ht))
  · have hinit : "schemas/__init__.py" = "schemas" ++ "/" ++ "__init__.py" := by decide
    cases hdialect : r.dialect <;> rw [hdialect] at h <;>
      simp only [pages, List.map_cons, List.map_nil, List.mem_cons, List.not_mem_nil, or_false] at h
    · rcases h with rfl | rfl | rfl
      · exact Path.joinsNames_of_isName (by decide)
      · rw [hinit]
        exact Path.joinsNames_of_isName_inside (by decide) (by decide)
      · exact Path.joinsNames_of_isName (by decide)
    · subst h
      exact Path.joinsNames_of_isName (by decide)

end Client

end ApiClient
