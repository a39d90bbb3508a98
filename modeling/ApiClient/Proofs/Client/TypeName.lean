import ApiClient.Proofs.Client.Paths
import ApiClient.Proofs.Naming.Canonical
import ApiClient.Proofs.Types.WriteOnce
import Mathlib

/-!
# The names that types are registered under

Whatever a resolver is asked for, it registers types under names that may be written as they stand
and that name a file of their own in the directory of types (`type_names_canonical`). The keywords they
keep clear of are those of the dialect: a Kotlin client may have a type whose name is a keyword of Python
(`type_names_of_other_language`).
-/

namespace ApiClient

open Naming

namespace Dialect

/-- The path of a type's file has two parts, the second of which is the file. -/
theorem ofString_typeFile (d : Dialect) {name : String} (h : IsPlainName name) :
    Path.ofString (d.typeFile name) = ⟨"", [typesDir, name ++ "." ++ d.fileExtension]⟩ := by
  have hjoin : d.typeFile name = Text.join "/" [typesDir, name ++ "." ++ d.fileExtension] :=
    d.typeFile_eq name
  have hnames : ∀ part ∈ [typesDir, name ++ "." ++ d.fileExtension], Path.IsName part := by
    simp only [List.forall_mem_cons, List.not_mem_nil, false_implies, implies_true, and_true]
    exact ⟨by decide, d.isName_typeFile h⟩
  have hparts := Path.parts_ofString_join (List.cons_ne_nil _ _) hnames
  have hroot := Path.root_ofString_join hnames
  rw [← hjoin] at hparts hroot
  rw [← hparts, ← hroot]

theorem utf8ByteSize_typeFile (d : Dialect) (name : String) :
    (name ++ "." ++ d.fileExtension).utf8ByteSize = name.utf8ByteSize + 3 := by
  have hext : ("." ++ d.fileExtension).utf8ByteSize = 3 := by cases d <;> decide
  rw [String.append_assoc, String.utf8ByteSize_append, hext]

/-- A disk takes the file of a type unless its name is longer than the ending leaves room for. -/
theorem fits_typeFile_iff (d : Dialect) {name : String} (h : IsPlainName name) :
    (Path.ofString (d.typeFile name)).Fits ↔ name.utf8ByteSize ≤ Disk.maxNameBytes - 3 := by
  have hmax : Disk.maxNameBytes = 255 := rfl
  have hmaxPath : Disk.maxPathBytes = 4095 := rfl
  have hfile := d.utf8ByteSize_typeFile name
  rw [ofString_typeFile d h]
  refine ⟨fun hfits => ?_, fun hname => ⟨?_, ?_, ?_⟩⟩
  · have hle := hfits.name_le (name ++ "." ++ d.fileExtension) (by simp)
    omega
  · have hnul : '\x00' ∉ name.toList := fun hmem => absurd (h _ hmem) (by decide)
    have hext : '\x00' ∉ ("." ++ d.fileExtension).toList := by cases d <;> decide
    simp only [List.forall_mem_cons, List.not_mem_nil, false_implies, implies_true, and_true]
    refine ⟨by decide, ?_⟩
    rw [String.append_assoc, String.toList_append, List.mem_append]
    exact not_or.2 ⟨hnul, hext⟩
  · have htext : (Path.mk "" [typesDir, name ++ "." ++ d.fileExtension]).text =
        typesDir ++ "/" ++ (name ++ "." ++ d.fileExtension) := rfl
    have hdir : (typesDir ++ "/").utf8ByteSize = 8 := by decide
    rw [htext, String.utf8ByteSize_append, hdir]
    omega
  · have hdir : typesDir.utf8ByteSize ≤ Disk.maxNameBytes := by decide
    simp only [List.forall_mem_cons, List.not_mem_nil, false_implies, implies_true, and_true]
    exact ⟨hdir, by omega⟩

end Dialect

/-- What the name of a type is good for. It may be written as it stands, it begins with a capital or with
an underscore and a digit, and it is the stem of one file in the directory of types, which a disk takes if
the name is not too long, and which is not the file that makes the directory a package. -/
structure IsTypeName (d : Dialect) (name : String) : Prop where
  isIdentifier : d.IsIdentifier name
  startsGuarded : StartsGuarded name
  ne_init : name ≠ "__init__"
  path_eq : Path.ofString (d.typeFile name) =
    ⟨"", [Dialect.typesDir, name ++ "." ++ d.fileExtension]⟩
  fits_iff : (Path.ofString (d.typeFile name)).Fits ↔ name.utf8ByteSize ≤ 252

namespace Resolver

theorem IsCandidate.isTypeName {r : Resolver} {name : String} (h : r.IsCandidate name) :
    IsTypeName r.dialect name := by
  obtain ⟨base, n, hbase, rfl⟩ := h
  have hguarded := startsGuarded_numbered_typeName hbase n
  have hidentifier := isIdentifier_numbered_typeName hbase n
  exact ⟨hidentifier, hguarded, hguarded.startsPlain.ne_init,
    r.dialect.ofString_typeFile hidentifier.plain, r.dialect.fits_typeFile_iff hidentifier.plain⟩

/-- Names of types and scopes are their own names, and whatever a resolver that starts without types is
asked for, every type has a name that may be written as it stands and used as the stem of a file. -/
theorem type_names_canonical (r : Resolver) (journal : Journal) (queries : List Query) :
    (∀ (d : Dialect) (name : String), d.typeName (d.typeName name) = d.typeName name ∧
      d.typeName (className name) = d.typeName name ∧
      d.scopeName (d.scopeName name) = d.scopeName name) ∧
    ∀ t ∈ (r.afterAll ⟨[], journal⟩ queries).types, IsTypeName r.dialect t.name := by
  refine ⟨fun d name => ⟨d.typeName_typeName name, d.typeName_className name,
    d.scopeName_scopeName name⟩, fun t ht => ?_⟩
  have hsound := sound_afterAll r journal queries
  exact (hsound.candidate t.head (List.mem_map_of_mem ht)).isTypeName

/-- Without components, a first object has the name that it is asked for under. -/
theorem mem_names_of_first (d : Dialect) (namespaceName name : String) (h : d.typeName name ≠ "") :
    d.typeName name ∈ (afterAll ⟨none, d, namespaceName⟩ {}
      [.type (.inline (.single "id")) (some name) none .null]).types.names := by
  let r : Resolver := ⟨none, d, namespaceName⟩
  have hsubject : r.subject (.inline (.single "id")) (some name) none .null =
      .ok (.single "id", some (d.typeName name)) := rfl
  have hfree : r.FirstAvailable [] (d.typeName name) (.single "id") 0 :=
    ⟨rfl, fun m hm => absurd hm (Nat.not_lt_zero m)⟩
  obtain ⟨complete, steps, hcomplete, hresolve⟩ := r.exists_resolve_eq (.inline (.single "id"))
  obtain ⟨n, t, hfirst, hfind, -⟩ := registered_of_resolveSteps hcomplete steps hsubject
    (Schema.isRecord_single "id") h {}
  obtain rfl : n = 0 := hfirst.unique hfree
  rw [← hresolve] at hfind
  have hmem := List.mem_map_of_mem (f := NamedType.name) (Registry.mem_of_find hfind)
  rwa [Registry.name_of_find hfind] at hmem

/-- A Kotlin client has a type with the name of a Python keyword, and one with a name that leaves no room
for the ending of a file. -/
theorem type_names_of_other_language :
    let r : Resolver := ⟨none, .kotlin, "acme"⟩
    let long := String.ofList (List.replicate 253 'A')
    let query (name : String) : Query := .type (.inline (.single "id")) (some name) none .null
    ("None" ∈ (r.afterAll {} [query "none"]).types.names ∧ "None" ∈ pythonKeywords) ∧
      long ∈ (r.afterAll {} [query long]).types.names ∧
      ¬(Path.ofString (r.dialect.typeFile long)).Fits := by
  intro r long query
  have hnone : Dialect.kotlin.typeName "none" = "None" := by decide
  have hname : Dialect.kotlin.typeName long = long := by
    rw [Dialect.typeName, className, String.toList_ofList]
    exact congrArg String.ofList (by decide +kernel)
  have hplain : IsPlainName long := by
    refine isPlainName_of_all ?_
    rw [String.toList_ofList]
    decide +kernel
  have hsize : long.utf8ByteSize = 253 := by decide +kernel
  have hfirst := mem_names_of_first .kotlin "acme" "none" (by rw [hnone]; decide)
  have hlong := mem_names_of_first .kotlin "acme" long fun hempty => by
    rw [hname] at hempty
    rw [hempty] at hsize
    cases hsize
  rw [hnone] at hfirst
  rw [hname] at hlong
  refine ⟨⟨hfirst, by decide⟩, hlong, fun hfits => ?_⟩
  have hle := (r.dialect.fits_typeFile_iff hplain).1 hfits
  have hmax : Disk.maxNameBytes = 255 := rfl
  omega

end Resolver

end ApiClient
