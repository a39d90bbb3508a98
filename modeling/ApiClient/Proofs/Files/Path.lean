import ApiClient.Files.Disk
import ApiClient.Proofs.Text.Line
import Mathlib

/-!
# Paths that go down

A path without steps up goes down by its names, and so does its parent, which is within the limits of
a disk if the path is (`Fits.parent`). Names that are joined by slashes are the parts of a path
(`JoinsNames.join_parts`) that leads inside the directory from which it starts (`JoinsNames.leadsInside`).
-/

namespace ApiClient.Path

/-- A path without steps up. -/
def GoesDown (p : Path) : Prop :=
  ".." ∉ p.parts

instance (p : Path) : Decidable p.GoesDown :=
  inferInstanceAs (Decidable (".." ∉ p.parts))

/-- The names and the text of a path are within the limits of a disk. -/
structure Fits (p : Path) : Prop where
  notNul : ∀ name ∈ p.parts, '\x00' ∉ name.toList
  text_le : p.text.utf8ByteSize ≤ Disk.maxPathBytes
  name_le : ∀ name ∈ p.parts, name.utf8ByteSize ≤ Disk.maxNameBytes

theorem utf8ByteSize_join_dropLast_le (sep : String) : ∀ texts : List String,
    (Text.join sep texts.dropLast).utf8ByteSize ≤ (Text.join sep texts).utf8ByteSize
  | [] => le_rfl
  | [s] => by simp [Text.join]
  | [s, t] => by simp [Text.join, String.utf8ByteSize_append]; omega
  | s :: t :: u :: rest => by
    have ih := utf8ByteSize_join_dropLast_le sep (t :: u :: rest)
    rw [List.dropLast_cons_cons] at ih
    rw [List.dropLast_cons_cons, List.dropLast_cons_cons, Text.join_cons_cons, Text.join_cons_cons]
    simp only [String.utf8ByteSize_append]
    omega

theorem GoesDown.parent {p : Path} (h : p.GoesDown) : p.parent.GoesDown :=
  fun hmem => h (List.mem_of_mem_dropLast hmem)

theorem Fits.parent {p : Path} (h : p.Fits) : p.parent.Fits where
  notNul name hname := h.notNul name (List.mem_of_mem_dropLast hname)
  name_le name hname := h.name_le name (List.mem_of_mem_dropLast hname)
  text_le := by
    have hjoin := utf8ByteSize_join_dropLast_le "/" p.parts
    have htext := h.text_le
    have hdot : ".".utf8ByteSize ≤ Disk.maxPathBytes := by decide
    rw [text] at htext ⊢
    split
    · exact hdot
    · rename_i hparent
      rw [if_neg fun hboth => hparent ⟨hboth.1, by simp [Path.parent, hboth.2]⟩] at htext
      simp only [String.utf8ByteSize_append] at htext ⊢
      exact le_trans (Nat.add_le_add_left hjoin _) htext

/-- A path that leads below the place from which it starts. -/
structure LeadsInside (p : Path) : Prop where
  root_eq : p.root = ""
  parts_ne_nil : p.parts ≠ []
  goesDown : p.GoesDown

theorem endsInName_of_goesDown {p : Path} (h : p.GoesDown) (hne : p.parts ≠ []) :
    p.endsInName = true := by
  rw [endsInName, List.getLast?_eq_getLast_of_ne_nil hne]
  refine decide_eq_true fun heq => h ?_
  rw [← heq]
  exact List.getLast_mem hne

/-! ## Names -/

/-- A text that is the name of an item. -/
def IsName (name : String) : Prop :=
  '/' ∉ name.toList ∧ counts name = true ∧ ".." ≠ name

instance (name : String) : Decidable (IsName name) :=
  inferInstanceAs (Decidable (_ ∧ _ ∧ _))

theorem leadingSlashes_of_isName {name : String} (h : IsName name) (rest : List Char) :
    leadingSlashes (name.toList ++ rest) = 0 := by
  obtain ⟨hslash, hcounts, -⟩ := h
  cases hchars : name.toList with
  | nil =>
    have hempty : name = "" := String.toList_eq_nil_iff.1 hchars
    simp [hempty, counts] at hcounts
  | cons c more =>
    rw [hchars] at hslash
    have hc : c ≠ '/' := fun heq => hslash (by simp [heq])
    rw [List.cons_append, leadingSlashes]
    rintro _ ⟨rfl, -⟩
    exact hc rfl

/-- A text of names with slashes between them. -/
def JoinsNames (s : String) : Prop :=
  ∃ names, names ≠ [] ∧ (∀ name ∈ names, IsName name) ∧ Text.join "/" names = s

theorem joinsNames_of_isName {name : String} (h : IsName name) : JoinsNames name :=
  ⟨[name], List.cons_ne_nil _ _, by simpa using h, rfl⟩

theorem joinsNames_of_isName_inside {dir name : String} (hdir : IsName dir) (hname : IsName name) :
    JoinsNames (dir ++ "/" ++ name) :=
  ⟨[dir, name], List.cons_ne_nil _ _, by simp [hdir, hname], rfl⟩

theorem parts_ofString_join {names : List String} (hne : names ≠ [])
    (h : ∀ name ∈ names, IsName name) : (ofString (Text.join "/" names)).parts = names := by
  have hsplit : Text.split '/' (Text.join "/" names) = names := by
    rw [Text.split, Text.splitOnChar_join (by decide) hne fun name hname => (h name hname).1,
      List.map_map]
    simp [Function.comp_def]
  rw [ofString, hsplit]
  exact List.filter_eq_self.2 fun name hname => (h name hname).2.1

theorem root_ofString_join {names : List String} (h : ∀ name ∈ names, IsName name) :
    (ofString (Text.join "/" names)).root = "" := by
  have hslashes : leadingSlashes (Text.join "/" names).toList = 0 := by
    match names with
    | [] => rfl
    | [name] => simpa [Text.join] using leadingSlashes_of_isName (h name List.mem_cons_self) []
    | name :: next :: rest =>
      rw [Text.join_cons_cons, String.append_assoc, String.toList_append]
      exact leadingSlashes_of_isName (h name List.mem_cons_self) _
  rw [ofString, hslashes]
  rfl

/-- Names that are joined come back as the parts of a path. -/
theorem JoinsNames.join_parts {s : String} (h : JoinsNames s) :
    Text.join "/" (ofString s).parts = s := by
  obtain ⟨names, hne, hnames, rfl⟩ := h
  rw [parts_ofString_join hne hnames]

theorem JoinsNames.parts_inj {s t : String} (hs : JoinsNames s) (ht : JoinsNames t)
    (h : (ofString s).parts = (ofString t).parts) : s = t := by
  rw [← hs.join_parts, ← ht.join_parts, h]

theorem JoinsNames.leadsInside {s : String} (h : JoinsNames s) : (ofString s).LeadsInside := by
  obtain ⟨names, hne, hnames, rfl⟩ := h
  have hparts := parts_ofString_join hne hnames
  refine ⟨root_ofString_join hnames, by rwa [hparts], ?_⟩
  rw [GoesDown, hparts]
  exact fun hmem => (hnames _ hmem).2.2 rfl

/-- Texts of names are different paths below one directory if they are different texts. -/
theorem JoinsNames.append_inj {s t : String} (hs : JoinsNames s) (ht : JoinsNames t) {top : Path}
    (h : top.append (ofString s) = top.append (ofString t)) : s = t := by
  rw [append, append, if_pos hs.leadsInside.root_eq, if_pos ht.leadsInside.root_eq] at h
  exact hs.parts_inj ht (List.append_cancel_left (congrArg parts h))

end ApiClient.Path
