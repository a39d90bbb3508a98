import ApiClient.Proofs.Files.Path
import ApiClient.Proofs.Files.Place
import Mathlib

/-!
# Where paths lead

A path without steps up leads from its base down its names. It leads there when the names fit into the
limits of a disk and there are directories on the way (`locate_eq_ok_iff`), so what happens to a disk
elsewhere does not matter, and its parent leads to the directory above (`locate_parent`).
-/

namespace ApiClient.Disk

variable {d d' : Disk} {place : Place} {names : List String} {p : Path}

/-- On the way from a place by names are directories. -/
def Opens (d : Disk) (place : Place) (names : List String) : Prop :=
  ∀ front, front <+: names → front ≠ names → d.find? (place ++ front) = some .directory

/-- The place from which a path starts. -/
def base (d : Disk) (p : Path) : Place :=
  if p.root = "" then d.workingDir else []

/-- The place that a path without steps up leads to. -/
def placeOf (d : Disk) (p : Path) : Place :=
  d.base p ++ p.parts

theorem opens_nil (d : Disk) (place : Place) : d.Opens place [] :=
  fun _ hpre hne => absurd (List.prefix_nil.1 hpre) hne

theorem opens_cons {name : String} : d.Opens place (name :: names) ↔
    d.find? place = some .directory ∧ d.Opens (place ++ [name]) names := by
  constructor
  · refine fun h => ⟨?_, fun front hpre hne => ?_⟩
    · simpa using h [] List.nil_prefix (by simp)
    · have hfront := h (name :: front) (List.prefix_cons_inj name |>.2 hpre) (by simpa using hne)
      simpa using hfront
  · rintro ⟨hplace, hrest⟩ front hpre hne
    rcases front with _ | ⟨first, front⟩
    · simpa using hplace
    · obtain ⟨rfl, hbehind⟩ := List.cons_prefix_cons.1 hpre
      rw [List.append_cons]
      exact hrest front hbehind (by simpa using hne)

theorem descend_eq_ok_iff (path : Path) (h : ".." ∉ names) {result : Place} :
    d.descend path place names = .ok result ↔
      (∀ name ∈ names, name.utf8ByteSize ≤ maxNameBytes) ∧ d.Opens place names ∧
        result = place ++ names := by
  induction names generalizing place with
  | nil => simp [descend, opens_nil, eq_comm]
  | cons name rest ih =>
    obtain ⟨hname, hrest⟩ := List.ne_and_not_mem_of_not_mem_cons h
    rw [descend, opens_cons]
    cases hfind : d.find? place with
    | none => simp
    | some item =>
      cases item with
      | file text => simp
      | directory =>
        by_cases hlong : maxNameBytes < name.utf8ByteSize
        · have hnot : ¬ name.utf8ByteSize ≤ maxNameBytes := not_le.2 hlong
          simp [hname.symm, hlong, hnot]
        · have hshort : name.utf8ByteSize ≤ maxNameBytes := not_lt.1 hlong
          simp [hname.symm, hlong, hshort, ih hrest]

/-- A path without steps up leads somewhere if it fits and there are directories on the way. -/
theorem locate_eq_ok_iff (h : p.GoesDown) :
    d.locate p = .ok place ↔ p.Fits ∧ d.Opens (d.base p) p.parts ∧ place = d.placeOf p := by
  have hbase : (if p.root = "" then d.workingDir else []) = d.base p := rfl
  rw [locate, hbase]
  by_cases hnul : (p.parts.any fun name => '\x00' ∈ name.toList) = true
  · rw [if_pos hnul]
    obtain ⟨name, hname, hmem⟩ := List.any_eq_true.1 hnul
    refine iff_of_false (by simp) fun hfits => ?_
    exact hfits.1.notNul name hname (of_decide_eq_true hmem)
  rw [if_neg hnul]
  have hnot : ∀ name ∈ p.parts, '\x00' ∉ name.toList := fun name hname hmem =>
    hnul (List.any_eq_true.2 ⟨name, hname, decide_eq_true hmem⟩)
  by_cases hlong : maxPathBytes < p.text.utf8ByteSize
  · rw [if_pos hlong]
    exact iff_of_false (by simp) fun hfits => absurd hfits.1.text_le (not_le.2 hlong)
  · rw [if_neg hlong, descend_eq_ok_iff p h]
    constructor
    · rintro ⟨hnames, hopens, rfl⟩
      exact ⟨⟨hnot, not_lt.1 hlong, hnames⟩, hopens, rfl⟩
    · rintro ⟨hfits, hopens, rfl⟩
      exact ⟨hfits.name_le, hopens, rfl⟩

/-! ## Other disks and other paths -/

theorem Opens.imp (h : d.Opens place names) (himp : ∀ q, q <+: place ++ names →
    q ≠ place ++ names → d.find? q = some .directory → d'.find? q = some .directory) :
    d'.Opens place names := by
  intro front hpre hne
  refine himp _ ((List.prefix_append_right_inj place).2 hpre) ?_ (h front hpre hne)
  exact fun heq => hne (List.append_cancel_left heq)

/-- A path leads to the same place when the directories on the way stay. -/
theorem locate_of_imp (hdown : p.GoesDown) (hbase : d'.workingDir = d.workingDir)
    (h : d.locate p = .ok place) (himp : ∀ q, q <+: place → q ≠ place →
      d.find? q = some .directory → d'.find? q = some .directory) : d'.locate p = .ok place := by
  have hsame : d'.base p = d.base p := by rw [base, base, hbase]
  obtain ⟨hfits, hopens, rfl⟩ := (locate_eq_ok_iff hdown).1 h
  refine (locate_eq_ok_iff hdown).2 ⟨hfits, ?_, by rw [placeOf, placeOf, hsame]⟩
  rw [hsame]
  exact hopens.imp himp

/-- The parent of a path leads to the directory in which the place of the path lies. -/
theorem locate_parent (hdown : p.GoesDown) (hne : p.parts ≠ []) (h : d.locate p = .ok place) :
    d.locate p.parent = .ok place.dropLast ∧ d.find? place.dropLast = some .directory := by
  obtain ⟨hfits, hopens, rfl⟩ := (locate_eq_ok_iff hdown).1 h
  have hshort : p.parts.dropLast.length < p.parts.length := Path.length_parent_lt hne
  have hplace : (d.placeOf p).dropLast = d.placeOf p.parent := by
    rw [placeOf, List.dropLast_append_of_ne_nil hne]
    rfl
  rw [hplace]
  refine ⟨(locate_eq_ok_iff hdown.parent).2 ⟨hfits.parent, fun front hpre hfront => ?_, rfl⟩, ?_⟩
  · have hlonger : front <+: p.parts := hpre.trans (List.dropLast_prefix p.parts)
    refine hopens front hlonger ?_
    rintro rfl
    exact absurd hpre.length_le (not_le.2 hshort)
  · exact hopens p.parts.dropLast (List.dropLast_prefix p.parts) fun heq => by simp [heq] at hshort

/-- In a tree, a path whose place lies above an item leads there. -/
theorem IsTree.locate (htree : d.IsTree) (hdown : p.GoesDown) (hfits : p.Fits) {rel : Place}
    {item : Item} (h : d.find? (d.placeOf p ++ rel) = some item) :
    d.locate p = .ok (d.placeOf p) := by
  refine (locate_eq_ok_iff hdown).2 ⟨hfits, fun front hpre hne => ?_, rfl⟩
  have habove : d.base p ++ front <+: d.placeOf p ++ rel :=
    ((List.prefix_append_right_inj (d.base p)).2 hpre).trans (List.prefix_append _ rel)
  refine htree.find?_of_isPrefix habove (fun heq => hne (hpre.eq_of_length ?_)) h
  have hlength := congrArg List.length heq
  have hle := hpre.length_le
  simp only [placeOf, List.length_append] at hlength
  omega

theorem isDirectory_eq_true_iff :
    d.isDirectory p = .ok true ↔ ∃ place, d.locate p = .ok place ∧ d.find? place = some .directory := by
  rw [isDirectory, leadsTo, lookup]
  cases hlocate : d.locate p with
  | error e =>
    cases habsent : e.isAbsence <;> simp [habsent]
  | ok place =>
    cases hfind : d.find? place with
    | none => simp [Error.isAbsence, hfind]
    | some item => simp [hfind]

end ApiClient.Disk
