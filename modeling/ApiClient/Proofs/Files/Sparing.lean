import ApiClient.Proofs.Files.Locating
import Mathlib

/-!
# What a change spares

A change of a disk spares what lies outside an area when nothing there is lost and nothing but
directories is new there (`Spares`). The files outside the area are then the same (`Spares.file_iff`),
and paths that lead there without crossing the area lead to the same places (`Spares.locate`).
-/

namespace ApiClient.Disk

variable {d d' d'' : Disk} {place top : Place} {area area' : Place → Prop}

/-- Outside an area nothing is lost, and nothing but directories is new. -/
structure Spares (area : Place → Prop) (d d' : Disk) : Prop where
  workingDir_eq : d'.workingDir = d.workingDir
  outside : ∀ q, ¬ area q →
    d'.find? q = d.find? q ∨ d.find? q = none ∧ d'.find? q = some .directory

/-- No place. -/
def nowhere : Place → Prop :=
  fun _ => False

/-- The places of the tree with this top. -/
def treeAt (top : Place) : Place → Prop :=
  fun q => top <+: q

/-- The places of the tree below its top. -/
def treeBelow (top : Place) : Place → Prop :=
  fun q => top <+: q ∧ q ≠ top

namespace Spares

theorem refl (area : Place → Prop) (d : Disk) : Spares area d d :=
  ⟨rfl, fun _ _ => Or.inl rfl⟩

theorem mono (h : Spares area d d') (hsub : ∀ q, area q → area' q) : Spares area' d d' :=
  ⟨h.workingDir_eq, fun q hq => h.outside q fun harea => hq (hsub q harea)⟩

theorem trans (h : Spares area d d') (h' : Spares area d' d'') : Spares area d d'' := by
  refine ⟨h'.workingDir_eq.trans h.workingDir_eq, fun q hq => ?_⟩
  rcases h.outside q hq with heq | ⟨hnone, hdir⟩
  · rw [← heq]
    exact h'.outside q hq
  · refine Or.inr ⟨hnone, ?_⟩
    rcases h'.outside q hq with heq | ⟨hnone', -⟩
    · rw [heq, hdir]
    · rw [hdir] at hnone'
      cases hnone'

theorem of_nowhere (h : Spares nowhere d d') (area : Place → Prop) : Spares area d d' :=
  h.mono fun _ hq => hq.elim

theorem find?_directory (h : Spares area d d') {q : Place} (hq : ¬ area q)
    (hdir : d.find? q = some .directory) : d'.find? q = some .directory := by
  rcases h.outside q hq with heq | ⟨hnone, -⟩
  · rw [heq, hdir]
  · rw [hdir] at hnone
    cases hnone

theorem file_iff (h : Spares area d d') {q : Place} (hq : ¬ area q) (text : String) :
    d'.find? q = some (.file text) ↔ d.find? q = some (.file text) := by
  rcases h.outside q hq with heq | ⟨hnone, hdir⟩
  · rw [heq]
  · simp [hnone, hdir]

theorem placeOf (h : Spares area d d') (p : Path) : d'.placeOf p = d.placeOf p := by
  rw [Disk.placeOf, Disk.placeOf, base, base, h.workingDir_eq]

/-- A path leads to the same place when there is no directory of the area on the way. -/
theorem locate (h : Spares area d d') {p : Path} (hdown : p.GoesDown) (hlocate : d.locate p = .ok place)
    (hway : ∀ q, q <+: place → q ≠ place → ¬ area q) : d'.locate p = .ok place :=
  locate_of_imp hdown h.workingDir_eq hlocate fun q hpre hne =>
    h.find?_directory (hway q hpre hne)

end Spares

/-- Two disks have the same files. -/
def SameFiles (d d' : Disk) : Prop :=
  ∀ place text, d'.find? place = some (.file text) ↔ d.find? place = some (.file text)

theorem SameFiles.refl (d : Disk) : SameFiles d d :=
  fun _ _ => Iff.rfl

theorem Spares.sameFiles (h : Spares nowhere d d') : SameFiles d d' :=
  fun _ text => h.file_iff id text

/-! ## Changes -/

theorem spares_put_directory (hfree : d.find? place = none) :
    Spares nowhere d (d.put place .directory) := by
  refine ⟨rfl, fun q _ => ?_⟩
  by_cases hq : q = place
  · subst hq
    refine Or.inr ⟨hfree, find?_put_self ?_ d _⟩
    rintro rfl
    rw [find?_root] at hfree
    cases hfree
  · exact Or.inl (find?_put_of_ne hq d _)

theorem spares_put (d : Disk) (place : Place) (item : Item) :
    Spares (· = place) d (d.put place item) :=
  ⟨rfl, fun _ hq => Or.inl (find?_put_of_ne hq d item)⟩

theorem spares_prune (hne : top ≠ []) : Spares (treeAt top) d (d.prune top) :=
  ⟨rfl, fun q hq => Or.inl ((find?_prune hne d q).trans (if_neg hq))⟩

theorem find?_prune_self (hne : top ≠ []) (d : Disk) : (d.prune top).find? top = none := by
  rw [find?_prune hne, if_pos (List.prefix_refl top)]

/-- A tree that is taken away, with its directory made again, leaves what is outside of it. -/
theorem spares_remade (hne : top ≠ []) (d : Disk) :
    Spares (treeAt top) d ((d.prune top).put top .directory) :=
  (spares_prune hne).trans ((spares_put_directory (find?_prune_self hne d)).of_nowhere _)

theorem spares_clear (d : Disk) (top : Place) : Spares (treeBelow top) d (d.clear top) :=
  ⟨rfl, fun q hq => Or.inl ((find?_clear d top q).trans (if_neg (mt isBelow_iff.1 hq)))⟩

theorem spares_graft (d : Disk) (top : Place) (items : List (Place × Item)) :
    Spares (treeAt top) d (d.graft top items) := by
  refine ⟨?_, fun q hq => Or.inl (find?_graft_of_notMem (fun e _ => ?_) d)⟩
  · induction items with
    | nil => rfl
    | cons e rest ih => exact ih
  · rintro rfl
    exact hq (List.prefix_append top e.1)

theorem not_treeAt_of_isPrefix {q : Place} (hpre : q <+: top) (hne : q ≠ top) : ¬ treeAt top q :=
  fun h => hne (hpre.eq_of_length (le_antisymm hpre.length_le h.length_le))

end ApiClient.Disk
