import ApiClient.Proofs.Files.Actions
import Mathlib

/-!
# Files that are written

Writing a file that succeeds puts its text in the place of the path and leaves all other files alone
(`file_write_iff`). So files that are written below a directory, no two under the same path, are there
afterwards, beside the files that were in other places (`file_writeAll_iff`).
-/

namespace ApiClient.Disk

variable {d d' : Disk} {p top : Path} {q : Place} {text text' : String}
  {files : List (String × String)}

/-- The place below a directory that the path of a file leads to. -/
def placeIn (top : Place) (path : String) : Place :=
  top ++ (Path.ofString path).parts

theorem file_write_self (hdown : p.GoesDown) (hparts : p.parts ≠ [])
    (h : (write p text).run.run d = (.ok (), d')) :
    d'.find? (d.placeOf p) = some (.file text) := by
  have hmade := harmless_makeDirectories p.parent d
  rw [run_write] at h
  rcases hrun : (makeDirectories p.parent).run.run d with ⟨_ | _, d₁⟩
  · rw [hrun] at h
    cases h
  · rw [hrun] at h hmade
    dsimp only at h
    split at h
    · cases h
    · rename_i place hlocate
      split at h
      · cases h
      · obtain rfl := (Prod.mk.inj h).2
        obtain ⟨-, -, rfl⟩ := (locate_eq_ok_iff hdown).1 hlocate
        rw [← hmade.placeOf]
        exact find?_put_self (by simp [placeOf, hparts]) d₁ _

/-- After a file has been written, its text is in its place, and the other files are as before. -/
theorem file_write_iff (hdown : p.GoesDown) (hparts : p.parts ≠ [])
    (h : (write p text).run.run d = (.ok (), d')) :
    d'.find? q = some (.file text') ↔
      if q = d.placeOf p then text = text' else d.find? q = some (.file text') := by
  split
  · rename_i hq
    rw [hq, file_write_self hdown hparts h, Option.some_inj, Item.file.injEq]
  · rename_i hq
    have hspared := spares_write hdown text d
    rw [h] at hspared
    exact hspared.file_iff hq text'

section Below

variable {path content : String} (hdown : top.GoesDown) (hinside : (Path.ofString path).LeadsInside)
  (h : (write (top.append (.ofString path)) content).run.run d = (.ok (), d'))

include hdown hinside h

/-- After a file has been written below a directory, its text is in the place of its path there. -/
theorem file_write_below_iff : d'.find? q = some (.file text) ↔
    if q = placeIn (d.placeOf top) path then content = text else d.find? q = some (.file text) := by
  have hplace : d.placeOf (top.append (.ofString path)) = placeIn (d.placeOf top) path :=
    placeOf_append hinside d
  have hparts : (top.append (.ofString path)).parts ≠ [] := by
    rw [Path.append, if_pos hinside.root_eq]
    simp [hinside.parts_ne_nil]
  exact hplace ▸ file_write_iff (goesDown_append hinside hdown) hparts h

theorem placeOf_write_below : d'.placeOf top = d.placeOf top := by
  have hspared := spares_write (goesDown_append hinside hdown) content d
  rw [h] at hspared
  exact hspared.placeOf top

end Below

/-- After files have been written below a directory, they are in their places, and the other files are as
before. -/
theorem file_writeAll_iff (hdown : top.GoesDown) : ∀ {files : List (String × String)} {d d' : Disk},
    (∀ e ∈ files, (Path.ofString e.1).LeadsInside) →
    (files.map fun e => (Path.ofString e.1).parts).Nodup →
    (writeAll top files).run.run d = (.ok (), d') →
      (d'.find? q = some (.file text) ↔
        (∃ e ∈ files, placeIn (d.placeOf top) e.1 = q ∧ e.2 = text) ∨
          (∀ e ∈ files, placeIn (d.placeOf top) e.1 ≠ q) ∧ d.find? q = some (.file text))
  | [], d, d', _, _, h => by
    obtain rfl := (Prod.mk.inj h).2
    simp
  | (path, content) :: rest, d, d', hfiles, hnodup, h => by
    obtain ⟨hinside, hmore⟩ := List.forall_mem_cons.1 hfiles
    obtain ⟨hnew, hrest⟩ := List.nodup_cons.1 hnodup
    rw [writeAll, run_bind] at h
    rcases hrun : (write (top.append (.ofString path)) content).run.run d with ⟨_ | _, d₁⟩
    · rw [hrun] at h
      cases h
    rw [hrun] at h
    rw [file_writeAll_iff hdown hmore hrest h, placeOf_write_below hdown hinside hrun,
      file_write_below_iff hdown hinside hrun, List.exists_mem_cons_iff, List.forall_mem_cons]
    by_cases hq : q = placeIn (d.placeOf top) path
    · -- no two files have the same path, so none of the others is written over the first
      have hothers : ∀ e ∈ rest, placeIn (d.placeOf top) e.1 ≠ q := by
        rintro e he heq
        exact hnew (List.mem_map.2 ⟨e, he, List.append_cancel_left (heq.trans hq)⟩)
      have hnone : ¬ ∃ e ∈ rest, placeIn (d.placeOf top) e.1 = q ∧ e.2 = text := by
        rintro ⟨e, he, heq, -⟩
        exact hothers e he heq
      rw [if_pos hq]
      constructor
      · rintro (hold | ⟨-, htext⟩)
        · exact absurd hold hnone
        · exact Or.inl (Or.inl ⟨hq.symm, htext⟩)
      · rintro ((⟨-, htext⟩ | hold) | ⟨⟨hne, -⟩, -⟩)
        · exact Or.inr ⟨hothers, htext⟩
        · exact absurd hold hnone
        · exact absurd hq.symm hne
    · simp [hq, Ne.symm hq]

end ApiClient.Disk
