import ApiClient.Command.Run
import ApiClient.Proofs.Client.Files
import ApiClient.Proofs.Files.Actions
import Mathlib

/-!
# Runs that fail

A run that fails leaves the files of a disk as they were, if its output directory has a name and no
steps up (`failed_run_keeps_files`). A run in the working directory itself loses what is in it when it
fails, because that directory stays when its content is taken away, and is in the way of putting the
content back.
-/

namespace ApiClient.Command

open Disk

variable {r : Request} {top : Path} {d d' : Disk} {place : Place} {saved : List (Place × Item)}

namespace Request

/-- The files of an attempt are those of the client of the document that is read, in the settings of the
request. -/
theorem files_attempt (r : Request) (top : Path) (d : Disk) : (r.attempt top d).files =
    match r.readDocument d with
    | .error t => .error t
    | .ok document =>
      match r.settings top document with
      | .error e => .error (.failed { cause := .ofSettings e })
      | .ok settings =>
        (Working.outcome (Client.draft settings (r.templates d) document) {}).1.mapError
          .failed := by
  unfold attempt
  cases r.readDocument d with
  | error t => rfl
  | ok document =>
    dsimp only
    cases r.settings top document <;> rfl

/-- An attempt that gives files has read a document, and they are the client that is made of it. -/
theorem exists_of_attempt {files : Client.Files} (h : (r.attempt top d).files = .ok files) :
    ∃ document settings, r.readDocument d = .ok document ∧ r.settings top document = .ok settings ∧
      (Client.generate settings (r.templates d) document).1 = .ok files := by
  rw [files_attempt] at h
  split at h
  · cases h
  · rename_i document hread
    split at h
    · cases h
    · rename_i settings hsettings
      refine ⟨document, settings, hread, hsettings, ?_⟩
      have hmade : (Client.generate settings (r.templates d) document).1 =
          (Working.outcome (Client.draft settings (r.templates d) document) {}).1 := rfl
      rw [hmade]
      cases hdraft : (Working.outcome (Client.draft settings (r.templates d) document) {}).1 with
      | error e =>
        rw [hdraft] at h
        cases h
      | ok made =>
        rw [hdraft] at h
        exact congrArg Except.ok (Except.ok.inj h)

/-- Writing the files of an attempt spares what is not below the output directory. -/
theorem spares_writeFiles (hdown : top.GoesDown) (r : Request) (d₀ d : Disk) :
    Spares (treeBelow (d.placeOf top)) d (writeFiles top (r.attempt top d₀).files d).2 := by
  unfold writeFiles
  split
  · exact Spares.refl _ d
  · rename_i files hfiles
    obtain ⟨document, settings, -, -, hmade⟩ := exists_of_attempt hfiles
    have hspared := spares_writeAll hdown
      (fun e he => ((Client.joinsNames_of_generate hmade).2 e he).leadsInside) d
    split
    · rename_i hrun
      rwa [hrun] at hspared
    · rename_i hrun
      rwa [hrun] at hspared

/-! ## Putting back -/

section Undo

variable (hdown : top.GoesDown) (hparts : top.parts ≠ []) (hlocate : d.locate top = .ok place)
  (hdir : d.find? place = some .directory) (hsaved : ∀ e ∈ saved, e.1 ≠ [])

include hdown hparts hlocate hdir hsaved in
/-- Undoing a run gives the tree of the output directory the content that was saved, and spares what
is outside it. -/
theorem run_undo : ∃ d', (undo top saved).run.run d = (.ok (), d') ∧ Spares (treeAt place) d d' ∧
    (∀ text, d'.find? place ≠ some (.file text)) ∧
      ∀ rel, rel ≠ [] → d'.find? (place ++ rel) = saved.lookup rel := by
  have hne : place ≠ [] := ne_nil_of_locate hdown hparts hlocate
  have hgone : ∀ rel, (d.prune place).find? (place ++ rel) = none := fun rel => by
    rw [find?_prune hne, if_pos (List.prefix_append place rel)]
  unfold undo
  split
  · rename_i hempty
    subst hempty
    have hmodify := run_modify (removeTree top) d
    rw [removeTree_eq_prune hdown hparts hlocate hdir] at hmodify
    exact ⟨_, hmodify, spares_prune hne, by simp [find?_prune_self hne], fun rel _ => hgone rel⟩
  · refine ⟨_, run_restore hdown hparts hlocate hdir saved, ?_, ?_, fun rel hrel => ?_⟩
    · exact (spares_remade hne d).trans (spares_graft _ place saved)
    · have hkeys : ∀ e ∈ saved, place ≠ place ++ e.1 := fun e he => by simpa using hsaved e he
      simp [find?_graft_of_notMem hkeys, find?_put_self hne]
    · have hother : place ++ rel ≠ place := by simpa using hrel
      rw [find?_graft hrel, find?_put_of_ne hother, hgone, Option.or_none]

end Undo

/-! ## Emptying the output directory -/

/-- The disk `d'` is `d` with the output directory emptied, which lies in `place`; `saved` is what was
in there. -/
structure Emptied (top : Path) (place : Place) (saved : List (Place × Item)) (d d' : Disk) : Prop where
  spared : Spares (treeAt place) d d'
  located : d'.locate top = .ok place
  directory : d'.find? place = some .directory
  keys : ∀ e ∈ saved, e.1 ≠ []
  noFile : ∀ text, d.find? place ≠ some (.file text)
  content : ∀ rel, rel ≠ [] → saved.lookup rel = d.find? (place ++ rel)

/-- An output directory that is there is emptied, and its content is saved. -/
theorem emptied_of_isDirectory (hdown : top.GoesDown) (hparts : top.parts ≠ [])
    (h : d.isDirectory top = .ok true) : ∃ place d', Request.saved top d = .ok (d.below place) ∧
      (makeEmpty top).run.run d = (.ok (), d') ∧ Emptied top place (d.below place) d d' := by
  obtain ⟨place, hlocate, hdir⟩ := isDirectory_eq_true_iff.1 h
  have hsaved : Request.saved top d = .ok (d.below place) := by
    simp [Request.saved, h, contents, hlocate]
  have hne : place ≠ [] := ne_nil_of_locate hdown hparts hlocate
  refine ⟨place, _, hsaved, run_makeEmpty hdown hparts hlocate hdir, ?_⟩
  exact {
    spared := spares_remade hne d
    located := locate_remade hdown hparts hlocate
    directory := find?_put_self hne _ _
    keys := fun _ => ne_nil_of_mem_below
    noFile := by simp [hdir]
    content := fun _ hrel => lookup_below hrel d place }

/-- An output directory that was not there had no content. -/
theorem emptied_of_makeDirectories (htree : d.IsTree) (hdown : top.GoesDown)
    (h : d.isDirectory top ≠ .ok true) (hrun : (makeDirectories top).run.run d = (.ok (), d')) :
    ∃ place, Emptied top place [] d d' := by
  have hmade := harmless_makeDirectories top d
  rw [hrun] at hmade
  obtain ⟨place, hlocate, hdir⟩ := isDirectory_eq_true_iff.1 (makes_makeDirectories hdown d d' hrun)
  have hnothing : ∀ rel, rel ≠ [] → d.find? (place ++ rel) = none := by
    intro rel hrel
    by_contra hsome
    obtain ⟨item, hitem⟩ := Option.ne_none_iff_exists'.1 hsome
    obtain ⟨hfits, -, rfl⟩ := (locate_eq_ok_iff hdown).1 hlocate
    rw [hmade.placeOf] at hitem
    have habove := htree.find?_of_isPrefix (List.prefix_append _ rel) (by simpa using hrel) hitem
    exact h (isDirectory_eq_true_iff.2 ⟨_, htree.locate hdown hfits hitem, habove⟩)
  refine ⟨place, hmade.of_nowhere _, hlocate, hdir, by simp, fun text hfile => ?_,
    fun rel hrel => (hnothing rel hrel).symm⟩
  rw [← hmade.file_iff id, hdir] at hfile
  cases hfile

theorem saved_of_not_isDirectory (h : d.isDirectory top ≠ .ok true)
    (hsaved : Request.saved top d = .ok saved) : saved = [] := by
  unfold Request.saved at hsaved
  split at hsaved
  · exact absurd ‹_› h
  · exact (Except.ok.inj hsaved).symm
  · cases hsaved

/-! ## Runs -/

/-- A run that fails in an output directory that was emptied leaves the files as they were before. -/
theorem sameFiles_fill (hdown : top.GoesDown) (hparts : top.parts ≠ [])
    (h : Emptied top place saved d d') (hfail : (r.fill top saved d').1.exit ≠ .code 0) :
    d.SameFiles (r.fill top saved d').2 := by
  have hplace : d'.placeOf top = place := ((locate_eq_ok_iff hdown).1 h.located).2.2.symm
  have hwritten := spares_writeFiles hdown r d' d'
  rw [hplace] at hwritten
  unfold fill at hfail ⊢
  dsimp only at hfail ⊢
  split at hfail
  · exact absurd rfl hfail
  · rename_i trouble d₂ hfiles
    rw [hfiles] at hwritten
    have hlocate₂ : d₂.locate top = .ok place :=
      hwritten.locate hdown h.located fun q hpre hne hq => not_treeAt_of_isPrefix hpre hne hq.1
    have hdir₂ : d₂.find? place = some .directory :=
      hwritten.find?_directory (fun hq => hq.2 rfl) h.directory
    obtain ⟨d₃, hundo, hspared₃, htop₃, hback⟩ := run_undo hdown hparts hlocate₂ hdir₂ h.keys
    rw [hundo]
    have hall : Spares (treeAt place) d d₃ :=
      (h.spared.trans (hwritten.mono fun _ hq => hq.1)).trans hspared₃
    intro q text
    by_cases hq : treeAt place q
    · obtain ⟨rel, rfl⟩ := hq
      rcases eq_or_ne rel [] with rfl | hrel
      · rw [List.append_nil]
        exact iff_of_false (htop₃ text) (h.noFile text)
      · dsimp only
        rw [hback rel hrel, h.content rel hrel]
    · exact hall.file_iff hq text

theorem sameFiles_runIn (htree : d.IsTree) (hdown : top.GoesDown) (hparts : top.parts ≠ [])
    (hfail : (r.runIn top d).1.exit ≠ .code 0) : d.SameFiles (r.runIn top d).2 := by
  unfold runIn at hfail ⊢
  by_cases hdirectory : d.isDirectory top = .ok true
  · obtain ⟨place, d₁, hsaved, hrun, hemptied⟩ := emptied_of_isDirectory hdown hparts hdirectory
    rw [hsaved, hrun] at hfail ⊢
    exact sameFiles_fill hdown hparts hemptied hfail
  · cases hsaved : Request.saved top d with
    | error e => exact SameFiles.refl d
    | ok items =>
      obtain rfl := saved_of_not_isDirectory hdirectory hsaved
      rw [hsaved, run_makeEmpty_of_not_isDirectory hdirectory] at hfail
      rw [run_makeEmpty_of_not_isDirectory hdirectory]
      rcases hrun : (makeDirectories top).run.run d with ⟨_ | _, d₁⟩
      · have hmade := harmless_makeDirectories top d
        rw [hrun] at hmade
        exact hmade.sameFiles
      · rw [hrun] at hfail
        obtain ⟨place, hemptied⟩ := emptied_of_makeDirectories htree hdown hdirectory hrun
        exact sameFiles_fill hdown hparts hemptied hfail

end Request

/-- A run that fails leaves the files as they are, if its output directory has a name and no steps up:
no text of a file changes, no file is lost, and none is new. A run that is stopped by its arguments is
one that fails. -/
theorem failed_run_keeps_files {arguments : List String} (htree : d.IsTree)
    (houtput : ∀ r top, Request.ofArguments arguments = .ok r → r.output = some top →
      top.parts ≠ [] ∧ ".." ∉ top.parts)
    (hfail : ∀ report, (run arguments d).1 = .ok report → report.exit ≠ .code 0) :
    ∀ place text, (run arguments d).2.find? place = some (.file text) ↔
      d.find? place = some (.file text) := by
  unfold run at hfail ⊢
  cases hrequest : Request.ofArguments arguments with
  | error stop => exact SameFiles.refl d
  | ok r =>
    simp only [hrequest] at hfail
    have hexit := hfail _ rfl
    unfold Request.run at hexit ⊢
    dsimp only
    split at hexit
    · exact SameFiles.refl d
    · exact SameFiles.refl d
    · exact SameFiles.refl d
    · rename_i top _ htop
      obtain ⟨hparts, hdown⟩ := houtput r top hrequest htop
      exact Request.sameFiles_runIn htree hdown hparts hexit

/-! ## Runs on a desk -/

/-- A document with notes beside it, in the working directory and in a directory there. -/
def desk : Disk where
  items := [(["work"], .directory), (["work", "spec.json"], .file "\x7b\x7d"),
    (["work", "notes.txt"], .file "keep"), (["work", "out"], .directory),
    (["work", "out", "spec.json"], .file "\x7b\x7d"), (["work", "out", "notes.txt"], .file "keep")]
  workingDir := ["work"]

theorem isTree_desk : desk.IsTree :=
  isTree_of_items (by decide)

/-- Whether a run ended otherwise than by success. -/
def Exit.fails : Exit → Bool
  | .code 0 => false
  | _ => true

theorem exit_ne_of_all {arguments : List String}
    (h : (run arguments d).1.toOption.all (fun report => report.exit.fails) = true) :
    ∀ report, (run arguments d).1 = .ok report → report.exit ≠ .code 0 := by
  intro report hreport hexit
  rw [hreport] at h
  simp [Except.toOption, hexit, Exit.fails] at h

/-- A run whose document lies in the output directory fails, and everything is as before. -/
theorem failed_run_keeps_files_desk :
    let after := run ["out/spec.json", "-o", "out"] desk
    (∀ report, after.1 = .ok report → report.exit ≠ .code 0) ∧
      ∀ place text, after.2.find? place = some (.file text) ↔
        desk.find? place = some (.file text) := by
  have hfail : ∀ report, (run ["out/spec.json", "-o", "out"] desk).1 = .ok report →
      report.exit ≠ .code 0 := exit_ne_of_all (by decide +kernel)
  refine ⟨hfail, failed_run_keeps_files isTree_desk (fun r top hrequest htop => ?_) hfail⟩
  have hknown : Request.ofArguments ["out/spec.json", "-o", "out"] =
      .ok ⟨.ofString "out/spec.json", some (.ofString "out"), none, some .python, none, false⟩ := rfl
  obtain rfl := Except.ok.inj (hknown.symm.trans hrequest)
  obtain rfl := Option.some.inj htop
  decide

/-- A run in the working directory takes away the document that it needs, and the notes are gone. -/
theorem failed_run_loses_files_in_place :
    let after := run ["spec.json", "-o", "."] desk
    desk.IsTree ∧ (∀ report, after.1 = .ok report → report.exit ≠ .code 0) ∧
      desk.find? ["work", "notes.txt"] = some (.file "keep") ∧
      after.2.find? ["work", "notes.txt"] = none :=
  ⟨isTree_desk, exit_ne_of_all (by decide +kernel), by decide, by decide +kernel⟩

end ApiClient.Command
