import ApiClient.Proofs.Command.Failure
import ApiClient.Proofs.Dialect.RootTemplate
import ApiClient.Proofs.Files.Writing
import ApiClient.Proofs.Result
import Mathlib

/-!
# Runs that succeed

A run that succeeds replaces the content of its output directory by the client and changes no file
elsewhere, if the path of the directory has no steps up (`successful_run_replaces`). The directory may
have been there before or not, it may be the working directory or the root, and the document or the
templates may lie in it or above it.
-/

namespace ApiClient.Command

open Disk

variable {r : Request} {top : Path} {d d' : Disk} {place : Place} {saved : List (Place × Item)}
  {files : Client.Files}

/-- A trouble is never a success. -/
theorem Trouble.exit_ne (t : Trouble) : t.exit ≠ .code 0 := by
  unfold Trouble.exit
  split <;> try simp
  split <;> simp

namespace Request

/-! ## Emptying the output directory -/

/-- The disk `d'` is `d` without the content of the output directory, which lies in `place`. -/
structure Cleared (top : Path) (place : Place) (d d' : Disk) : Prop where
  spared : Spares (treeBelow place) d d'
  located : d'.locate top = .ok place
  directory : d'.find? place = some .directory
  noFile : ∀ q, treeBelow place q → ∀ text, d'.find? q ≠ some (.file text)

theorem Cleared.placeOf (h : Cleared top place d d') (hdown : top.GoesDown) :
    d'.placeOf top = place :=
  ((locate_eq_ok_iff hdown).1 h.located).2.2.symm

theorem cleared_clear (hdown : top.GoesDown) (hlocate : d.locate top = .ok place)
    (hdir : d.find? place = some .directory) : Cleared top place d (d.clear place) where
  spared := spares_clear d place
  located := (spares_clear d place).locate hdown hlocate fun q hpre hne hq =>
    not_treeAt_of_isPrefix hpre hne hq.1
  directory := (spares_clear d place).find?_directory (fun hq => hq.2 rfl) hdir
  noFile q hq text := by
    rw [find?_clear, if_pos (isBelow_iff.2 hq)]
    simp

theorem cleared_prune (hdown : top.GoesDown) (hparts : top.parts ≠ [])
    (hlocate : d.locate top = .ok place) (hdir : d.find? place = some .directory) :
    Cleared top place d ((d.prune place).put place .directory) := by
  have hne : place ≠ [] := ne_nil_of_locate hdown hparts hlocate
  have hspared : Spares (treeBelow place) d ((d.prune place).put place .directory) := by
    refine ⟨rfl, fun q hq => Or.inl ?_⟩
    rcases eq_or_ne q place with rfl | hother
    · rw [find?_put_self hne, hdir]
    · rw [find?_put_of_ne hother, find?_prune hne, if_neg fun hpre => hq ⟨hpre, hother⟩]
  refine ⟨hspared, locate_remade hdown hparts hlocate, find?_put_self hne _ _, fun q hq text => ?_⟩
  rw [find?_put_of_ne hq.2, find?_prune hne, if_pos hq.1]
  simp

theorem cleared_of_makeDirectories (htree : d.IsTree) (hdown : top.GoesDown)
    (h : d.isDirectory top ≠ .ok true) (hrun : (makeDirectories top).run.run d = (.ok (), d')) :
    ∃ place, Cleared top place d d' := by
  obtain ⟨place, hemptied⟩ := emptied_of_makeDirectories htree hdown h hrun
  have hmade := harmless_makeDirectories top d
  rw [hrun] at hmade
  refine ⟨place, hmade.of_nowhere _, hemptied.located, hemptied.directory, ?_⟩
  rintro q ⟨⟨rel, rfl⟩, hne⟩ text hfile
  have hnothing := hemptied.content rel (by simpa using hne)
  rw [hmade.file_iff id, ← hnothing] at hfile
  cases hfile

/-- Where the output directory has been made empty, nothing is left in it, and nothing else is lost. -/
theorem cleared_of_makeEmpty (htree : d.IsTree) (hdown : top.GoesDown)
    (hrun : (makeEmpty top).run.run d = (.ok (), d')) : ∃ place, Cleared top place d d' := by
  by_cases h : d.isDirectory top = .ok true
  · obtain ⟨place, hlocate, hdir⟩ := isDirectory_eq_true_iff.1 h
    -- a path without parts is the working directory or the root, which stays while it is emptied
    by_cases hparts : top.parts = []
    · rw [run_makeEmpty_of_parts_eq_nil hdown hlocate hdir hparts] at hrun
      obtain rfl := (Prod.mk.inj hrun).2
      exact ⟨place, cleared_clear hdown hlocate hdir⟩
    · rw [run_makeEmpty hdown hparts hlocate hdir] at hrun
      obtain rfl := (Prod.mk.inj hrun).2
      exact ⟨place, cleared_prune hdown hparts hlocate hdir⟩
  · rw [run_makeEmpty_of_not_isDirectory h] at hrun
    exact cleared_of_makeDirectories htree hdown h hrun

/-! ## Writing the client -/

/-- In `d'` the tree of the directory in `place` holds these files and no others, and the files elsewhere
are those of `d`. -/
structure Replaced (place : Place) (files : Client.Files) (d d' : Disk) : Prop where
  directory : d'.find? place = some .directory
  inside : ∀ rel, rel ≠ [] → ∀ text, d'.find? (place ++ rel) = some (.file text) ↔
    ∃ path, (path, text) ∈ files ∧ (Path.ofString path).parts = rel
  outside : ∀ q, ¬ treeBelow place q → ∀ text,
    d'.find? q = some (.file text) ↔ d.find? q = some (.file text)

theorem nodup_parts (hdistinct : Table.Distinct files) (hnames : ∀ e ∈ files, Path.JoinsNames e.1) :
    (files.map fun e => (Path.ofString e.1).parts).Nodup := by
  rw [Table.Distinct, Table.keys, List.Nodup, List.pairwise_map] at hdistinct
  rw [List.Nodup, List.pairwise_map]
  exact hdistinct.imp_of_mem fun he he' hne heq => hne ((hnames _ he).parts_inj (hnames _ he') heq)

theorem replaced_of_writeAll {d₁ : Disk} (hdown : top.GoesDown) (hcleared : Cleared top place d d₁)
    (hdistinct : Table.Distinct files) (hnames : ∀ e ∈ files, Path.JoinsNames e.1)
    (hrun : (writeAll top files).run.run d₁ = (.ok (), d')) : Replaced place files d d' := by
  have hinside : ∀ e ∈ files, (Path.ofString e.1).LeadsInside := fun e he =>
    (hnames e he).leadsInside
  have hplace := hcleared.placeOf hdown
  have hwritten := spares_writeAll hdown hinside d₁
  rw [hrun, hplace] at hwritten
  refine ⟨hwritten.find?_directory (fun hq => hq.2 rfl) hcleared.directory,
    fun rel hrel text => ?_, fun q hq text => ?_⟩
  · have hbelow : treeBelow place (place ++ rel) := ⟨List.prefix_append _ _, by simpa using hrel⟩
    rw [file_writeAll_iff hdown hinside (nodup_parts hdistinct hnames) hrun, hplace]
    constructor
    · rintro (⟨e, he, heq, rfl⟩ | ⟨-, hold⟩)
      · exact ⟨e.1, he, List.append_cancel_left heq⟩
      · exact absurd hold (hcleared.noFile _ hbelow text)
    · rintro ⟨path, hmem, rfl⟩
      exact Or.inl ⟨(path, text), hmem, rfl, rfl⟩
  · exact (hwritten.file_iff hq text).trans (hcleared.spared.file_iff hq text)

/-! ## Runs -/

theorem exit_refusal_ne (t : Trouble) : (refusal t).exit ≠ .code 0 :=
  t.exit_ne

/-- A run that succeeds has made a client and written its files. -/
theorem exists_of_fill (h : (r.fill top saved d).1.exit = .code 0) :
    ∃ files, (r.attempt top d).files = .ok files ∧
      (writeAll top files).run.run d = (.ok (), (r.fill top saved d).2) := by
  unfold fill at h ⊢
  dsimp only at h ⊢
  split at h
  · rename_i made d₁ hwritten
    unfold writeFiles at hwritten
    split at hwritten
    · cases hwritten
    · rename_i files hfiles
      split at hwritten
      · rename_i d₂ hrun
        obtain ⟨-, rfl⟩ := Prod.mk.inj hwritten
        exact ⟨files, hfiles, hrun⟩
      · cases hwritten
  · rename_i trouble d₁ hwritten
    exact absurd h (Trouble.exit_ne _)

theorem exists_of_runIn (h : (r.runIn top d).1.exit = .code 0) :
    ∃ saved d₁, (makeEmpty top).run.run d = (.ok (), d₁) ∧
      (r.fill top saved d₁).1.exit = .code 0 ∧ (r.runIn top d).2 = (r.fill top saved d₁).2 := by
  unfold runIn at h ⊢
  split at h
  · exact absurd h (exit_refusal_ne _)
  · rename_i saved hsaved
    split at h
    · exact absurd h (exit_refusal_ne _)
    · rename_i d₁ hrun
      exact ⟨saved, d₁, hrun, h, rfl⟩

theorem exists_of_run (h : (r.run d).1.exit = .code 0) :
    ∃ top, r.output = some top ∧ (r.runIn top d).1.exit = .code 0 ∧ r.run d = r.runIn top d := by
  unfold run at h ⊢
  split at h
  · exact absurd h (exit_refusal_ne _)
  · exact absurd h (exit_refusal_ne _)
  · exact absurd h (exit_refusal_ne _)
  · rename_i top _ htop
    exact ⟨top, htop, h, rfl⟩

/-- A run succeeds when the document is there, its output directory can be made empty, a client can be
made then, and its files can be written. -/
theorem exit_run (htop : r.output = some top) (hfile : d.isFile r.spec = .ok true)
    (hsaved : Request.saved top d = .ok saved) (hempty : (makeEmpty top).run.run d = (.ok (), d'))
    (hfiles : (r.attempt top d').files = .ok files)
    (hwritten : ((writeAll top files).run.run d').1 = .ok ()) : (r.run d).1.exit = .code 0 := by
  have hwrite : writeFiles top (r.attempt top d').files d' =
      (.ok files, ((writeAll top files).run.run d').2) := by
    unfold writeFiles
    rw [hfiles]
    dsimp only
    rcases hrun : (writeAll top files).run.run d' with ⟨result, d₂⟩
    rw [hrun] at hwritten
    obtain rfl : result = .ok () := hwritten
    rfl
  have hrun : r.run d = r.runIn top d := by
    rw [run, hfile, htop]
  have hin : r.runIn top d = r.fill top saved d' := by
    rw [runIn, hsaved]
    dsimp only
    rw [hempty]
  rw [hrun, hin, fill, hwrite]
  rfl

/-- A run that succeeds makes the output directory empty, makes a client of the document that it reads
then, and replaces the content of the directory by the client. -/
theorem replaced_of_runIn (htree : d.IsTree) (hdown : top.GoesDown)
    (h : (r.runIn top d).1.exit = .code 0) :
    ∃ d₁ document settings files place, (makeEmpty top).run.run d = (.ok (), d₁) ∧
      r.readDocument d₁ = .ok document ∧ r.settings top document = .ok settings ∧
      (Client.generate settings (r.templates d₁) document).1 = .ok files ∧
      (r.runIn top d).2.locate top = .ok place ∧ Replaced place files d (r.runIn top d).2 := by
  obtain ⟨saved, d₁, hempty, hfill, hfinal⟩ := exists_of_runIn h
  obtain ⟨files, hfiles, hwritten⟩ := exists_of_fill hfill
  obtain ⟨document, settings, hread, hsettings, hmade⟩ := exists_of_attempt hfiles
  obtain ⟨place, hcleared⟩ := cleared_of_makeEmpty htree hdown hempty
  obtain ⟨hdistinct, hnames⟩ := Client.joinsNames_of_generate hmade
  rw [hfinal]
  have hspared := spares_writeAll hdown (fun e he => (hnames e he).leadsInside) d₁
  rw [hwritten, hcleared.placeOf hdown] at hspared
  exact ⟨d₁, document, settings, files, place, hempty, hread, hsettings, hmade,
    hspared.locate hdown hcleared.located fun q hpre hne hq => not_treeAt_of_isPrefix hpre hne hq.1,
    replaced_of_writeAll hdown hcleared hdistinct hnames hwritten⟩

end Request

theorem run_of_ofArguments {arguments : List String} (h : Request.ofArguments arguments = .ok r)
    (d : Disk) : run arguments d = (.ok (r.run d).1, (r.run d).2) := by
  rw [run, h]

/-- A run that succeeds replaces its output directory, if the path of the directory has no steps up.
Below the directory are afterwards the files of the client that was made of the document, each under its
path with its text, and no others; the paths are distinct texts of names. Outside the directory no file
is new, changed or lost. -/
theorem successful_run_replaces {arguments : List String} {report : Report} (htree : d.IsTree)
    (houtput : ∀ r top, Request.ofArguments arguments = .ok r → r.output = some top →
      ".." ∉ top.parts)
    (hrun : (run arguments d).1 = .ok report) (hexit : report.exit = .code 0) :
    ∃ r top d₁ document settings files place, Request.ofArguments arguments = .ok r ∧
      r.output = some top ∧ (makeEmpty top).run.run d = (.ok (), d₁) ∧
      r.readDocument d₁ = .ok document ∧ r.settings top document = .ok settings ∧
      (Client.generate settings (r.templates d₁) document).1 = .ok files ∧
      Table.Distinct files ∧ (∀ e ∈ files, Path.JoinsNames e.1) ∧
      (run arguments d).2.locate top = .ok place ∧
      Request.Replaced place files d (run arguments d).2 := by
  cases hrequest : Request.ofArguments arguments with
  | error stop =>
    rw [run, hrequest] at hrun
    cases hrun
  | ok r =>
    rw [run_of_ofArguments hrequest] at hrun ⊢
    obtain rfl := Except.ok.inj hrun
    obtain ⟨top, htop, hsuccess, hsame⟩ := Request.exists_of_run hexit
    obtain ⟨d₁, document, settings, files, place, hempty, hread, hsettings, hmade, hlocate,
      hreplaced⟩ := Request.replaced_of_runIn htree (houtput r top hrequest htop) hsuccess
    obtain ⟨hdistinct, hnames⟩ := Client.joinsNames_of_generate hmade
    refine ⟨r, top, d₁, document, settings, files, place, rfl, htop, hempty, hread, hsettings, hmade,
      hdistinct, hnames, ?_⟩
    rw [hsame]
    exact ⟨hlocate, hreplaced⟩

/-! ## A run on a bench -/

theorem renderRoot_eq_match (d : Dialect) (root : Root) : d.renderRoot root =
    match d with
    | .python => Dialect.Python.renderRoot root
    | .kotlin => Dialect.Kotlin.renderRoot root := by
  cases d <;> rfl

/-- A document and a page without text, beside a directory with an old file. -/
def bench : Disk where
  items := [(["work"], .directory),
    (["work", "spec.json"], .file (String.join [
      "\x7b\"openapi\": \"3.0.0\", ",
      "\"info\": \x7b\"title\": \"Bench\", \"version\": \"1\"\x7d, \"paths\": \x7b\x7d\x7d"])),
    (["work", "README.md.j2"], .file ""), (["work", "out"], .directory),
    (["work", "out", "old.txt"], .file "old")]
  workingDir := ["work"]

theorem isTree_bench : bench.IsTree :=
  isTree_of_items (by decide)

/-- A client in Kotlin with the page of the working directory. -/
def benchArguments : List String :=
  ["spec.json", "-o", "out", "-l", "kotlin", "-t", "."]

def benchRequest : Request :=
  ⟨.ofString "spec.json", some (.ofString "out"), none, some .kotlin, some (some (.ofString ".")),
    false⟩

/-- The bench with an empty output directory. -/
def emptyBench : Disk :=
  (bench.prune ["work", "out"]).put ["work", "out"] .directory

/-- Whether there are files that can be written. -/
def writes (top : Path) (d : Disk) (files : Except Trouble Client.Files) : Bool :=
  match files with
  | .ok files => ((writeAll top files).run.run d).1.toOption.isSome
  | .error _ => false

theorem writes_bench :
    writes (.ofString "out") emptyBench (benchRequest.attempt (.ofString "out") emptyBench).files =
      true := by
  rw [Request.files_attempt]
  simp only [Client.draft]
  simp only [Client.rootText, renderRoot_eq_match, Dialect.Kotlin.renderRoot,
    Dialect.Kotlin.rootTemplate_eq]
  decide +kernel

theorem exit_bench : (benchRequest.run bench).1.exit = .code 0 := by
  have hempty : (makeEmpty (.ofString "out")).run.run bench = (.ok (), emptyBench) :=
    run_makeEmpty (by decide) (by decide) rfl rfl
  have hwrites := writes_bench
  cases hfiles : (benchRequest.attempt (.ofString "out") emptyBench).files with
  | error t =>
    rw [hfiles] at hwrites
    cases hwrites
  | ok files =>
    rw [hfiles] at hwrites
    obtain ⟨_, hwritten⟩ := Option.isSome_iff_exists.1 hwrites
    exact Request.exit_run rfl rfl rfl hempty hfiles (ok_of_toOption hwritten)

/-- The old file is gone, and the output directory holds the client. -/
theorem successful_run_replaces_bench :
    bench.find? ["work", "out", "old.txt"] = some (.file "old") ∧
    ∃ report, (run benchArguments bench).1 = .ok report ∧ report.exit = .code 0 ∧
      ∃ place files, (run benchArguments bench).2.locate (.ofString "out") = .ok place ∧
        Request.Replaced place files bench (run benchArguments bench).2 := by
  have hrequest : Request.ofArguments benchArguments = .ok benchRequest := rfl
  have hrun : (run benchArguments bench).1 = .ok (benchRequest.run bench).1 :=
    congrArg Prod.fst (run_of_ofArguments hrequest bench)
  have houtput : ∀ r top, Request.ofArguments benchArguments = .ok r → r.output = some top →
      ".." ∉ top.parts := by
    intro r top hr htop
    obtain rfl := Except.ok.inj (hrequest.symm.trans hr)
    obtain rfl := Option.some.inj htop
    decide
  obtain ⟨r, top, d₁, -, -, files, place, hr, htop, -, -, -, -, -, -, hlocate, hreplaced⟩ :=
    successful_run_replaces isTree_bench houtput hrun exit_bench
  obtain rfl := Except.ok.inj (hrequest.symm.trans hr)
  obtain rfl := Option.some.inj htop
  exact ⟨rfl, _, hrun, exit_bench, place, files, hlocate, hreplaced⟩

end ApiClient.Command
