import ApiClient.Proofs.Files.Sparing
import Mathlib

/-!
# What actions do to a disk

Making directories loses nothing and adds directories only (`harmless_makeDirectories`), writing files
below a directory spares what is not below it (`spares_writeAll`). Emptying a directory takes away its
tree alone (`run_makeEmpty`), and restoring puts back what was in it (`run_restore`).
-/

namespace ApiClient.Disk

variable {α β : Type} {d d' : Disk} {place : Place} {p : Path}

/-! ## Outcomes -/

theorem run_bind (x : Action α) (f : α → Action β) (d : Disk) :
    (x >>= f).run.run d = match (x.run.run d).1 with
      | .ok a => (f a).run.run (x.run.run d).2
      | .error e => (.error e, (x.run.run d).2) := by
  have hbind : (x >>= f).run.run d = ExceptT.bindCont f (x.run.run d).1 (x.run.run d).2 := rfl
  rw [hbind]
  cases (x.run.run d).1 <;> rfl

theorem run_tryCatch (x : Action α) (handle : Error → Action α) (d : Disk) :
    (tryCatch x handle).run.run d = match (x.run.run d).1 with
      | .ok a => (.ok a, (x.run.run d).2)
      | .error e => (handle e).run.run (x.run.run d).2 := by
  simp only [ExceptT.run, tryCatch, tryCatchThe, MonadExceptOf.tryCatch, ExceptT.tryCatch,
    ExceptT.mk, bind, StateT.bind, StateT.run]
  rcases x d with ⟨_ | a, d₁⟩ <;> rfl

theorem run_get (d : Disk) : (get : Action Disk).run.run d = (.ok d, d) :=
  rfl

theorem run_modify (f : Disk → Disk) (d : Disk) :
    (modify f : Action PUnit).run.run d = (.ok (), f d) :=
  rfl

theorem run_ofExcept (x : Except Error α) (d : Disk) :
    (liftM x : Action α).run.run d = (x, d) := by
  cases x <;> rfl

theorem run_makeDirectory (path : Path) (d : Disk) :
    (makeDirectory path).run.run d = match d.locate path with
      | .error e => (.error e, d)
      | .ok place =>
        match d.find? place with
        | some _ => (.error .alreadyExists, d)
        | none => (.ok (), d.put place .directory) := by
  rw [makeDirectory, run_bind, run_get]
  dsimp only
  rw [run_bind]
  erw [run_ofExcept]
  cases d.locate path with
  | error e => rfl
  | ok place =>
    dsimp only
    cases d.find? place <;> rfl

theorem run_settleFor (path : Path) (e : Error) (d : Disk) :
    (settleFor path e).run.run d = match d.isDirectory path with
      | .error e' => (.error e', d)
      | .ok true => (.ok (), d)
      | .ok false => (.error e, d) := by
  rw [settleFor, run_bind, run_get]
  dsimp only
  rw [run_bind]
  erw [run_ofExcept]
  rcases d.isDirectory path with _ | _ | _ <;> rfl

/-! ## Making directories -/

/-- Every run loses nothing and adds directories only. -/
def Harmless (x : Action α) : Prop :=
  ∀ d, Spares nowhere d (x.run.run d).2

theorem harmless_throw (e : Error) : Harmless (throw e : Action α) :=
  fun d => Spares.refl _ d

theorem Harmless.bind {x : Action α} {f : α → Action β} (hx : Harmless x)
    (hf : ∀ a, Harmless (f a)) : Harmless (x >>= f) := by
  intro d
  rw [run_bind]
  split
  · exact (hx d).trans (hf _ _)
  · exact hx d

theorem Harmless.tryCatch {x : Action α} {handle : Error → Action α} (hx : Harmless x)
    (hhandle : ∀ e, Harmless (handle e)) : Harmless (tryCatch x handle) := by
  intro d
  rw [run_tryCatch]
  split
  · exact hx d
  · exact (hx d).trans (hhandle _ _)

theorem harmless_makeDirectory (path : Path) : Harmless (makeDirectory path) := by
  intro d
  rw [run_makeDirectory]
  split
  · exact Spares.refl _ d
  · split
    · exact Spares.refl _ d
    · exact spares_put_directory ‹_›

theorem harmless_settleFor (path : Path) (e : Error) : Harmless (settleFor path e) := by
  intro d
  rw [run_settleFor]
  split <;> exact Spares.refl _ d

theorem harmless_makeDirectoryOnce (path : Path) : Harmless (makeDirectoryOnce path) := by
  refine (harmless_makeDirectory path).tryCatch fun e => ?_
  split
  · exact harmless_throw _
  · exact harmless_settleFor path _

theorem harmless_makeDirectories (path : Path) : Harmless (makeDirectories path) := by
  rw [makeDirectories]
  refine (harmless_makeDirectory path).tryCatch fun e => ?_
  split
  · split
    · exact harmless_throw _
    · exact (harmless_makeDirectories path.parent).bind fun _ => harmless_makeDirectoryOnce path
  · exact harmless_settleFor path _
termination_by path.parts.length
decreasing_by exact Path.length_parent_lt ‹_›

/-- Where a run succeeds, the path leads to a directory then. -/
def Makes (p : Path) (x : Action Unit) : Prop :=
  ∀ d d', x.run.run d = (.ok (), d') → d'.isDirectory p = .ok true

theorem makes_throw (p : Path) (e : Error) : Makes p (throw e) :=
  fun _ _ h => by cases h

theorem Makes.tryCatch {x : Action Unit} {handle : Error → Action Unit} (hx : Makes p x)
    (hhandle : ∀ e, Makes p (handle e)) : Makes p (tryCatch x handle) := by
  intro d d' h
  rw [run_tryCatch] at h
  split at h
  · rename_i hok
    exact hx d d' (h ▸ Prod.ext hok rfl)
  · exact hhandle _ _ _ h

theorem makes_bind {x : Action α} {f : α → Action Unit} (hf : ∀ a, Makes p (f a)) :
    Makes p (x >>= f) := by
  intro d d' h
  rw [run_bind] at h
  split at h
  · exact hf _ _ _ h
  · cases h

theorem makes_makeDirectory (hdown : p.GoesDown) : Makes p (makeDirectory p) := by
  intro d d' h
  rw [run_makeDirectory] at h
  split at h
  · cases h
  · rename_i place hlocate
    split at h
    · cases h
    · rename_i hfree
      obtain rfl := (Prod.mk.inj h).2
      have hlocate' := (spares_put_directory hfree).locate hdown hlocate fun _ _ _ => id
      refine isDirectory_eq_true_iff.2 ⟨place, hlocate', find?_put_self ?_ d _⟩
      rintro rfl
      rw [find?_root] at hfree
      cases hfree

theorem makes_settleFor (p : Path) (e : Error) : Makes p (settleFor p e) := by
  intro d d' h
  rw [run_settleFor] at h
  split at h
  · cases h
  · obtain rfl := (Prod.mk.inj h).2
    assumption
  · cases h

theorem makes_makeDirectoryOnce (hdown : p.GoesDown) : Makes p (makeDirectoryOnce p) := by
  refine (makes_makeDirectory hdown).tryCatch fun e => ?_
  split
  · exact makes_throw p _
  · exact makes_settleFor p _

theorem makes_makeDirectories (hdown : p.GoesDown) : Makes p (makeDirectories p) := by
  rw [makeDirectories]
  refine (makes_makeDirectory hdown).tryCatch fun e => ?_
  split
  · split
    · exact makes_throw p _
    · exact makes_bind fun _ => makes_makeDirectoryOnce hdown
  · exact makes_settleFor p _

/-! ## Writing files -/

theorem run_write (path : Path) (text : String) (d : Disk) :
    (write path text).run.run d = match (makeDirectories path.parent).run.run d with
      | (.error e, d') => (.error e, d')
      | (.ok _, d') =>
        match d'.locate path with
        | .error e => (.error e, d')
        | .ok place =>
          if d'.find? place = some .directory then (.error .isDirectory, d')
          else (.ok (), d'.put place (.file text)) := by
  rw [write, run_bind]
  rcases (makeDirectories path.parent).run.run d with ⟨_ | _, d'⟩
  · rfl
  · dsimp only
    rw [run_bind, run_get]
    dsimp only
    rw [run_bind]
    erw [run_ofExcept]
    cases d'.locate path with
    | error e => rfl
    | ok place =>
      dsimp only
      rcases d'.find? place with _ | _ | _ <;> rfl

/-- Writing a file spares every other place. -/
theorem spares_write (hdown : p.GoesDown) (text : String) (d : Disk) :
    Spares (· = d.placeOf p) d ((write p text).run.run d).2 := by
  have hmade := harmless_makeDirectories p.parent d
  rw [run_write]
  rcases hrun : (makeDirectories p.parent).run.run d with ⟨_ | _, d₁⟩
  · rw [hrun] at hmade
    exact hmade.of_nowhere _
  · rw [hrun] at hmade
    have hspared : Spares (· = d.placeOf p) d d₁ := hmade.of_nowhere _
    dsimp only
    split
    · exact hspared
    · rename_i place hlocate
      split
      · exact hspared
      · obtain ⟨-, -, rfl⟩ := (locate_eq_ok_iff hdown).1 hlocate
        have hput := spares_put d₁ (d₁.placeOf p) (.file text)
        rw [hmade.placeOf] at hput ⊢
        exact hspared.trans hput

section Inside

variable {top : Path} (hinside : p.LeadsInside)

include hinside

theorem goesDown_append (hdown : top.GoesDown) : (top.append p).GoesDown := by
  rw [Path.append, if_pos hinside.root_eq]
  exact fun hmem => (List.mem_append.1 hmem).elim hdown hinside.goesDown

theorem placeOf_append (d : Disk) : d.placeOf (top.append p) = d.placeOf top ++ p.parts := by
  rw [Path.append, if_pos hinside.root_eq, placeOf, placeOf, List.append_assoc]
  rfl

theorem treeBelow_append (d : Disk) : treeBelow (d.placeOf top) (d.placeOf (top.append p)) := by
  rw [placeOf_append hinside]
  exact ⟨List.prefix_append _ _, by simpa using hinside.parts_ne_nil⟩

end Inside

/-- Writing files below a directory spares what is not below it. -/
theorem spares_writeAll {top : Path} (hdown : top.GoesDown) : ∀ {files : List (String × String)},
    (∀ e ∈ files, (Path.ofString e.1).LeadsInside) →
      ∀ d, Spares (treeBelow (d.placeOf top)) d ((writeAll top files).run.run d).2
  | [], _, d => Spares.refl _ d
  | (path, text) :: rest, hfiles, d => by
    have hinside := hfiles (path, text) List.mem_cons_self
    have hfirst : Spares (treeBelow (d.placeOf top)) d
        ((write (top.append (.ofString path)) text).run.run d).2 := by
      refine (spares_write (goesDown_append hinside hdown) text d).mono fun q hq => ?_
      rw [hq]
      exact treeBelow_append hinside d
    rw [writeAll, run_bind]
    split
    · have hrest := spares_writeAll hdown (fun e he => hfiles e (List.mem_cons_of_mem _ he))
        ((write (top.append (.ofString path)) text).run.run d).2
      rw [hfirst.placeOf] at hrest
      exact hfirst.trans hrest
    · exact hfirst

/-! ## Emptying and restoring a directory -/

theorem removeTree_of_not_isDirectory (h : d.isDirectory p ≠ .ok true) : removeTree p d = d := by
  rw [removeTree]
  split
  · rfl
  · rename_i place hlocate
    split
    · rename_i hdir
      exact absurd (isDirectory_eq_true_iff.2 ⟨place, hlocate, hdir⟩) h
    · rfl

section Directory

variable (hdown : p.GoesDown) (hparts : p.parts ≠ []) (hlocate : d.locate p = .ok place)
  (hdir : d.find? place = some .directory)

include hdown hparts hlocate in
theorem ne_nil_of_locate : place ≠ [] := by
  obtain ⟨-, -, rfl⟩ := (locate_eq_ok_iff hdown).1 hlocate
  simp [placeOf, hparts]

include hdown hparts hlocate hdir in
theorem removeTree_eq_prune : removeTree p d = d.prune place := by
  have hname : p.endsInName = true := Path.endsInName_of_goesDown hdown hparts
  simp [removeTree, hlocate, hdir, hname]

include hdown hparts hlocate in
theorem locate_prune : (d.prune place).locate p = .ok place :=
  (spares_prune (ne_nil_of_locate hdown hparts hlocate)).locate hdown hlocate
    fun _ => not_treeAt_of_isPrefix

include hdown hparts hlocate in
theorem locate_remade : ((d.prune place).put place .directory).locate p = .ok place :=
  (spares_remade (ne_nil_of_locate hdown hparts hlocate) d).locate hdown hlocate
    fun _ => not_treeAt_of_isPrefix

include hdown hparts hlocate in
/-- Where a tree was taken away, its directory can be made again. -/
theorem run_makeDirectory_prune : (makeDirectory p).run.run (d.prune place) =
    (.ok (), (d.prune place).put place .directory) := by
  rw [run_makeDirectory, locate_prune hdown hparts hlocate]
  dsimp only
  rw [find?_prune_self (ne_nil_of_locate hdown hparts hlocate)]

include hdown hparts hlocate hdir in
/-- A directory that is there is emptied. -/
theorem run_makeEmpty : (makeEmpty p).run.run d =
    (.ok (), (d.prune place).put place .directory) := by
  rw [makeEmpty, run_bind, run_modify, removeTree_eq_prune hdown hparts hlocate hdir]
  dsimp only
  rw [makeDirectories, run_tryCatch, run_makeDirectory_prune hdown hparts hlocate]

include hdown hlocate hdir in
/-- A directory without a name of its own stays when it is emptied. -/
theorem run_makeEmpty_of_parts_eq_nil (hnone : p.parts = []) :
    (makeEmpty p).run.run d = (.ok (), d.clear place) := by
  have hclear : removeTree p d = d.clear place := by
    simp [removeTree, hlocate, hdir, Path.endsInName, hnone]
  have hspared := spares_clear d place
  have hlocate' : (d.clear place).locate p = .ok place :=
    hspared.locate hdown hlocate fun q hpre hne hq => not_treeAt_of_isPrefix hpre hne hq.1
  have hdir' : (d.clear place).find? place = some .directory :=
    hspared.find?_directory (fun hq => hq.2 rfl) hdir
  have hmake : (makeDirectory p).run.run (d.clear place) =
      (.error .alreadyExists, d.clear place) := by
    rw [run_makeDirectory, hlocate']
    dsimp only
    rw [hdir']
  have hthere : (d.clear place).isDirectory p = .ok true :=
    isDirectory_eq_true_iff.2 ⟨place, hlocate', hdir'⟩
  rw [makeEmpty, run_bind, run_modify, hclear]
  dsimp only
  rw [makeDirectories, run_tryCatch, hmake]
  dsimp only
  rw [run_settleFor, hthere]

include hdown hparts hlocate hdir in
/-- A directory that is there gets other content. -/
theorem run_restore (items : List (Place × Item)) : (restore p items).run.run d =
    (.ok (), ((d.prune place).put place .directory).graft place items) := by
  have hmake := run_makeDirectory_prune hdown hparts hlocate
  have hnew : (makeNewDirectory p).run.run (d.prune place) =
      (.ok (), (d.prune place).put place .directory) := by
    rw [makeNewDirectory]
    split
    · exact hmake
    · obtain ⟨hparent, hparentDir⟩ := locate_parent hdown hparts (locate_prune hdown hparts hlocate)
      have hthere : (d.prune place).leadsAnywhere p.parent = true := by
        simp [leadsAnywhere, lookup, hparent, hparentDir]
      rw [run_bind, run_get]
      dsimp only
      rw [hthere, if_pos rfl]
      exact hmake
  rw [restore, run_bind, run_modify, removeTree_eq_prune hdown hparts hlocate hdir]
  dsimp only
  rw [run_bind, hnew]
  dsimp only
  rw [run_bind, run_get]
  dsimp only
  rw [run_bind]
  erw [run_ofExcept]
  rw [locate_remade hdown hparts hlocate]
  rfl

end Directory

theorem run_makeEmpty_of_not_isDirectory (h : d.isDirectory p ≠ .ok true) :
    (makeEmpty p).run.run d = (makeDirectories p).run.run d := by
  rw [makeEmpty, run_bind, run_modify, removeTree_of_not_isDirectory h]

end ApiClient.Disk
