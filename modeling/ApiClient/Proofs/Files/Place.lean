import ApiClient.Files.Disk
import ApiClient.Proofs.Json.Table
import Mathlib

/-!
# Places of a disk

What lies in a place after a change of the disk (`find?_put_self`, `find?_prune`, `find?_graft`), and disks
that are trees: what lies in a place of a tree lies in directories (`IsTree.find?_of_isPrefix`).
-/

namespace ApiClient.Disk

variable {d : Disk} {place top : Place} {item : Item}

/-! ## Changes -/

theorem find?_root (d : Disk) : d.find? [] = some .directory :=
  if_pos rfl

theorem find?_of_ne_nil (h : place ≠ []) : d.find? place = d.items.lookup place :=
  if_neg h

theorem find?_put_self (h : place ≠ []) (d : Disk) (item : Item) :
    (d.put place item).find? place = some item := by
  rw [find?_of_ne_nil h, put, List.lookup_cons, beq_self_eq_true]

theorem find?_put_of_ne {q : Place} (h : q ≠ place) (d : Disk) (item : Item) :
    (d.put place item).find? q = d.find? q := by
  rcases eq_or_ne q [] with rfl | hq
  · rw [find?_root, find?_root]
  · have hfilter := Table.lookup_filter (fun k => decide (k ≠ place)) q d.items
    rw [if_pos (decide_eq_true h)] at hfilter
    rw [find?_of_ne_nil hq, find?_of_ne_nil hq, put, List.lookup_cons, beq_false_of_ne h]
    exact hfilter

theorem find?_prune (h : top ≠ []) (d : Disk) (q : Place) :
    (d.prune top).find? q = if top <+: q then none else d.find? q := by
  by_cases hq : q = []
  · subst hq
    rw [if_neg (fun hp => h (List.prefix_nil.1 hp)), find?_root, find?_root]
  · rw [find?_of_ne_nil hq, find?_of_ne_nil hq, prune,
      Table.lookup_filter (fun k => !top.isPrefixOf k) q d.items]
    by_cases hp : top <+: q
    · simp [hp]
    · simp [hp]

theorem isBelow_iff {q : Place} : isBelow top q = true ↔ top <+: q ∧ q ≠ top := by
  simp [isBelow]

theorem find?_clear (d : Disk) (top q : Place) :
    (d.clear top).find? q = if isBelow top q then none else d.find? q := by
  by_cases hq : q = []
  · subst hq
    have hnot : isBelow top [] = false := by
      cases top <;> simp [isBelow]
    rw [hnot, find?_root, find?_root]
    rfl
  · rw [find?_of_ne_nil hq, find?_of_ne_nil hq, clear,
      Table.lookup_filter (fun k => !isBelow top k) q d.items]
    cases isBelow top q <;> simp

/-- What is kept of a place is found under the names on the way down. -/
theorem lookup_below {rel : Place} (h : rel ≠ []) (d : Disk) (top : Place) :
    (d.below top).lookup rel = d.find? (top ++ rel) := by
  have hne : top ++ rel ≠ [] := by simp [h]
  rw [find?_of_ne_nil hne, below]
  induction d.items with
  | nil => rfl
  | cons e rest ih =>
    obtain ⟨k, v⟩ := e
    by_cases hk : isBelow top k = true
    · have hpre : top <+: k := by
        have hboth := hk
        simp only [isBelow, Bool.and_eq_true, List.isPrefixOf_iff_prefix] at hboth
        exact hboth.1
      obtain ⟨names, rfl⟩ := hpre
      rw [List.filter_cons_of_pos (p := fun e : Place × Item => isBelow top e.1) hk, List.map_cons,
        List.lookup_cons, List.lookup_cons, ih, List.drop_left]
      by_cases hrel : rel = names
      · simp [hrel]
      · have hne : top ++ rel ≠ top ++ names := fun heq => hrel (List.append_cancel_left heq)
        rw [beq_false_of_ne hrel, beq_false_of_ne hne]
    · have hother : top ++ rel ≠ k := by
        rintro rfl
        exact hk (by simp [isBelow, h])
      rw [List.filter_cons_of_neg (p := fun e : Place × Item => isBelow top e.1) hk, ih,
        List.lookup_cons, beq_false_of_ne hother]

theorem ne_nil_of_mem_below {e : Place × Item} (h : e ∈ d.below top) : e.1 ≠ [] := by
  obtain ⟨⟨k, v⟩, hmem, rfl⟩ := List.mem_map.1 h
  obtain ⟨-, hbelow⟩ := List.mem_filter.1 hmem
  simp only [isBelow, Bool.and_eq_true, List.isPrefixOf_iff_prefix, decide_eq_true_eq] at hbelow
  obtain ⟨⟨names, rfl⟩, hne⟩ := hbelow
  simpa using hne

theorem graft_cons (d : Disk) (top : Place) (e : Place × Item) (items : List (Place × Item)) :
    d.graft top (e :: items) = (d.graft top items).put (top ++ e.1) e.2 :=
  rfl

theorem find?_graft_of_notMem {q : Place} {items : List (Place × Item)}
    (h : ∀ e ∈ items, q ≠ top ++ e.1) (d : Disk) : (d.graft top items).find? q = d.find? q := by
  induction items with
  | nil => rfl
  | cons e rest ih =>
    rw [graft_cons, find?_put_of_ne (h e List.mem_cons_self)]
    exact ih fun e he => h e (List.mem_cons_of_mem _ he)

theorem find?_graft {rel : Place} (h : rel ≠ []) (d : Disk) (top : Place)
    (items : List (Place × Item)) :
    (d.graft top items).find? (top ++ rel) = (items.lookup rel).or (d.find? (top ++ rel)) := by
  induction items with
  | nil => rfl
  | cons e rest ih =>
    obtain ⟨k, v⟩ := e
    rw [graft_cons, List.lookup_cons]
    by_cases hrel : rel = k
    · subst hrel
      rw [find?_put_self (by simp [h]), beq_self_eq_true]
      rfl
    · rw [find?_put_of_ne fun heq => hrel (List.append_cancel_left heq), ih,
        beq_false_of_ne hrel]

/-! ## Trees -/

/-- What lies in a place lies in a directory. -/
def IsTree (d : Disk) : Prop :=
  ∀ place item, d.find? place = some item → d.find? place.dropLast = some .directory

/-- Above what lies in a place of a tree are directories only. -/
theorem IsTree.find?_of_isPrefix (h : d.IsTree) (hpre : top <+: place) (hne : top ≠ place)
    (hitem : d.find? place = some item) : d.find? top = some .directory := by
  obtain ⟨names, rfl⟩ := hpre
  induction names using List.reverseRecOn generalizing item with
  | nil => exact absurd (List.append_nil top).symm hne
  | append_singleton front last ih =>
    have hparent := h _ _ hitem
    rw [← List.append_assoc, List.dropLast_concat] at hparent
    rcases eq_or_ne front [] with rfl | hfront
    · rwa [List.append_nil] at hparent
    · exact ih (by simpa using hfront) hparent

theorem isTree_of_items
    (h : ∀ e ∈ d.items, d.find? e.1.dropLast = some .directory) : d.IsTree := by
  intro place item hitem
  rcases eq_or_ne place [] with rfl | hne
  · exact find?_root d
  · rw [find?_of_ne_nil hne] at hitem
    obtain ⟨before, after, heq, -⟩ := List.lookup_eq_some_iff.1 hitem
    exact h (place, item) (by simp [heq])

end ApiClient.Disk
