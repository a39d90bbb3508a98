import ApiClient.Json.Basic
import Mathlib

/-!
# Tables

Entries whose keys are distinct make the table they are (`Table.ofList_of_nodup`), and every one of
them is found under its key (`Table.get?_of_mem`), in whatever order they stand (`Table.get?_perm`).
What is put under a key is found there and nowhere else (`Table.get?_put_self`,
`Table.get?_put_of_ne`), and a new key comes last (`Table.keys_put`).
-/

namespace ApiClient.Table

variable {α : Type}

theorem put_of_notMem {t : Table α} {key : String} {value : α} (h : key ∉ t.keys) :
    t.put key value = t ++ [(key, value)] := by
  induction t with
  | nil => rfl
  | cons e rest ih =>
    obtain ⟨hne, hrest⟩ := List.ne_and_not_mem_of_not_mem_cons h
    rw [put, if_neg hne.symm, ih hrest]
    rfl

theorem putAll_of_nodup : ∀ {t more : Table α}, (t.keys ++ more.keys).Nodup →
    t.putAll more = t ++ more
  | t, [], _ => (List.append_nil t).symm
  | t, (key, value) :: rest, h => by
    have hkey : key ∉ t.keys := fun hmem =>
      (List.nodup_append.1 h).2.2 key hmem key List.mem_cons_self rfl
    have hkeys : (t ++ [(key, value)] : Table α).keys ++ keys rest =
        t.keys ++ keys ((key, value) :: rest) := by
      simp [keys]
    rw [putAll, List.foldl_cons, put_of_notMem hkey]
    refine (putAll_of_nodup (hkeys ▸ h)).trans ?_
    rw [List.append_assoc, List.singleton_append]

theorem ofList_of_nodup {entries : List (String × α)} (h : (entries.map Prod.fst).Nodup) :
    ofList entries = entries :=
  putAll_of_nodup h

theorem get?_of_mem {t : Table α} (h : t.Distinct) {key : String} {value : α}
    (hmem : (key, value) ∈ t) : t.get? key = some value := by
  induction t with
  | nil => cases hmem
  | cons e rest ih =>
    obtain ⟨hnot, hrest⟩ := List.nodup_cons.1 h
    rw [get?, List.lookup_cons]
    rcases List.mem_cons.1 hmem with rfl | hmem
    · simp
    · have hne : key ≠ e.1 := by
        rintro rfl
        exact hnot (List.mem_map.2 ⟨_, hmem, rfl⟩)
      rw [beq_false_of_ne hne]
      exact ih hrest hmem

/-- The order of the entries makes no difference to a look-up. -/
theorem get?_perm {t t' : Table α} (h : List.Perm t t') (ht : t.Distinct) (key : String) :
    t.get? key = t'.get? key := by
  have ht' : t'.Distinct := (h.map Prod.fst).nodup_iff.1 ht
  refine Option.ext fun value => ⟨fun hget => ?_, fun hget => ?_⟩
  · exact get?_of_mem ht' (h.subset (Json.mem_of_lookup hget))
  · exact get?_of_mem ht (h.symm.subset (Json.mem_of_lookup hget))

/-- A change of the values goes through a look-up. -/
theorem get?_map {β : Type} (f : α → β) (t : Table α) (key : String) :
    get? (t.map fun e => (e.1, f e.2)) key = (t.get? key).map f := by
  induction t with
  | nil => rfl
  | cons e rest ih =>
    rw [List.map_cons, get?, List.lookup_cons, get?, List.lookup_cons]
    split
    · rfl
    · exact ih

theorem lookup_filter {α β : Type} [BEq α] [LawfulBEq α] (p : α → Bool) (key : α) :
    ∀ entries : List (α × β),
      (entries.filter fun e => p e.1).lookup key = if p key then entries.lookup key else none
  | [] => by simp
  | (k, v) :: rest => by
    have ih := lookup_filter p key rest
    by_cases hkey : key = k
    · subst hkey
      by_cases hp : p key = true
      · simp [hp]
      · simpa [hp] using ih
    · have hbeq : (key == k) = false := beq_false_of_ne hkey
      by_cases hp : p k = true
      · simpa [List.lookup_cons, hp, hbeq] using ih
      · simpa [List.lookup_cons, hp, hbeq] using ih

/-! ## Putting an entry -/

theorem mem_keys_of_get? {t : Table α} {key : String} {value : α} (h : t.get? key = some value) :
    key ∈ t.keys :=
  List.mem_map_of_mem (Json.mem_of_lookup h)

theorem mem_keys_iff {t : Table α} {key : String} :
    key ∈ t.keys ↔ ∃ value, t.get? key = some value := by
  refine ⟨fun hmem => ?_, fun ⟨_, hget⟩ => mem_keys_of_get? hget⟩
  induction t with
  | nil => cases hmem
  | cons e rest ih =>
    rw [get?, List.lookup_cons]
    split
    · exact ⟨_, rfl⟩
    · rename_i hne
      exact ih ((List.mem_cons.1 hmem).resolve_left (ne_of_beq_false hne))

theorem get?_put_self (t : Table α) (key : String) (value : α) :
    (t.put key value).get? key = some value := by
  induction t with
  | nil => simp [put, get?]
  | cons e rest ih =>
    rw [put]
    split
    · rename_i heq
      rw [get?, List.lookup_cons, heq, beq_self_eq_true]
    · rename_i hne
      have hbeq : (key == e.1) = false := beq_false_of_ne (Ne.symm hne)
      rw [get?, List.lookup_cons, hbeq]
      exact ih

theorem get?_put_of_ne {k key : String} (h : k ≠ key) (t : Table α) (value : α) :
    (t.put key value).get? k = t.get? k := by
  induction t with
  | nil => simp [put, get?, h]
  | cons e rest ih =>
    obtain ⟨k', v⟩ := e
    rw [put]
    split
    · rename_i heq
      subst heq
      simp only [get?, List.lookup_cons, beq_false_of_ne h]
    · rw [get?, List.lookup_cons, get?, List.lookup_cons]
      split
      · rfl
      · exact ih

/-- A key that is there keeps its place, and a new one comes last. -/
theorem keys_put (t : Table α) (key : String) (value : α) :
    (t.put key value).keys = if key ∈ t.keys then t.keys else t.keys ++ [key] := by
  induction t with
  | nil => simp [put, keys]
  | cons e rest ih =>
    rw [put]
    split
    · rename_i heq
      simp [keys, heq]
    · rename_i hne
      have hmem : key ∈ keys (e :: rest) ↔ key ∈ keys rest := by
        simp [keys, Ne.symm hne]
      simp only [hmem]
      have hcons : keys ((e.1, e.2) :: put rest key value) = e.1 :: keys (put rest key value) := rfl
      rw [hcons, ih]
      split <;> rfl

end ApiClient.Table
