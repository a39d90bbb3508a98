import ApiClient.Types.Resolution
import Mathlib

/-!
# The schemas in a schema

`Schema.parts` lists a schema with all the schemas in it, along properties, items and additional
properties; a pointer counts as none. There are as many as the weight of the schema says
(`length_parts`), and what stands in a part stands in the whole (`refParts_subset`).
-/

namespace ApiClient.Schema

/-- What stands right inside a schema. -/
def inner (s : Schema) : List (RefOr Schema) :=
  (s.properties.getD []).map Prod.snd ++ s.items.toList ++
    match s.additional with
    | some (.schema values) => [values]
    | _ => []

theorem mem_inner_of_mem_properties {s : Schema} {property : String} {v : RefOr Schema}
    (h : (property, v) ∈ s.properties.getD []) : v ∈ s.inner :=
  List.mem_append_left _ (List.mem_append_left _ (List.mem_map_of_mem h))

theorem tableWeight_eq (t : List (String × RefOr Schema)) :
    tableWeight t = (t.map fun e => refWeight e.2).sum := by
  induction t with
  | nil => rfl
  | cons e rest ih => rw [tableWeight, ih, List.map_cons, List.sum_cons]

theorem weight_eq (s : Schema) : weight s = 1 + (s.inner.map refWeight).sum := by
  obtain ⟨_, _, _, _, properties, _, items, additional⟩ := s
  have hproperties : propertiesWeight properties =
      (((properties.getD []).map Prod.snd).map refWeight).sum := by
    cases properties with
    | none => rfl
    | some ps => simp [propertiesWeight, tableWeight_eq, Function.comp_def]
  have hitems : itemsWeight items = (items.toList.map refWeight).sum := by
    cases items <;> simp [itemsWeight]
  have hadditional : additionalWeight additional = ((match additional with
      | some (.schema values) => [values]
      | _ => []).map refWeight).sum := by
    rcases additional with _ | _ | values <;> simp [additionalWeight]
  simp only [weight, inner, List.map_append, List.sum_append]
  rw [hproperties, hitems, hadditional]
  omega

theorem weight_pos (s : Schema) : 0 < weight s := by
  rw [weight_eq]
  omega

theorem refWeight_lt_of_mem_inner {s : Schema} {v : RefOr Schema} (h : v ∈ s.inner) :
    refWeight v < weight s := by
  have hle : refWeight v ≤ (s.inner.map refWeight).sum :=
    List.le_sum_of_mem (List.mem_map_of_mem h)
  rw [weight_eq]
  omega

/-! ## Parts -/

/-- A schema with all schemas in it; a pointer has none. -/
def refParts : RefOr Schema → List Schema
  | .ref _ => []
  | .inline s => s :: s.inner.attach.flatMap fun v => refParts v.1
  termination_by v => refWeight v
  decreasing_by exact refWeight_lt_of_mem_inner v.2

/-- A schema with all schemas in it. -/
def parts (s : Schema) : List Schema :=
  refParts (.inline s)

theorem refParts_ref (pointer : String) : refParts (.ref pointer) = [] := by
  rw [refParts]

theorem parts_eq (s : Schema) : s.parts = s :: s.inner.flatMap refParts := by
  rw [parts, refParts]
  simp

theorem refParts_inline (s : Schema) : refParts (.inline s) = s :: s.inner.flatMap refParts :=
  parts_eq s

theorem mem_parts_self (s : Schema) : s ∈ s.parts := by
  rw [parts_eq]
  exact List.mem_cons_self

/-- A schema has as many parts as its weight says. -/
theorem length_refParts (v : RefOr Schema) : (refParts v).length = refWeight v := by
  cases v with
  | ref pointer => rw [refParts_ref]; rfl
  | inline s =>
    have hinner : s.inner.map (fun v => (refParts v).length) = s.inner.map refWeight :=
      List.map_congr_left fun v _ => length_refParts v
    show s.parts.length = weight s
    rw [parts_eq, List.length_cons, List.length_flatMap, hinner, weight_eq, Nat.add_comm]
  termination_by refWeight v
  decreasing_by exact refWeight_lt_of_mem_inner ‹_›

/-- What stands in a part stands in the whole. -/
theorem refParts_subset {t : Schema} {v : RefOr Schema} (hv : v ∈ t.inner) :
    ∀ {u : RefOr Schema}, t ∈ refParts u → refParts v ⊆ refParts u
  | .ref pointer, ht => by
    rw [refParts_ref] at ht
    cases ht
  | .inline s, ht => by
    have hs : refParts (.inline s) = s :: s.inner.flatMap refParts := parts_eq s
    rw [hs] at ht ⊢
    rcases List.mem_cons.1 ht with rfl | ht
    · exact fun x hx => List.mem_cons_of_mem _ (List.mem_flatMap.2 ⟨v, hv, hx⟩)
    · obtain ⟨w, hw, htw⟩ := List.mem_flatMap.1 ht
      have hsub : refParts v ⊆ refParts w := refParts_subset hv htw
      exact fun x hx => List.mem_cons_of_mem _ (List.mem_flatMap.2 ⟨w, hw, hsub hx⟩)
  termination_by u => refWeight u
  decreasing_by exact refWeight_lt_of_mem_inner ‹_›

theorem weight_le_of_mem_refParts {t : Schema} :
    ∀ {v : RefOr Schema}, t ∈ refParts v → weight t ≤ refWeight v
  | .ref pointer, ht => by
    rw [refParts_ref] at ht
    cases ht
  | .inline s, ht => by
    have hs : refParts (.inline s) = s :: s.inner.flatMap refParts := parts_eq s
    rw [hs] at ht
    rcases List.mem_cons.1 ht with rfl | ht
    · exact Nat.le_refl _
    · obtain ⟨w, hw, htw⟩ := List.mem_flatMap.1 ht
      have hlt : refWeight w < weight s := refWeight_lt_of_mem_inner hw
      exact (weight_le_of_mem_refParts htw).trans hlt.le
  termination_by v => refWeight v
  decreasing_by exact hlt

/-- The schemas in the entries of a table. -/
def tableParts (t : List (String × RefOr Schema)) : List Schema :=
  t.flatMap fun e => refParts e.2

theorem length_tableParts (t : List (String × RefOr Schema)) :
    (tableParts t).length = tableWeight t := by
  rw [tableParts, List.length_flatMap, tableWeight_eq]
  exact congrArg List.sum (List.map_congr_left fun e _ => length_refParts e.2)

theorem tableWeight_filter_le {p q : String × RefOr Schema → Bool}
    (hpq : ∀ e, p e = true → q e = true) (t : List (String × RefOr Schema)) :
    tableWeight (t.filter p) ≤ tableWeight (t.filter q) := by
  rw [tableWeight_eq, tableWeight_eq]
  exact ((List.monotone_filter_right t hpq).map _).sum_le_sum fun _ _ => Nat.zero_le _

/-- An entry that is left out of a table takes its weight with it. -/
theorem tableWeight_filter_add_le {p q : String × RefOr Schema → Bool}
    {t : List (String × RefOr Schema)} (hpq : ∀ e, p e = true → q e = true)
    {e : String × RefOr Schema} (he : e ∈ t) (hq : q e = true) (hp : p e = false) :
    tableWeight (t.filter p) + refWeight e.2 ≤ tableWeight (t.filter q) := by
  obtain ⟨front, back, rfl⟩ := List.append_of_mem he
  have hfront := tableWeight_filter_le hpq front
  have hback := tableWeight_filter_le hpq back
  simp only [tableWeight_eq, List.filter_append, List.filter_cons, hq, hp, List.map_append,
    List.sum_append, List.map_cons, List.sum_cons, if_true, Bool.false_eq_true, if_false] at *
  omega

end ApiClient.Schema
