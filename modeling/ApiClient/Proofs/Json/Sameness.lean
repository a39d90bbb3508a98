import ApiClient.Document.Schema
import Mathlib

/-!
# Equality of values and of schemas

`Json.same` compares numbers by value, arrays item by item and objects key by key. Each of the
three is restated without its loop (`same_iff_magnitude`, `sameItems_iff`, `same_obj_iff`), and the
laws follow by `Json.induction`, an induction over the items of arrays and the members of objects.

Main statements: `Schema.same` is reflexive, symmetric and transitive (`Schema.same_refl`,
`Schema.same_symm`, `Schema.same_trans`).
-/

namespace ApiClient

namespace Json

/-- What holds of a value once it holds of its items and members holds of all values. -/
theorem induction {motive : Json → Prop} (null : motive null) (str : ∀ s, motive (str s))
    (number : ∀ j x, j.magnitude? = some x → motive j)
    (arr : ∀ xs, (∀ x ∈ xs, motive x) → motive (arr xs))
    (obj : ∀ ms : List (String × Json), (∀ e ∈ ms, motive e.2) → motive (obj ms)) :
    ∀ j, motive j
  | .null => null
  | .str s => str s
  | .bool b => number (.bool b) _ rfl
  | .int n => number (.int n) _ rfl
  | .float (.finite negative significand exponent) => number (.float (.finite ..)) _ rfl
  | .float (.infinite negative) => number (.float (.infinite negative)) _ rfl
  | .arr xs => arr xs fun x _ => induction null str number arr obj x
  | .obj ms => obj ms fun e _ => induction null str number arr obj e.2
termination_by j => sizeOf j
decreasing_by
  · exact sizeOf_lt_of_mem_items (j := .arr xs) ‹_›
  · have hmem : (e.1, e.2) ∈ members (.obj ms) := ‹e ∈ ms›
    exact sizeOf_lt_of_mem_members hmem

/-! ## The three loops -/

theorem same_iff_magnitude {a b : Json} {x : Magnitude} (ha : a.magnitude? = some x) :
    a.same b = true ↔ b.magnitude? = some x := by
  have hsame : a.same b = true ↔ ∃ y, b.magnitude? = some y ∧ x = y := by
    cases a with
    | null | str | arr | obj => simp [magnitude?] at ha
    | bool | int | float =>
      simp only [same, ha]
      cases hb : b.magnitude? <;> simp [eq_comm]
  rw [hsame]
  constructor
  · rintro ⟨y, hy, rfl⟩
    exact hy
  · intro h
    exact ⟨x, h, rfl⟩

theorem eq_null_of_same {b : Json} (h : null.same b = true) : b = null := by
  cases b with
  | null => rfl
  | _ => cases h

theorem eq_str_of_same {s : String} {b : Json} (h : (str s).same b = true) : b = str s := by
  cases b with
  | str t => simpa [same, eq_comm] using h
  | _ => cases h

theorem sameItems_iff {xs ys : List Json} :
    sameItems xs ys = true ↔ List.Forall₂ (fun x y => x.same y = true) xs ys := by
  induction xs generalizing ys with
  | nil => cases ys <;> simp [sameItems]
  | cons x xs ih => cases ys <;> simp [sameItems, ih]

theorem exists_items_of_same {xs : List Json} {b : Json} (h : (arr xs).same b = true) :
    ∃ ys, b = arr ys ∧ List.Forall₂ (fun x y => x.same y = true) xs ys := by
  cases b with
  | arr ys => exact ⟨ys, rfl, sameItems_iff.1 h⟩
  | _ => cases h

theorem sameMembers_cons {seen : List String} {key : String} {value : Json}
    {rest ns : List (String × Json)} :
    sameMembers seen ((key, value) :: rest) ns = true ↔
      (key ∈ seen ∨ ∃ w, ns.lookup key = some w ∧ value.same w = true) ∧
        sameMembers (key :: seen) rest ns = true := by
  rw [sameMembers, Bool.and_eq_true]
  refine and_congr_left' ?_
  cases ns.lookup key <;> simp

theorem sameMembers_iff {seen : List String} {ms ns : List (String × Json)} :
    sameMembers seen ms ns = true ↔ ∀ k ∉ seen, ∀ v, ms.lookup k = some v →
      ∃ w, ns.lookup k = some w ∧ v.same w = true := by
  induction ms generalizing seen with
  | nil => simp [sameMembers]
  | cons e rest ih =>
    obtain ⟨key, value⟩ := e
    rw [sameMembers_cons, ih]
    refine ⟨?_, fun h => ⟨?_, fun k hk v hv => ?_⟩⟩
    · rintro ⟨hkey, hrest⟩ k hk v hv
      by_cases h : k = key
      · subst h
        obtain rfl : value = v := by simpa using hv
        exact hkey.resolve_left hk
      · exact hrest k (by simp [h, hk]) v (by simpa [List.lookup_cons, beq_false_of_ne h] using hv)
    · by_cases hs : key ∈ seen
      · exact Or.inl hs
      · exact Or.inr (h key hs value (by simp))
    · simp only [List.mem_cons, not_or] at hk
      exact h k hk.2 v (by simpa [List.lookup_cons, beq_false_of_ne hk.1] using hv)

/-- Objects are the same when they have the same keys, and the same value under each. -/
theorem same_obj_iff {ms ns : List (String × Json)} : (obj ms).same (obj ns) = true ↔
    (∀ k, (ms.lookup k).isSome ↔ (ns.lookup k).isSome) ∧
      ∀ k v w, ms.lookup k = some v → ns.lookup k = some w → v.same w = true := by
  have hall : (ns.all fun e => (ms.lookup e.1).isSome) = true ↔
      ∀ k, (ns.lookup k).isSome → (ms.lookup k).isSome := by
    rw [List.all_eq_true]
    constructor
    · intro h k hk
      obtain ⟨w, hw⟩ := Option.isSome_iff_exists.1 hk
      exact h _ (mem_of_lookup hw)
    · intro h e he
      refine h e.1 ?_
      by_contra hn
      have := List.lookup_eq_none_iff.1 (Option.not_isSome_iff_eq_none.1 hn) e he
      simp at this
  rw [same, Bool.and_eq_true, hall, sameMembers_iff]
  constructor
  · rintro ⟨hkeys, hvalues⟩
    refine ⟨fun k => ⟨fun hk => ?_, hkeys k⟩, fun k v w hv hw => ?_⟩
    · obtain ⟨v, hv⟩ := Option.isSome_iff_exists.1 hk
      obtain ⟨w, hw, -⟩ := hvalues k (by simp) v hv
      simp [hw]
    · obtain ⟨w', hw', hsame⟩ := hvalues k (by simp) v hv
      obtain rfl : w' = w := by simpa [hw'] using hw
      exact hsame
  · rintro ⟨hkeys, hvalues⟩
    refine ⟨fun k hk => (hkeys k).2 hk, fun k _ v hv => ?_⟩
    obtain ⟨w, hw⟩ := Option.isSome_iff_exists.1 ((hkeys k).1 (by simp [hv]))
    exact ⟨w, hw, hvalues k v w hv hw⟩

theorem exists_members_of_same {ms : List (String × Json)} {b : Json}
    (h : (obj ms).same b = true) : ∃ ns, b = obj ns ∧ (obj ms).same (obj ns) = true := by
  cases b with
  | obj ns => exact ⟨ns, rfl, h⟩
  | _ => cases h

/-! ## The laws -/

theorem same_refl (j : Json) : j.same j = true := by
  induction j using Json.induction with
  | null => rfl
  | str s => simp [same]
  | number j x hx => exact (same_iff_magnitude hx).2 hx
  | arr xs ih => exact sameItems_iff.2 (List.forall₂_same.2 ih)
  | obj ms ih =>
    refine same_obj_iff.2 ⟨fun k => Iff.rfl, fun k v w hv hw => ?_⟩
    obtain rfl : v = w := by simpa [hv] using hw
    exact ih _ (mem_of_lookup hv)

theorem same_symm {a b : Json} (h : a.same b = true) : b.same a = true := by
  induction a using Json.induction generalizing b with
  | null =>
    obtain rfl := eq_null_of_same h
    rfl
  | str s =>
    obtain rfl := eq_str_of_same h
    exact same_refl _
  | number j x hx => exact (same_iff_magnitude ((same_iff_magnitude hx).1 h)).2 hx
  | arr xs ih =>
    obtain ⟨ys, rfl, hitems⟩ := exists_items_of_same h
    obtain ⟨hlen, hget⟩ := List.forall₂_iff_get.1 hitems
    exact sameItems_iff.2 (List.forall₂_iff_get.2
      ⟨hlen.symm, fun i hy hx => ih _ (List.get_mem _ _) (hget i hx hy)⟩)
  | obj ms ih =>
    obtain ⟨ns, rfl, hmembers⟩ := exists_members_of_same h
    obtain ⟨hkeys, hvalues⟩ := same_obj_iff.1 hmembers
    exact same_obj_iff.2 ⟨fun k => (hkeys k).symm, fun k w v hw hv =>
      ih _ (mem_of_lookup hv) (hvalues k v w hv hw)⟩

theorem same_trans {a b c : Json} (hab : a.same b = true) (hbc : b.same c = true) :
    a.same c = true := by
  induction a using Json.induction generalizing b c with
  | null =>
    obtain rfl := eq_null_of_same hab
    exact hbc
  | str s =>
    obtain rfl := eq_str_of_same hab
    exact hbc
  | number j x hx =>
    exact (same_iff_magnitude hx).2
      ((same_iff_magnitude ((same_iff_magnitude hx).1 hab)).1 hbc)
  | arr xs ih =>
    obtain ⟨ys, rfl, hxy⟩ := exists_items_of_same hab
    obtain ⟨zs, rfl, hyz⟩ := exists_items_of_same hbc
    obtain ⟨hlen, hget⟩ := List.forall₂_iff_get.1 hxy
    obtain ⟨hlen', hget'⟩ := List.forall₂_iff_get.1 hyz
    refine sameItems_iff.2 (List.forall₂_iff_get.2 ⟨hlen.trans hlen', fun i hx hz => ?_⟩)
    have hy : i < ys.length := hlen ▸ hx
    exact ih _ (List.get_mem _ _) (hget i hx hy) (hget' i hy hz)
  | obj ms ih =>
    obtain ⟨ns, rfl, hmn⟩ := exists_members_of_same hab
    obtain ⟨os, rfl, hno⟩ := exists_members_of_same hbc
    obtain ⟨hkeys, hvalues⟩ := same_obj_iff.1 hmn
    obtain ⟨hkeys', hvalues'⟩ := same_obj_iff.1 hno
    refine same_obj_iff.2 ⟨fun k => (hkeys k).trans (hkeys' k), fun k v w hv hw => ?_⟩
    obtain ⟨u, hu⟩ := Option.isSome_iff_exists.1 ((hkeys k).1 (by simp [hv]))
    exact ih _ (mem_of_lookup hv) (hvalues k v u hv hu) (hvalues' k u w hu hw)

end Json

namespace Schema

theorem same_refl (s : Schema) : s.same s = true :=
  Json.same_refl s.form

theorem same_symm {a b : Schema} (h : a.same b = true) : b.same a = true :=
  Json.same_symm h

theorem same_trans {a b c : Schema} (hab : a.same b = true) (hbc : b.same c = true) :
    a.same c = true :=
  Json.same_trans hab hbc

end Schema

end ApiClient
