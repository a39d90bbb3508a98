import ApiClient.Proofs.Json.Sameness
import Mathlib

/-!
# Equality of values as a relation

`Json.same` decides by loops whether two values are the same. `Json.Equal` says without a loop what
that is: numbers are compared by what they are worth, whatever their kinds are (`Json.worth?`), arrays
item by item and objects key by key, and `Json.same_iff_equal` is that the loops decide it.

`Json.same_option_iff` and `Json.same_zip_iff` are for values that are written from something else: from
what may be absent, and from a record with a key for each of its fields.
-/

namespace ApiClient

/-! ## What may be absent -/

theorem option_rel_map_iff {α β : Type} {R : β → β → Prop} {f : α → β} {x y : Option α} :
    Option.Rel R (x.map f) (y.map f) ↔ Option.Rel (fun a b => R (f a) (f b)) x y := by
  cases x <;> cases y <;> simp

theorem option_rel_iff {α β : Type} {R : α → β → Prop} {x : Option α} {y : Option β} :
    Option.Rel R x y ↔
      (x.isSome ↔ y.isSome) ∧ ∀ a b, x = some a → y = some b → R a b := by
  cases x <;> cases y <;> simp

namespace Json

/-! ## Numbers -/

/-- The number that a value is worth; nothing for an infinity and for what is no number. -/
def worth? : Json → Option ℚ
  | bool b => some (if b then 1 else 0)
  | int n => some n
  | float (.finite negative significand exponent) =>
    some ((if negative then -1 else 1) * significand * 2 ^ ((exponent : ℤ) - (1074 : ℕ)))
  | _ => none

theorem cast_unity : (Floating.unity : ℚ) = 2 ^ ((1074 : ℕ) : ℤ) := by
  unfold Floating.unity
  -- the power itself is too large to be looked at
  generalize 1074 = n
  rw [zpow_natCast]
  exact Nat.cast_pow 2 n

theorem unity_ne_zero : (Floating.unity : ℚ) ≠ 0 := by
  rw [cast_unity]
  exact zpow_ne_zero _ two_ne_zero

/-- What a number is worth, from its value in the unit of floating-point numbers. -/
theorem worth?_of_magnitude {a : Json} {n : Int} (h : a.magnitude? = some (.finite n)) :
    a.worth? = some ((n : ℚ) / Floating.unity) := by
  cases a with
  | null | str | arr | obj => cases h
  | bool b =>
    obtain rfl := Magnitude.finite.inj (Option.some.inj h)
    rw [Int.cast_mul, Int.cast_natCast, mul_div_cancel_right₀ _ unity_ne_zero]
    cases b <;> rfl
  | int m =>
    obtain rfl := Magnitude.finite.inj (Option.some.inj h)
    rw [Int.cast_mul, Int.cast_natCast, mul_div_cancel_right₀ _ unity_ne_zero]
    rfl
  | float f =>
    cases f with
    | infinite => cases h
    | finite negative significand exponent =>
      obtain rfl := Magnitude.finite.inj (Option.some.inj h)
      rw [worth?, zpow_sub₀ two_ne_zero, ← cast_unity, zpow_natCast]
      -- with the unit in sight the simplifier would multiply it out
      generalize Floating.unity = u
      cases negative <;> simp [neg_div, mul_div_assoc]

theorem exists_magnitude_of_worth {a : Json} {x : ℚ} (h : a.worth? = some x) :
    ∃ n, a.magnitude? = some (.finite n) := by
  cases a with
  | null | str | arr | obj => cases h
  | bool b => exact ⟨_, rfl⟩
  | int n => exact ⟨_, rfl⟩
  | float f =>
    cases f with
    | infinite => cases h
    | finite => exact ⟨_, rfl⟩

/-- Two numbers are the same if they are worth the same, whatever their kinds are. -/
theorem same_iff_worth {a b : Json} {x y : ℚ} (ha : a.worth? = some x) (hb : b.worth? = some y) :
    a.same b = true ↔ x = y := by
  obtain ⟨m, hm⟩ := exists_magnitude_of_worth ha
  obtain ⟨n, hn⟩ := exists_magnitude_of_worth hb
  obtain rfl := Option.some.inj (ha.symm.trans (worth?_of_magnitude hm))
  obtain rfl := Option.some.inj (hb.symm.trans (worth?_of_magnitude hn))
  rw [same_iff_magnitude hm, hn, div_left_inj' unity_ne_zero, Int.cast_inj]
  simp [eq_comm]

theorem same_bool_iff {b b' : Bool} : (bool b).same (bool b') = true ↔ b = b' := by
  rw [same_iff_worth rfl rfl]
  cases b <;> cases b' <;> simp

theorem eq_infinite_of_magnitude {a : Json} {negative : Bool}
    (h : a.magnitude? = some (.infinite negative)) : a = float (.infinite negative) := by
  cases a with
  | null | str | arr | obj | bool | int => cases h
  | float f =>
    cases f with
    | infinite => simpa [magnitude?] using h
    | finite => cases h

/-! ## The relation -/

/-- Equality of values: numbers by what they are worth, arrays in order, objects in any order. -/
inductive Equal : Json → Json → Prop where
  | null : Equal null null
  | str (s : String) : Equal (str s) (str s)
  | number {a b : Json} {x : ℚ} (ha : a.worth? = some x) (hb : b.worth? = some x) : Equal a b
  | infinite (negative : Bool) : Equal (float (.infinite negative)) (float (.infinite negative))
  | arr {xs ys : List Json} (items : List.Forall₂ Equal xs ys) : Equal (arr xs) (arr ys)
  | obj {ms ns : List (String × Json)}
      (members : ∀ key, Option.Rel Equal (ms.lookup key) (ns.lookup key)) : Equal (obj ms) (obj ns)

theorem same_obj_iff_rel {ms ns : List (String × Json)} : (obj ms).same (obj ns) = true ↔
    ∀ key, Option.Rel (fun v w => v.same w = true) (ms.lookup key) (ns.lookup key) := by
  simp only [option_rel_iff, same_obj_iff, forall_and]

theorem same_arr_iff {xs ys : List Json} : (arr xs).same (arr ys) = true ↔
    List.Forall₂ (fun x y => x.same y = true) xs ys := by
  rw [same, sameItems_iff]

theorem equal_of_same {a b : Json} (h : a.same b = true) : Equal a b := by
  induction a using Json.induction generalizing b with
  | null =>
    obtain rfl := eq_null_of_same h
    exact .null
  | str s =>
    obtain rfl := eq_str_of_same h
    exact .str s
  | number j x hx =>
    have hb := (same_iff_magnitude hx).1 h
    cases x with
    | finite n => exact .number (worth?_of_magnitude hx) (worth?_of_magnitude hb)
    | infinite negative =>
      rw [eq_infinite_of_magnitude hx, eq_infinite_of_magnitude hb]
      exact .infinite negative
  | arr xs ih =>
    obtain ⟨ys, rfl, hitems⟩ := exists_items_of_same h
    have hboth := (List.forall₂_and_left xs ys).2 ⟨ih, hitems⟩
    exact .arr (hboth.imp fun x y ⟨hx, hxy⟩ => hx hxy)
  | obj ms ih =>
    obtain ⟨ns, rfl, hmembers⟩ := exists_members_of_same h
    refine .obj fun key => option_rel_iff.2 ?_
    obtain ⟨hkeys, hvalues⟩ := option_rel_iff.1 (same_obj_iff_rel.1 hmembers key)
    exact ⟨hkeys, fun v w hv hw => ih _ (mem_of_lookup hv) (hvalues v w hv hw)⟩

theorem same_of_equal {a b : Json} (h : Equal a b) : a.same b = true := by
  induction a using Json.induction generalizing b with
  | null => cases h with
    | null => rfl
    | number ha => cases ha
  | str s => cases h with
    | str => exact same_refl _
    | number ha => cases ha
  | number j x hx => cases h with
    | number ha hb => exact (same_iff_worth ha hb).2 rfl
    | infinite => exact same_refl _
    | _ => cases hx
  | arr xs ih => cases h with
    | number ha => cases ha
    | @arr _ ys items =>
      have hboth := (List.forall₂_and_left xs ys).2 ⟨ih, items⟩
      exact same_arr_iff.2 (hboth.imp fun x y ⟨hx, hxy⟩ => hx hxy)
  | obj ms ih => cases h with
    | number ha => cases ha
    | obj members =>
      refine same_obj_iff_rel.2 fun key => option_rel_iff.2 ?_
      obtain ⟨hkeys, hvalues⟩ := option_rel_iff.1 (members key)
      exact ⟨hkeys, fun v w hv hw => ih _ (mem_of_lookup hv) (hvalues v w hv hw)⟩

theorem same_iff_equal {a b : Json} : a.same b = true ↔ Equal a b :=
  ⟨equal_of_same, same_of_equal⟩

/-! ## Forms -/

theorem same_null_iff {a : Json} : a.same null = true ↔ a = null := by
  constructor
  · exact fun h => eq_null_of_same (same_symm h)
  · rintro rfl
    rfl

/-- Forms of what may be absent are the same if neither is there, or both are and are related. -/
theorem same_option_iff {α : Type} {R : α → α → Prop} {formOption : Option α → Json}
    (hnone : formOption none = null) (hsome : ∀ a, formOption (some a) ≠ null)
    (hrel : ∀ a b, (formOption (some a)).same (formOption (some b)) = true ↔ R a b)
    {x y : Option α} : (formOption x).same (formOption y) = true ↔ Option.Rel R x y := by
  cases x with
  | none => cases y with
    | none => simp [hnone, same]
    | some b => simpa [hnone] using fun h => hsome b (eq_null_of_same h)
  | some a => cases y with
    | none => simpa [hnone] using fun h => hsome a (same_null_iff.1 h)
    | some b => simp [hrel]

theorem lookup_zip_eq_none {keys : List String} {key : String} (h : key ∉ keys)
    (values : List Json) : (keys.zip values).lookup key = none := by
  refine List.lookup_eq_none_iff.2 fun e he => ?_
  have hne : key ≠ e.1 := fun heq => h (heq ▸ (List.of_mem_zip he).1)
  simpa using hne

/-- Two objects with the same different keys are the same if they agree under one key after
another. -/
theorem same_zip_iff {keys : List String} (hkeys : keys.Nodup) {vs ws : List Json}
    (hvs : vs.length = keys.length) (hws : ws.length = keys.length) :
    (obj (keys.zip vs)).same (obj (keys.zip ws)) = true ↔
      List.Forall₂ (fun v w => v.same w = true) vs ws := by
  induction keys generalizing vs ws with
  | nil =>
    obtain rfl := List.length_eq_zero_iff.1 hvs
    obtain rfl := List.length_eq_zero_iff.1 hws
    simp [same_refl]
  | cons k keys ih =>
    obtain ⟨v, vs, rfl⟩ := List.exists_cons_of_length_eq_add_one hvs
    obtain ⟨w, ws, rfl⟩ := List.exists_cons_of_length_eq_add_one hws
    obtain ⟨hk, hkeys⟩ := List.nodup_cons.1 hkeys
    rw [List.forall₂_cons, ← ih hkeys (by simpa using hvs) (by simpa using hws)]
    simp only [same_obj_iff_rel, List.zip_cons_cons]
    constructor
    · intro h
      refine ⟨by simpa using h k, fun key => ?_⟩
      by_cases hkey : key = k
      · simp [hkey, lookup_zip_eq_none hk]
      · simpa [List.lookup_cons, beq_false_of_ne hkey] using h key
    · rintro ⟨hvw, h⟩ key
      by_cases hkey : key = k
      · simpa [hkey] using hvw
      · simpa [List.lookup_cons, beq_false_of_ne hkey] using h key

end Json

end ApiClient
