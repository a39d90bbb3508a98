import ApiClient.Proofs.Document.Hop
import ApiClient.Proofs.Document.Parts
import ApiClient.Proofs.Types.Call
import Mathlib

/-!
# Ways to named types

A list or a table of values passes on to the schema of its items or values (`Schema.next`). `Passes`
says so of two schemas, with pointers followed, and `ends` whether the way from a schema comes to its
end within so many steps. A way that has an end passes no schema twice, so it ends within as many
steps as there are schemas in the components and in the schema it starts from (`ends_bound`).
-/

namespace ApiClient

/-! ## Targets of pointers -/

namespace Pointer

/-- What is found under a pointer in one step stands in the table of a section. -/
theorem exists_mem_of_resolve {c : Components} {expected : Option (List Section)}
    {pointer name : String} {found : Component}
    (h : resolve (some c) expected pointer = .ok (name, .inline found)) :
    ∃ s key, (key, RefOr.inline found) ∈ c.table s ∧ name = Naming.className key ∧
      isExpected expected found = true := by
  obtain ⟨c', s, token, hc, -, -, -, hentry, hwelcome, rfl⟩ := exists_of_resolve h
  obtain rfl := Option.some.inj hc
  exact ⟨s, unescape token, Json.mem_of_lookup hentry, rfl, isWelcome_inline_iff.1 hwelcome⟩

theorem exists_resolve_of_followFrom (c : Components) (expected : Option (List Section))
    (visited : List String) (pointer : String) {name : String} {found : Component}
    (h : (followFrom c expected visited pointer).outcome = .ok (name, found)) :
    ∃ last, resolve (some c) expected last = .ok (name, .inline found) := by
  fun_induction followFrom c expected visited pointer with
  | case1 visited pointer e he => cases h
  | case2 visited pointer name' found' hfound =>
    obtain ⟨rfl, rfl⟩ := Prod.mk.inj (Except.ok.inj h)
    exact ⟨pointer, hfound⟩
  | case3 visited pointer name' next hnext hvisited => cases h
  | case4 visited pointer name' next hnext hvisited hlt ih => exact ih h

end Pointer

/-- A schema in the table of a section is an entry of the schemas. -/
theorem Components.mem_schemas_of_mem_table {c : Components} {home : Section} {key : String}
    {s : Schema} (h : (key, RefOr.inline (.schema s)) ∈ c.table home) :
    (key, .inline s) ∈ c.schemas := by
  have hmap : ∀ {α : Type} {make : α → Component} {t : Table (RefOr α)},
      (key, RefOr.inline (.schema s)) ∈ entries make t →
        ∃ a, (key, .inline a) ∈ t ∧ make a = .schema s := by
    intro α make t hmem
    obtain ⟨⟨key', value⟩, he, heq⟩ := List.mem_map.1 hmem
    obtain ⟨rfl, hvalue⟩ := Prod.mk.inj heq
    cases value with
    | ref pointer => cases hvalue
    | inline a => exact ⟨a, he, RefOr.inline.inj hvalue⟩
  cases home <;> obtain ⟨a, ha, hmake⟩ := hmap h
  · obtain rfl := Component.schema.inj hmake
    exact ha
  all_goals cases hmake

namespace Resolver

variable {r : Resolver}

/-- The schemas among the components. -/
def schemas (r : Resolver) : List (String × RefOr Schema) :=
  (r.components.map Components.schemas).getD []

theorem bound_eq (r : Resolver) (value : RefOr Schema) :
    r.bound value = Schema.tableWeight r.schemas + Schema.refWeight value + 1 := by
  rw [bound, schemas]
  cases r.components <;> rfl

/-- A pointer leads to a component, which is known by the class name of its key. -/
theorem exists_mem_schemas_of_target {pointer : String} {component : Option String} {s : Schema}
    (h : r.target (.ref pointer) = .ok (component, s)) :
    ∃ key, component = some (Naming.className key) ∧ (key, .inline s) ∈ r.schemas := by
  rw [target] at h
  split at h
  · rename_i name found hfollow
    obtain ⟨rfl, rfl⟩ := Prod.mk.inj (Except.ok.inj h)
    unfold Pointer.follow at hfollow
    split at hfollow
    · rename_i c hc
      obtain ⟨last, hlast⟩ := Pointer.exists_resolve_of_followFrom _ _ _ _ hfollow
      obtain ⟨home, key, hmem, rfl, -⟩ := Pointer.exists_mem_of_resolve hlast
      refine ⟨key, rfl, ?_⟩
      rw [schemas, hc]
      exact Components.mem_schemas_of_mem_table hmem
    · split at hfollow <;> cases hfollow
  · cases h
  · cases h

/-- The schemas in the components. -/
def parts (r : Resolver) : List Schema :=
  Schema.tableParts r.schemas

theorem length_parts (r : Resolver) : r.parts.length = Schema.tableWeight r.schemas :=
  Schema.length_tableParts _

/-- The schemas in the components and in `value`. -/
def partsWith (r : Resolver) (value : RefOr Schema) : List Schema :=
  r.parts ++ Schema.refParts value

theorem refParts_subset_parts {t : Schema} {v : RefOr Schema} (hv : v ∈ t.inner)
    (ht : t ∈ r.parts) : Schema.refParts v ⊆ r.parts := by
  intro x hx
  obtain ⟨e, he, hte⟩ := List.mem_flatMap.1 ht
  exact List.mem_flatMap.2 ⟨e, he, Schema.refParts_subset hv hte hx⟩

/-- What is met from inside a schema is met from the schema itself. -/
theorem partsWith_subset {t : Schema} {v value : RefOr Schema} (hv : v ∈ t.inner)
    (ht : t ∈ r.partsWith value) : r.partsWith v ⊆ r.partsWith value := by
  intro x hx
  rcases List.mem_append.1 hx with hx | hx
  · exact List.mem_append_left _ hx
  rcases List.mem_append.1 ht with ht | ht
  · exact List.mem_append_left _ (refParts_subset_parts hv ht hx)
  · exact List.mem_append_right _ (Schema.refParts_subset hv ht hx)

/-- The schema that `v` is or points to is one of those in the components and in `v`. -/
theorem mem_of_target {v : RefOr Schema} {component : Option String} {s : Schema}
    (h : r.target v = .ok (component, s)) : s ∈ r.partsWith v := by
  cases v with
  | inline t =>
    obtain ⟨-, rfl⟩ := Prod.mk.inj (Except.ok.inj h)
    exact List.mem_append_right _ (Schema.mem_parts_self t)
  | ref pointer =>
    obtain ⟨key, -, hmem⟩ := exists_mem_schemas_of_target h
    refine List.mem_append_left _ (List.mem_flatMap.2 ⟨_, hmem, Schema.mem_parts_self s⟩)

end Resolver

/-! ## Steps of a way -/

/-- The schema that a list or a table of values passes on to. -/
def Schema.next (s : Schema) : Option (RefOr Schema) :=
  match s.kind with
  | .str "array" => s.items
  | .str "object" =>
    match s.properties, s.additional with
    | none, some (.schema values) => some values
    | _, _ => none
  | _ => none

theorem Schema.mem_inner_of_next {s : Schema} {v : RefOr Schema} (h : s.next = some v) :
    v ∈ s.inner := by
  unfold Schema.next at h
  split at h
  · simp [Schema.inner, h]
  · split at h
    · rename_i hadditional
      obtain rfl := Option.some.inj h
      simp [Schema.inner, hadditional]
    · cases h
  · cases h

namespace Resolver

variable {r : Resolver}

/-- One schema passes on to another, perhaps by pointers, without a named type in between. -/
def Passes (r : Resolver) (s t : Schema) : Prop :=
  ∃ v component, s.next = some v ∧ r.target v = .ok (component, t)

/-- Whether the way from a schema ends within `steps` steps. -/
def ends (r : Resolver) : Nat → RefOr Schema → Bool
  | 0, _ => false
  | steps + 1, v =>
    match r.target v with
    | .error _ => true
    | .ok (_, s) =>
      match s.next with
      | none => true
      | some w => r.ends steps w

theorem target_inline (r : Resolver) (s : Schema) : r.target (.inline s) = .ok (none, s) :=
  rfl

theorem ends_of_error {v : RefOr Schema} {e : Failure} (h : r.target v = .error e) (steps : Nat) :
    r.ends (steps + 1) v = true := by
  simp [ends, h]

theorem ends_of_target {v : RefOr Schema} {component : Option String} {s : Schema}
    (h : r.target v = .ok (component, s)) (steps : Nat) :
    r.ends steps v = r.ends steps (.inline s) := by
  cases steps with
  | zero => rfl
  | succ steps => simp only [ends, h, target_inline]

theorem ends_inline (r : Resolver) (s : Schema) (steps : Nat) :
    r.ends (steps + 1) (.inline s) = s.next.all (r.ends steps) := by
  rw [ends, target_inline]
  dsimp only
  cases s.next <;> rfl

theorem ends_mono {m n : Nat} (hmn : m ≤ n) {v : RefOr Schema} (h : r.ends m v = true) :
    r.ends n v = true := by
  induction m generalizing n v with
  | zero => cases h
  | succ m ih =>
    obtain ⟨n, rfl⟩ : ∃ k, n = k + 1 := ⟨n - 1, by omega⟩
    cases htarget : r.target v with
    | error e => exact ends_of_error htarget n
    | ok found =>
      obtain ⟨component, s⟩ := found
      rw [ends_of_target htarget, ends_inline] at h ⊢
      cases hnext : s.next with
      | none => rfl
      | some w =>
        rw [hnext] at h
        exact ih (by omega) h

/-! ## Ways without an end -/

theorem ends_of_passes {s t : Schema} (hpass : r.Passes s t) {steps : Nat}
    (h : r.ends (steps + 1) (.inline s) = true) : r.ends steps (.inline t) = true := by
  obtain ⟨v, component, hnext, htarget⟩ := hpass
  rw [ends_inline, hnext] at h
  exact (ends_of_target htarget steps) ▸ h

/-- A way that has an end does not lead back to where it starts. -/
theorem not_transGen_of_ends {s : Schema} {steps : Nat} (h : r.ends steps (.inline s) = true) :
    ¬ Relation.TransGen r.Passes s s := by
  induction steps generalizing s with
  | zero => cases h
  | succ steps ih =>
    intro hcycle
    -- the cycle is also one from the next schema on, whose way is shorter
    obtain ⟨t, hpass, hback⟩ := Relation.TransGen.head'_iff.1 hcycle
    exact ih (ends_of_passes hpass h) (Relation.TransGen.tail' hback hpass)

/-- No way that starts from the schema leads back to a schema it has passed. -/
def Grounded (r : Resolver) (s : Schema) : Prop :=
  ∀ t, Relation.ReflTransGen r.Passes s t → ¬ Relation.TransGen r.Passes t t

theorem Grounded.of_passes {s t : Schema} (h : r.Grounded s) (hpass : r.Passes s t) :
    r.Grounded t :=
  fun u hu => h u (Relation.ReflTransGen.head hpass hu)

theorem grounded_of_ends {s : Schema} {steps : Nat} (h : r.ends steps (.inline s) = true) :
    r.Grounded s := by
  intro t ht
  induction ht using Relation.ReflTransGen.head_induction_on generalizing steps with
  | refl => exact not_transGen_of_ends h
  | head hpass _ ih =>
    cases steps with
    | zero => cases h
    | succ steps => exact ih (ends_of_passes hpass h)

/-! ## The length of a way -/

open Classical in
/-- The schemas in the components that lie ahead on the way from a schema. -/
noncomputable def ahead (r : Resolver) (s : Schema) : List Schema :=
  r.parts.filter fun t => Relation.TransGen r.Passes s t

theorem mem_ahead {s t : Schema} :
    t ∈ r.ahead s ↔ t ∈ r.parts ∧ Relation.TransGen r.Passes s t := by
  simp [ahead]

theorem length_ahead_lt {s t : Schema} (h : r.Grounded s) (hpass : r.Passes s t)
    (ht : t ∈ r.parts) : (r.ahead t).length < (r.ahead s).length := by
  have hsub : (r.ahead t).Sublist (r.ahead s) := by
    refine List.monotone_filter_right _ fun u hu => ?_
    simp only [decide_eq_true_eq] at hu ⊢
    exact Relation.TransGen.head hpass hu
  refine Nat.lt_of_le_of_ne hsub.length_le fun hlen => ?_
  have hmem : t ∈ r.ahead t := by
    rw [hsub.eq_of_length hlen]
    exact mem_ahead.2 ⟨ht, Relation.TransGen.single hpass⟩
  exact h t (Relation.ReflTransGen.single hpass) (mem_ahead.1 hmem).2

theorem length_ahead_lt_length_parts {s : Schema} (h : r.Grounded s) (hs : s ∈ r.parts) :
    (r.ahead s).length < r.parts.length := by
  refine Nat.lt_of_le_of_ne (List.length_filter_le _ _) fun hlen => ?_
  have hmem : s ∈ r.ahead s := by
    rw [ahead, List.filter_sublist.eq_of_length hlen]
    exact hs
  exact h s .refl (mem_ahead.1 hmem).2

/-- The way from a schema in the components ends once it has passed all that lies ahead; the last
step may be a pointer that leads nowhere. -/
theorem ends_ahead {s : Schema} (h : r.Grounded s) (hs : s ∈ r.parts) :
    r.ends ((r.ahead s).length + 2) (.inline s) = true := by
  rw [ends_inline]
  cases hnext : s.next with
  | none => rfl
  | some v =>
    rw [Option.all_some]
    cases htarget : r.target v with
    | error e => exact ends_of_error htarget _
    | ok found =>
      obtain ⟨component, t⟩ := found
      have hpass : r.Passes s t := ⟨v, component, hnext, htarget⟩
      have ht : t ∈ r.parts := by
        rcases List.mem_append.1 (mem_of_target htarget) with ht | ht
        · exact ht
        · exact refParts_subset_parts (Schema.mem_inner_of_next hnext) hs ht
      have hlt : (r.ahead t).length < (r.ahead s).length := length_ahead_lt h hpass ht
      rw [ends_of_target htarget]
      exact ends_mono (by omega) (ends_ahead (h.of_passes hpass) ht)
  termination_by (r.ahead s).length
  decreasing_by exact hlt

theorem ends_of_mem_parts {s : Schema} (h : r.Grounded s) (hs : s ∈ r.parts) :
    r.ends (r.parts.length + 1) (.inline s) = true :=
  ends_mono (by have := length_ahead_lt_length_parts h hs; omega) (ends_ahead h hs)

/-- A way that leads back to no schema it has passed ends within as many steps as there are schemas
in the components and in the one it starts from, and one more. -/
theorem ends_of_grounded {v : RefOr Schema}
    (h : ∀ component s, r.target v = .ok (component, s) → r.Grounded s) :
    r.ends (r.bound v) v = true := by
  rw [bound_eq, ← length_parts]
  match v with
  | .ref pointer =>
    cases htarget : r.target (.ref pointer) with
    | error e => exact ends_of_error htarget _
    | ok found =>
      obtain ⟨component, s⟩ := found
      obtain ⟨key, -, hmem⟩ := exists_mem_schemas_of_target htarget
      rw [ends_of_target htarget]
      refine ends_of_mem_parts (h _ _ htarget) ?_
      exact List.mem_flatMap.2 ⟨_, hmem, Schema.mem_parts_self s⟩
  | .inline s =>
    rw [ends_inline]
    cases hnext : s.next with
    | none => rfl
    | some w =>
      have hlt : Schema.refWeight w < Schema.weight s :=
        Schema.refWeight_lt_of_mem_inner (Schema.mem_inner_of_next hnext)
      have hw : r.ends (r.bound w) w = true := ends_of_grounded fun component t htarget =>
        (h none s rfl).of_passes ⟨w, component, hnext, htarget⟩
      rw [bound_eq, ← length_parts] at hw
      rw [Option.all_some]
      exact ends_mono (by simp only [Schema.refWeight]; omega) hw
  termination_by Schema.refWeight v
  decreasing_by exact hlt

/-- A way that has an end comes to it within the bound of the schema it starts from. -/
theorem ends_bound {v : RefOr Schema} {steps : Nat} (h : r.ends steps v = true) :
    r.ends (r.bound v) v = true :=
  ends_of_grounded fun _ _ htarget => grounded_of_ends ((ends_of_target htarget steps) ▸ h)

end Resolver

end ApiClient
