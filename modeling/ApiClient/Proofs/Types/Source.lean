import ApiClient.Proofs.Types.Head
import Mathlib

/-!
# The schemas of types

A type is registered for a schema that a call comes to, which is one of the components or one in the
schema that the call is for. So when these have a property, then so have the schemas of all types that
the call leaves behind (`Resolver.from_resolve`).
-/

namespace ApiClient.Resolver

open Naming Working

variable {r : Resolver} {Q : Schema → Prop} {s : TypeState} {name : Option String} {head schema : Schema}

/-! ## Schemas within reach -/

theorem parts_subset_partsWith_of_target {value : RefOr Schema} {component : Option String}
    (h : r.target value = .ok (component, schema)) :
    r.partsWith (.inline schema) ⊆ r.partsWith value := by
  cases value with
  | inline t =>
    obtain ⟨-, rfl⟩ := Prod.mk.inj (Except.ok.inj h)
    exact List.Subset.refl _
  | ref pointer =>
    obtain ⟨key, -, hmem⟩ := exists_mem_schemas_of_target h
    refine List.append_subset.2 ⟨List.subset_append_left _ _, fun t ht => ?_⟩
    exact List.mem_append_left _ (List.mem_flatMap.2 ⟨_, hmem, ht⟩)

/-- All schemas within reach of a call for this schema have the property. -/
def Reaches (r : Resolver) (Q : Schema → Prop) (value : RefOr Schema) : Prop :=
  ∀ t ∈ r.partsWith value, Q t

theorem Reaches.target {value : RefOr Schema} (h : r.Reaches Q value) {component : Option String}
    (htarget : r.target value = .ok (component, schema)) : r.Reaches Q (.inline schema) :=
  fun t ht => h t (parts_subset_partsWith_of_target htarget ht)

theorem Reaches.self (h : r.Reaches Q (.inline schema)) : Q schema :=
  h schema (List.mem_append_right _ (Schema.mem_parts_self schema))

theorem Reaches.inner (h : r.Reaches Q (.inline schema)) {v : RefOr Schema} (hv : v ∈ schema.inner) :
    r.Reaches Q v :=
  fun t ht => h t (partsWith_subset hv (List.mem_append_right _ (Schema.mem_parts_self schema)) ht)

/-! ## Types -/

/-- The schemas of all types have the property. -/
def AreFrom (Q : Schema → Prop) (types : Registry) : Prop :=
  ∀ t ∈ types.heads, Q t.schema

theorem AreFrom.of_mem {types : Registry} (h : AreFrom Q types) {t : NamedType} (ht : t ∈ types) :
    Q t.schema :=
  h t.head (List.mem_map_of_mem ht)

theorem areFrom_nil (Q : Schema → Prop) : AreFrom Q [] := by
  simp [AreFrom, Registry.heads]

theorem AreFrom.addField {types : Registry} (h : AreFrom Q types) (name : String) (f : Field) :
    AreFrom Q (types.addField name f) := by
  rw [AreFrom, Registry.heads_addField]
  exact h

theorem AreFrom.registered (h : AreFrom Q s.types) (hhead : Q head) (wanted : String) (n : Nat) :
    AreFrom Q (r.registered s wanted head n).types := by
  rw [AreFrom, Resolver.registered, Registry.heads_add]
  exact List.forall_mem_append.2 ⟨h, List.forall_mem_singleton.2 hhead⟩

/-! ## Calls -/

/-- What fills a type leaves types behind whose schemas have the property, if all within reach of the
type do. -/
def FillsFrom (r : Resolver) (Q : Schema → Prop) (complete : String → Schema → Resolving Unit) : Prop :=
  ∀ ⦃name schema⦄ ⦃s : TypeState⦄, r.Reaches Q (.inline schema) → AreFrom Q s.types →
    AreFrom Q (outcome (complete name schema) s).2.types

/-- A way that leaves types behind whose schemas have the property, if all within its reach do. -/
def WayFrom (r : Resolver) (Q : Schema → Prop) (resolve : Way) : Prop :=
  ∀ ⦃value name parent property⦄ ⦃s : TypeState⦄, r.Reaches Q value → AreFrom Q s.types →
    AreFrom Q (outcome (resolve value name parent property) s).2.types

theorem from_resolveNamed {complete : String → Schema → Resolving Unit} (hcomplete : r.FillsFrom Q complete)
    (hreach : r.Reaches Q (.inline head)) (h : AreFrom Q s.types) :
    AreFrom Q (outcome (r.resolveNamed complete head name) s).2.types := by
  rcases name with _ | wanted
  · exact h
  by_cases hempty : wanted = ""
  · subst hempty
    exact h
  obtain ⟨n, -, ⟨t, -, hrun⟩ | ⟨-, hrun⟩⟩ := outcome_resolveNamed r complete head hempty s
  · rw [hrun]
    exact h
  · rw [hrun]
    exact hcomplete hreach (h.registered hreach.self wanted n)

theorem wayFrom_resolveSteps {complete : String → Schema → Resolving Unit}
    (hcomplete : r.FillsFrom Q complete) : ∀ steps, r.WayFrom Q (r.resolveSteps complete steps)
  | 0, _, _, _, _, _, _, h => h
  | steps + 1, value, name, parent, property, s, hreach, h => by
    rw [outcome_resolveSteps]
    cases hsubject : r.subject value name parent property with
    | error e => exact h
    | ok found =>
      obtain ⟨schema, passed⟩ := found
      obtain ⟨component, htarget, -⟩ := target_of_subject hsubject
      have hschema : r.Reaches Q (.inline schema) := hreach.target htarget
      dsimp only
      by_cases hhead : schema.IsRecord
      · rw [resolveKind_of_isRecord hhead]
        exact from_resolveNamed hcomplete hschema h
      cases hnext : schema.next with
      | some v =>
        rw [resolveKind_of_next hnext, outcome_bind]
        have hv : r.Reaches Q v := hschema.inner (Schema.mem_inner_of_next hnext)
        split <;> exact wayFrom_resolveSteps hcomplete steps hv h
      | none =>
        obtain ⟨work, hwork, hkind⟩ := exists_resolveKind_of_last (r := r) hhead hnext
        rw [hkind]
        obtain ⟨text, -, rfl⟩ | ⟨cause, -, rfl⟩ := hwork <;> exact h

theorem from_addFields {resolve : Way} (hresolve : r.WayFrom Q resolve) {name : String}
    (hreach : r.Reaches Q (.inline schema)) : ∀ {properties : List (String × RefOr Schema)}
      {s : TypeState}, properties ⊆ schema.properties.getD [] → AreFrom Q s.types →
        AreFrom Q (outcome (r.addFields resolve name schema properties) s).2.types
  | [], _, _, h => h
  | (property, value) :: rest, s, hsub, h => by
    obtain ⟨hproperty, hrest⟩ := List.cons_subset.1 hsub
    have hvalue : AreFrom Q (outcome (resolve value none (some name) (.str property)) s).2.types :=
      hresolve (hreach.inner (Schema.mem_inner_of_mem_properties hproperty)) h
    rw [addFields, outcome_bind, within, outcome_within]
    rcases hrun : outcome (resolve value none (some name) (.str property)) s with ⟨e | type, s₁⟩ <;>
      rw [hrun] at hvalue
    · exact hvalue
    · dsimp only [Except.mapError]
      rw [outcome_bind_of_ok (outcome_modify _ _)]
      exact from_addFields hresolve hreach hrest (hvalue.addField _ _)

theorem fillsFrom_completeType (steps : Nat) : ∀ types, r.FillsFrom Q (r.completeType steps types)
  | 0, _, _, _, _, h => h
  | types + 1, _, _, _, hreach, h =>
    from_addFields (wayFrom_resolveSteps (fillsFrom_completeType steps types) steps) hreach
      (List.Subset.refl _) h

/-- A call leaves types behind whose schemas have the property, if all within its reach do. -/
theorem from_resolve {value : RefOr Schema} {parent : Option String} {property : Json}
    {result : Except Failure Spelling} {s' : TypeState} (hreach : r.Reaches Q value)
    (hrun : outcome (r.resolve value name parent property) s = (result, s')) (h : AreFrom Q s.types) :
    AreFrom Q s'.types := by
  have hfrom : AreFrom Q (outcome (r.resolve value name parent property) s).2.types :=
    wayFrom_resolveSteps (fillsFrom_completeType _ _) _ hreach h
  rwa [hrun] at hfrom

theorem from_resolveEach : ∀ {entries : List (String × RefOr Schema)} {s : TypeState},
    (∀ e ∈ entries, r.Reaches Q e.2) → AreFrom Q s.types →
      AreFrom Q (outcome (r.resolveEach entries) s).2.types
  | [], _, _, h => h
  | (key, value) :: rest, s, hreach, h => by
    obtain ⟨hentry, hrest⟩ := List.forall_mem_cons.1 hreach
    rw [resolveEach, outcome_bind, within, outcome_within]
    rcases hrun : outcome (r.resolve value (some (className key))) s with ⟨e | type, s₁⟩
    · exact from_resolve hentry hrun h
    · exact from_resolveEach hrest (from_resolve hentry hrun h)

end ApiClient.Resolver
