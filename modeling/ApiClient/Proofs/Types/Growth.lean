import ApiClient.Proofs.Types.Closure
import Mathlib

/-!
# Resolving only adds types

Every call of a resolver, whether it succeeds or fails, makes edits that leave the types that were
there alone, fields included (`grows_resolve`, `grows_resolveComponents`). This is a closed property
of work; what carries it through the middle of a call is that the type which is being filled was not
there when the call began (`Completes`).
-/

namespace ApiClient.Resolver

open Naming Working

variable {r : Resolver} {frozen : List String} {s s' s'' : TypeState}

/-- Edits that leave all types alone that were there before the first of them. -/
def Grows (r : Resolver) (s s' : TypeState) : Prop :=
  r.Path s.types.names s s'

instance : Std.Refl r.Grows :=
  ⟨fun s => Path.refl s⟩

instance : IsTrans TypeState r.Grows :=
  ⟨fun _ _ _ h h' => Path.trans h (Path.weaken (Path.names_subset h) h')⟩

theorem Grows.types_isPrefix (h : r.Grows s s') : s.types <+: s'.types :=
  Path.frozen_isPrefix (List.Subset.refl _) h (List.prefix_refl _)

theorem grows_record (s : TypeState) (entries : Journal) :
    r.Grows s { s with journal := s.journal ++ entries } :=
  (Edit.record s entries).path

/-! ## Growth, function by function -/

/-- What fills a new type leaves every type alone that was registered before it. -/
def Completes (r : Resolver) (complete : String → Schema → Resolving Unit) : Prop :=
  ∀ frozen name schema s, name ∉ frozen → frozen ⊆ s.types.names →
    r.Path frozen s (outcome (complete name schema) s).2

/-- A way to the types of schemas that leaves the types alone that are there. -/
def WayGrows (r : Resolver) (resolve : Way) : Prop :=
  ∀ value name parent property, Moves r.Grows (resolve value name parent property)

theorem path_addFields {resolve : Way} (hresolve : r.WayGrows resolve) {name : String}
    (schema : Schema) (hname : name ∉ frozen) :
    ∀ (properties : List (String × RefOr Schema)) (s : TypeState), frozen ⊆ s.types.names →
      r.Path frozen s (outcome (r.addFields resolve name schema properties) s).2
  | [], s, _ => Path.refl s
  | (property, value) :: rest, s, hs => by
    have hvalue : r.Path frozen s (outcome (within (name ++ "." ++ property)
        (resolve value none (some name) (.str property))) s).2 :=
      Path.weaken hs ((hresolve value none (some name) (.str property)).within _ s)
    refine after_bind hvalue fun type s₁ h₁ => ?_
    rw [h₁] at hvalue
    have hs₁ : frozen ⊆ s₁.types.names := List.Subset.trans hs hvalue.names_subset
    refine after_bind (Edit.field s₁ _ hname).path fun _ s₂ h₂ => ?_
    obtain ⟨-, rfl⟩ := Prod.mk.inj h₂
    refine path_addFields hresolve schema hname rest _ ?_
    rw [Registry.names_addField]
    exact hs₁

theorem path_registered {n : Nat} {name : String} {schema : Schema}
    (hfirst : r.FirstAvailable s.types name schema n)
    (hname : r.IsCandidate (numbered name n)) (hfree : s.types.find (numbered name n) = none) :
    r.Path frozen s (r.registered s name schema n) := by
  let added : TypeState := { s with types := s.types.add (r.unfilled (numbered name n) schema) }
  have hedit : r.Edit frozen s added := Edit.register s hname hfree hfirst.1
  have hrecord : r.Edit frozen added (r.registered s name schema n) := by
    rw [registered, List.append_assoc]
    exact Edit.record added _
  exact hedit.path.trans hrecord.path

theorem grows_resolveNamed {complete : String → Schema → Resolving Unit}
    (hcomplete : r.Completes complete) (schema : Schema) {name : Option String}
    (hname : ∀ n ∈ name, ∃ base, n = r.dialect.typeName base) :
    Moves r.Grows (r.resolveNamed complete schema name) := by
  intro s
  rcases name with _ | name
  · exact Path.refl s
  by_cases hempty : name = ""
  · subst hempty
    exact Path.refl s
  obtain ⟨n, hfirst, ⟨t, -, houtcome⟩ | ⟨hfree, houtcome⟩⟩ :=
    outcome_resolveNamed r complete schema hempty s
  · rw [houtcome]
    exact Path.refl s
  · rw [houtcome]
    obtain ⟨base, rfl⟩ := hname name rfl
    have hregister : r.Path s.types.names s (r.registered s _ schema n) :=
      path_registered hfirst ⟨base, n, hempty, rfl⟩ hfree
    refine hregister.trans (hcomplete _ _ _ _ ?_ hregister.names_subset)
    exact Registry.find_eq_none_iff.1 hfree

theorem grows_resolveSteps {complete : String → Schema → Resolving Unit}
    (hcomplete : r.Completes complete) (steps : Nat) : r.WayGrows (r.resolveSteps complete steps) :=
  closed_resolveSteps closed_moves (fun value s => grows_record s (r.hops value))
    (fun schema wanted => grows_resolveNamed hcomplete schema (exists_typeName_of_map wanted)) steps

theorem completes_completeType (steps : Nat) : ∀ types, r.Completes (r.completeType steps types)
  | 0, _, _, _, s, _, _ => Path.refl s
  | types + 1, _, _, schema, s, hname, hs =>
    path_addFields (grows_resolveSteps (completes_completeType steps types) steps) schema hname _ s
      hs

theorem exists_resolve_eq (r : Resolver) (value : RefOr Schema) :
    ∃ complete steps, r.Completes complete ∧ ∀ name parent property,
      r.resolve value name parent property =
        r.resolveSteps complete (steps + 1) value name parent property :=
  ⟨_, _, completes_completeType _ _, fun _ _ _ => rfl⟩

/-- A call that resolves a schema leaves the types alone that are there. -/
theorem grows_resolve (value : RefOr Schema) (name parent : Option String) (property : Json) :
    Moves r.Grows (r.resolve value name parent property) :=
  grows_resolveSteps (completes_completeType _ _) _ _ _ _ _

theorem grows_resolveEach (entries : List (String × RefOr Schema)) :
    Moves r.Grows (r.resolveEach entries) :=
  closed_resolveEach closed_moves (fun value _ => grows_resolve value _ _ _) entries

/-- A run through components that has succeeded has made a call for each of them. -/
theorem exists_resolve_of_mem {key : String} {value : RefOr Schema} :
    ∀ {entries : List (String × RefOr Schema)} {s s' : TypeState}, (key, value) ∈ entries →
      outcome (r.resolveEach entries) s = (.ok (), s') → ∃ s₁ spelling s₂, r.Path [] s s₁ ∧
        outcome (r.resolve value (some (className key))) s₁ = (.ok spelling, s₂) ∧ r.Path [] s₂ s'
  | [], _, _, hmem, _ => by simp at hmem
  | (key', value') :: rest, s, s', hmem, hcall => by
    rw [resolveEach] at hcall
    obtain ⟨spelling, s₁, hvalue, hrest⟩ := exists_of_outcome_bind hcall
    have hresolve := outcome_of_within hvalue
    rcases List.mem_cons.1 hmem with heq | hmem
    · obtain ⟨rfl, rfl⟩ := Prod.mk.inj heq
      refine ⟨s, spelling, s₁, Path.refl s, hresolve, ?_⟩
      exact ((grows_resolveEach rest).leads hrest).weaken (List.nil_subset _)
    · obtain ⟨t, spelling', t', hpath, hcall', hlater⟩ := exists_resolve_of_mem hmem hrest
      have hgrows : r.Grows s s₁ := (grows_resolve value' _ _ _).leads hresolve
      exact ⟨t, spelling', t', (hgrows.weaken (List.nil_subset _)).trans hpath, hcall', hlater⟩

/-- A call that resolves all components leaves the types alone that are there. -/
theorem grows_resolveComponents (r : Resolver) : Moves r.Grows r.resolveComponents :=
  grows_resolveEach _

end ApiClient.Resolver
