import ApiClient.Proofs.Types.WriteOnce
import Mathlib

/-!
# The names of components

A component owns the name of its type when no earlier component has the same one (`Owns`). No other
schema is ever registered under a name that is owned (`Owns.same_of_sound`), so the first name that
is tried for the component itself is always available to it, and it gets this name whatever has
been resolved before (`Owns.resolveSteps`, `Owns.holds_of_resolveComponents`).
-/

namespace ApiClient.Resolver

open Naming Working

variable {r : Resolver} {key : String} {c : Schema} {s s' : TypeState}

/-- The name of the type of a component. -/
def componentName (r : Resolver) (key : String) : String :=
  r.dialect.typeName (className key)

/-- `c` is the schema of the component `key`, and no component before it, pointers not counted, has
a type of the same name. -/
def Owns (r : Resolver) (key : String) (c : Schema) : Prop :=
  ∃ components before after, r.components = some components ∧
    components.schemas = before ++ (key, .inline c) :: after ∧
    ∀ key' c', (key', RefOr.inline c') ∈ before → r.componentName key' ≠ r.componentName key

theorem Owns.reserved_get? (h : r.Owns key c) : r.reserved.get? (r.componentName key) = some c := by
  obtain ⟨components, before, after, hcomponents, hschemas, hfirst⟩ := h
  rw [reserved, hcomponents, Table.get?]
  dsimp only
  rw [hschemas, List.filterMap_append, List.lookup_append, List.lookup_eq_none_iff.2]
  · simp [componentName]
  · intro e he
    obtain ⟨⟨key', value⟩, hmem, hvalue⟩ := List.mem_filterMap.1 he
    cases value with
    | ref pointer => cases hvalue
    | inline c' =>
      obtain rfl := Option.some.inj hvalue
      simpa [componentName] using (hfirst key' c' hmem).symm

/-- A type with the name of a component has a schema that equals the component's. -/
theorem Owns.same_of_sound (h : r.Owns key c) (hs : r.Sound s.types) {t : NamedType}
    (ht : t ∈ s.types) (hname : t.name = r.componentName key) : t.schema.same c = true := by
  refine Schema.same_symm (hs.reserved t.head (List.mem_map_of_mem ht) c ?_)
  rw [← h.reserved_get?, ← hname]
  rfl

theorem Owns.firstAvailable (h : r.Owns key c) (hs : r.Sound s.types) :
    r.FirstAvailable s.types (r.componentName key) c 0 := by
  refine ⟨?_, fun m hm => absurd hm (Nat.not_lt_zero m)⟩
  show r.available s.types (r.componentName key) c = true
  cases hfind : s.types.find (r.componentName key) with
  | none =>
    rw [available_of_find_none hfind, h.reserved_get?]
    exact Schema.same_refl c
  | some t =>
    rw [available_of_find hfind]
    exact h.same_of_sound hs (Registry.mem_of_find hfind) (Registry.name_of_find hfind)

/-- The spelling of the type of a component. -/
def componentSpelling (r : Resolver) (key : String) : Spelling :=
  ⟨r.componentName key, Dialect.qualify r.namespaceName (r.componentName key),
    [r.componentName key]⟩

/-- The component is registered under its own name, with its own schema. -/
def Holds (r : Resolver) (types : Registry) (key : String) (c : Schema) : Prop :=
  ∃ t, types.find (r.componentName key) = some t ∧ t.schema.same c = true

theorem Holds.later {frozen : List String} (h : r.Holds s.types key c)
    (hpath : r.Path frozen s s') : r.Holds s'.types key c := by
  obtain ⟨t, ht, hsame⟩ := h
  obtain ⟨t', ht', hhead⟩ := hpath.find ht
  exact ⟨t', ht', by rwa [NamedType.schema_of_head hhead]⟩

/-- A call, from outside or from within another one, that is about a component and wants the name
of the component registers it under this name, and gives no other. -/
theorem Owns.resolveSteps (h : r.Owns key c) (hs : r.Sound s.types) (hrecord : c.IsRecord)
    (hname : r.componentName key ≠ "") {complete : String → Schema → Resolving Unit}
    (hcomplete : r.Completes complete) (steps : Nat) {value : RefOr Schema}
    {name parent : Option String} {property : Json}
    (hsubject : r.subject value name parent property = .ok (c, some (r.componentName key))) :
    let call := outcome (r.resolveSteps complete (steps + 1) value name parent property) s
    r.Holds call.2.types key c ∧
      ∀ spelling, call.1 = .ok spelling → spelling = r.componentSpelling key := by
  intro call
  obtain ⟨n, t, hfirst, hfind, hsame, hspelling⟩ :=
    registered_of_resolveSteps hcomplete steps hsubject hrecord hname s
  obtain rfl := hfirst.unique (h.firstAvailable hs)
  refine ⟨⟨t, hfind, hsame⟩, fun spelling hcall => ?_⟩
  have hsound : r.Sound call.2.types :=
    Path.sound (grows_resolveSteps hcomplete (steps + 1) value name parent property s) hs
  have hqualified := hsound.qualified t.head (List.mem_map_of_mem (Registry.mem_of_find hfind))
  have htname : t.name = r.componentName key := Registry.name_of_find hfind
  rw [hspelling spelling hcall, NamedType.spelling, componentSpelling, ← htname]
  exact congrArg (fun q => (⟨t.name, q, [t.name]⟩ : Spelling)) hqualified

theorem subject_of_follow {pointer : String}
    (hpointer : (Pointer.follow r.components (some [.schemas]) pointer).outcome =
      .ok (className key, .schema c)) (name parent : Option String) (property : Json) :
    r.subject (.ref pointer) name parent property = .ok (c, some (r.componentName key)) := by
  rw [subject, target, hpointer]
  rfl

theorem Owns.holds_of_resolveEach (h : r.Owns key c) (hrecord : c.IsRecord)
    {entries : List (String × RefOr Schema)} (hs : r.Sound s.types) (hmem : (key, .inline c) ∈ entries)
    (hcall : outcome (r.resolveEach entries) s = (.ok (), s')) : r.Holds s'.types key c := by
  obtain ⟨s₁, spelling, s₂, hpath, hresolve, hlater⟩ := exists_resolve_of_mem hmem hcall
  obtain ⟨complete, steps, hcomplete, hsteps⟩ := r.exists_resolve_eq (.inline c)
  rw [hsteps] at hresolve
  obtain ⟨wanted, hwanted, hsubject⟩ := exists_subject rfl hrecord hresolve
  obtain ⟨-, hw⟩ := Prod.mk.inj (Except.ok.inj hsubject)
  obtain rfl : r.componentName key = wanted := Option.some.inj hw
  have hholds := (h.resolveSteps (hpath.sound hs) hrecord hwanted hcomplete steps hsubject).1
  rw [hresolve] at hholds
  exact hholds.later hlater

/-- Once all components are resolved, the component is registered under its own name. -/
theorem Owns.holds_of_resolveComponents (h : r.Owns key c) (hrecord : c.IsRecord)
    (hs : r.Sound s.types) (hcall : outcome r.resolveComponents s = (.ok (), s')) :
    r.Holds s'.types key c := by
  obtain ⟨components, before, after, hcomponents, hschemas, -⟩ := id h
  refine h.holds_of_resolveEach hrecord hs ?_ hcall
  simp [hcomponents, hschemas]

end ApiClient.Resolver
