import ApiClient.Proofs.Client.Growth
import ApiClient.Proofs.Types.Reserved
import Mathlib

/-!
# Components keep their names

What `Resolver.Owns` says of the calls of a resolver holds of a whole client too: when a client has
been made, every component that is an object with properties and owns the name of its type is
registered under it (`component_names_reserved`).
-/

namespace ApiClient

open Naming Working

/-- A client that is made of a document holds the types of its components under their names. -/
theorem Client.holds_of_draft {settings : Settings} {source : Client.PageSource} {d : Document}
    {dialect : Dialect} {files : Client.Files} {final : Draft} {key : String} {c : Schema}
    (hdialect : Dialect.find settings.dialect = .ok dialect)
    (h : outcome (draft settings source d) {} = (.ok files, final)) :
    let r : Resolver := ⟨some d.components, dialect, settings.namespaceName⟩
    r.Owns key c → c.IsRecord → r.Holds final.types.types key c := by
  intro r howns hrecord
  obtain ⟨journal, named, -, -, -, hcomponents, hgrows, -⟩ := exists_of_draft hdialect h
  exact (howns.holds_of_resolveComponents hrecord r.sound_nil hcomponents).later hgrows

/-- A pointer that leads to an object in one step. -/
theorem Pointer.follow_of_resolve {c : Components} {expected : Option (List Section)}
    {pointer name : String} {found : Component}
    (h : resolve (some c) expected pointer = .ok (name, .inline found)) :
    follow (some c) expected pointer = ⟨[pointer], .ok (name, found)⟩ := by
  rw [follow, followFrom]
  split
  · rename_i e he
    rw [h] at he
    cases he
  · rename_i name' found' he
    rw [h] at he
    obtain ⟨rfl, hfound⟩ := Prod.mk.inj (Except.ok.inj he)
    rw [RefOr.inline.inj hfound]
  · rename_i name' next he
    rw [h] at he
    cases he

namespace Resolver

/-- The name of a component is kept for it. Whatever a resolver that starts without types is asked
for, a type of this name has a schema that equals the component's. So a pointer to the component,
if it is an object with properties, gives the type of this very name, from outside and in the
middle of other calls, and when a client has been made, the component is registered under it. -/
theorem component_names_reserved (r : Resolver) {key : String} {c : Schema}
    (howns : r.Owns key c) :
    (∀ journal queries, ∀ t ∈ (r.afterAll ⟨[], journal⟩ queries).types,
      t.name = r.componentName key → t.schema.same c = true) ∧
    (c.IsRecord → r.componentName key ≠ "" → ∀ pointer,
      (Pointer.follow r.components (some [.schemas]) pointer).outcome =
        .ok (className key, .schema c) →
      (∀ journal queries name parent property,
        let call := outcome (r.resolve (.ref pointer) name parent property)
          (r.afterAll ⟨[], journal⟩ queries)
        r.Holds call.2.types key c ∧
          ∀ spelling, call.1 = .ok spelling → spelling = r.componentSpelling key) ∧
      ∀ journal s, r.Path [] ⟨[], journal⟩ s →
        ∀ bound types steps name parent property spelling,
          (outcome (r.resolveSteps (r.completeType bound types) steps (.ref pointer) name parent
            property) s).1 = .ok spelling → spelling = r.componentSpelling key) ∧
    (c.IsRecord → ∀ (settings : Settings) source (d : Document) files final,
      Dialect.find settings.dialect = .ok r.dialect → r.components = some d.components →
      r.namespaceName = settings.namespaceName →
      outcome (Client.draft settings source d) {} = (.ok files, final) →
      r.Holds final.types.types key c) := by
  refine ⟨fun journal queries t ht hname => ?_, fun hrecord hne pointer hpointer => ⟨?_, ?_⟩, ?_⟩
  · exact howns.same_of_sound (sound_afterAll r journal queries) ht hname
  · intro journal queries name parent property
    obtain ⟨complete, steps, hcomplete, heq⟩ := r.exists_resolve_eq (.ref pointer)
    rw [heq]
    exact howns.resolveSteps (sound_afterAll r journal queries) hrecord hne hcomplete steps
      (subject_of_follow hpointer name parent property)
  · intro journal s hpath bound types steps name parent property spelling hcall
    cases steps with
    | zero => cases hcall
    | succ steps =>
      exact (howns.resolveSteps (hpath.sound r.sound_nil) hrecord hne
        (completes_completeType bound types) steps
        (subject_of_follow hpointer name parent property)).2 spelling hcall
  · intro hrecord settings source d files final hdialect hcomponents hnamespace hdraft
    obtain ⟨components, dialect, namespaceName⟩ := r
    obtain rfl : components = some d.components := hcomponents
    obtain rfl : namespaceName = settings.namespaceName := hnamespace
    exact Client.holds_of_draft hdialect hdraft howns hrecord

/-- An object in a path asks for the name of a component before the component is resolved: it gets
a number, and a pointer to the component gives the name without one. -/
theorem component_names_reserved_item :
    let r : Resolver := ⟨some { schemas := [("Item", .inline (.single "id"))] }, .python, "acme"⟩
    let first : Query := .type (.inline (.single "name")) (some "item") none .null
    let call := outcome (r.resolve (.ref "#/components/schemas/Item")) (r.afterAll {} [first])
    (r.afterAll {} [first]).types.names = ["Item2"] ∧
      call.1 = .ok ⟨"Item", "acme.schemas.Item", ["Item"]⟩ ∧
      r.Holds call.2.types "Item" (.single "id") ∧
      ∀ spelling, call.1 = .ok spelling → spelling = r.componentSpelling "Item" := by
  intro r first call
  have howns : r.Owns "Item" (.single "id") := ⟨_, [], [], rfl, rfl, by simp⟩
  have hsplit : Pointer.split "#/components/schemas/Item" = .ok ("schemas", "Item") := by
    decide +kernel
  have hkey : Pointer.unescape "Item" = "Item" := by decide +kernel
  have hsection : Section.ofKey? "schemas" = some .schemas := by decide +kernel
  have hresolve : Pointer.resolve r.components (some [.schemas]) "#/components/schemas/Item" =
      .ok (className "Item", .inline (.schema (.single "id"))) := by
    rw [Pointer.resolve, hsplit]
    simp only [bind, Except.bind, hkey, hsection]
    rfl
  have hpointer := congrArg Pointer.Chain.outcome (Pointer.follow_of_resolve hresolve)
  have hname : r.componentName "Item" ≠ "" := by decide +kernel
  have hkept := ((component_names_reserved r howns).2.1 (Schema.isRecord_single "id") hname _
    hpointer).1 [] [first] none none .null
  exact ⟨by decide +kernel, congrArg Prod.fst (outcome_of_toOption (by decide +kernel)), hkept⟩

end Resolver

end ApiClient
