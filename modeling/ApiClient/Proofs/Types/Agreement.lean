import ApiClient.Proofs.Types.Closure
import Mathlib

/-!
# The journal is not read

What a resolver answers and registers depends on the types that are there, and on nothing that has
been reported before (`agrees_resolveComponents`). This is a closed property of work; a claim is the
only step that looks at the state (`agrees_claim`).
-/

namespace ApiClient.Resolver

open Naming Working

variable {r : Resolver}

/-- Two states with the same types. -/
def SameTypes (s t : TypeState) : Prop :=
  s.types = t.types

theorem agrees_record (entries : Journal) : Agrees SameTypes (record entries) :=
  Agrees.modify fun _ _ h => h

theorem agrees_claim (r : Resolver) (name : String) (schema : Schema) :
    Agrees SameTypes (r.claim name schema) := by
  intro s t h
  have htypes : s.types = t.types := h
  obtain ⟨m, hm, hs⟩ := outcome_claim r name schema s
  obtain ⟨n, hn, ht⟩ := outcome_claim r name schema t
  rw [htypes] at hm
  obtain rfl := hm.unique hn
  rw [hs, ht, htypes]
  exact ⟨rfl, rfl⟩

/-- What fills a new type does not read the journal. -/
def CompletesAlike (complete : String → Schema → Resolving Unit) : Prop :=
  ∀ name schema, Agrees SameTypes (complete name schema)

/-- A way to the types of schemas that does not read the journal. -/
def WayAgrees (resolve : Way) : Prop :=
  ∀ value name parent property, Agrees SameTypes (resolve value name parent property)

theorem agrees_addFields {resolve : Way} (hresolve : WayAgrees resolve) (name : String)
    (schema : Schema) : ∀ properties : List (String × RefOr Schema),
      Agrees SameTypes (r.addFields resolve name schema properties)
  | [] => Agrees.pure ()
  | (property, value) :: rest => by
    refine ((hresolve value none (some name) (.str property)).within _).bind fun type => ?_
    refine (Agrees.modify fun s t h => ?_).bind fun _ => agrees_addFields hresolve name schema rest
    exact congrArg (fun types => Registry.addField types name _) h

theorem agrees_resolveNamed {complete : String → Schema → Resolving Unit}
    (hcomplete : CompletesAlike complete) (schema : Schema) (name : Option String) :
    Agrees SameTypes (r.resolveNamed complete schema name) := by
  unfold resolveNamed
  split
  · exact Agrees.throw _
  · exact Agrees.throw _
  · refine (agrees_claim r _ schema).bind fun ⟨found, existing⟩ => ?_
    cases existing with
    | some t => exact Agrees.pure _
    | none =>
      refine (Agrees.modify fun s t h => ?_).bind fun _ => (agrees_record _).bind fun _ =>
        (hcomplete found schema).bind fun _ => Agrees.pure _
      exact congrArg (fun types => Registry.add types _) h

theorem agrees_resolveSteps {complete : String → Schema → Resolving Unit}
    (hcomplete : CompletesAlike complete) (steps : Nat) :
    WayAgrees (r.resolveSteps complete steps) :=
  closed_resolveSteps closed_agrees (fun value => agrees_record (r.hops value))
    (fun schema wanted => agrees_resolveNamed hcomplete schema (wanted.map r.dialectName)) steps

theorem agrees_completeType (steps : Nat) : ∀ types, CompletesAlike (r.completeType steps types)
  | 0, _, _ => Agrees.throw _
  | types + 1, name, schema =>
    agrees_addFields (agrees_resolveSteps (agrees_completeType steps types) steps) name schema _

theorem agrees_resolve (value : RefOr Schema) (name parent : Option String) (property : Json) :
    Agrees SameTypes (r.resolve value name parent property) :=
  agrees_resolveSteps (agrees_completeType _ _) _ _ _ _ _

/-- The types of the components do not depend on what has been reported before. -/
theorem agrees_resolveComponents (r : Resolver) : Agrees SameTypes r.resolveComponents :=
  closed_resolveEach closed_agrees (fun value _ => agrees_resolve value _ _ _) _

end ApiClient.Resolver
