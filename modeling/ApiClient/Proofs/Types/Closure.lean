import ApiClient.Proofs.Types.Call
import Mathlib

/-!
# Closed properties of resolving

A property of work that is closed (`Working.Closed`) holds of a call when it holds of the reports
about pointers and of what is done for objects with properties (`closed_resolveSteps`). It holds of
resolving all components when it holds of every call (`closed_resolveEach`).
-/

namespace ApiClient.Resolver

open Working

variable {r : Resolver} {P : ∀ α : Type, Resolving α → Prop}
  {complete : String → Schema → Resolving Unit} {resolve : Way}

theorem closed_follow (hP : Closed P) (hhops : ∀ value, P Unit (record (r.hops value)))
    (value : RefOr Schema) : P _ (r.follow value) := by
  cases value with
  | inline schema => exact hP.pure _
  | ref pointer =>
    refine hP.bind (hhops (.ref pointer)) fun _ => ?_
    split
    · exact hP.pure _
    · exact hP.throw _
    · exact hP.throw _

theorem closed_resolveObject (hP : Closed P) (schema : Schema) {name : Option String}
    (hnamed : P _ (r.resolveNamed complete schema name))
    (hresolve : ∀ value name parent property, P _ (resolve value name parent property)) :
    P _ (r.resolveObject complete resolve schema name) := by
  unfold resolveObject
  split
  · exact hP.pure _
  · exact hnamed
  · exact hP.throw _
  · exact hP.bind (hresolve _ _ _ _) fun value => hP.pure _
  · split
    · exact hP.throw _
    · exact hP.pure _

theorem closed_resolveArray (hP : Closed P) (schema : Schema)
    (hresolve : ∀ value name parent property, P _ (resolve value name parent property))
    (name parent : Option String) (property : Json) :
    P _ (r.resolveArray resolve schema name parent property) := by
  unfold resolveArray
  split
  · exact hP.throw _
  · exact hP.bind (hresolve _ _ _ _) fun item => hP.pure _

theorem closed_resolveScalar (hP : Closed P) (kind format : Json) :
    P _ (r.resolveScalar kind format) := by
  unfold resolveScalar
  split
  · split
    · exact hP.pure _
    · exact hP.throw _
  · exact hP.throw _
  · exact hP.throw _
  · exact hP.throw _

theorem closed_resolveKind (hP : Closed P) (schema : Schema) {name : Option String}
    (hnamed : P _ (r.resolveNamed complete schema name))
    (hresolve : ∀ value name parent property, P _ (resolve value name parent property))
    (parent : Option String) (property : Json) :
    P _ (r.resolveKind complete resolve schema name parent property) := by
  unfold resolveKind
  split
  · exact closed_resolveObject hP schema hnamed hresolve
  · exact closed_resolveArray hP schema hresolve _ _ _
  · exact closed_resolveScalar hP _ _

/-- A closed property holds of a call when it holds of the reports about pointers and of what is
done for objects with properties. -/
theorem closed_resolveSteps (hP : Closed P) (hhops : ∀ value, P Unit (record (r.hops value)))
    (hnamed : ∀ schema wanted,
      P _ (r.resolveNamed complete schema (Option.map r.dialectName wanted))) (steps : Nat) :
    ∀ value name parent property,
      P _ (r.resolveSteps complete steps value name parent property) := by
  induction steps with
  | zero =>
    intro value name parent property
    exact hP.throw _
  | succ steps hresolve =>
    intro value name parent property
    rw [resolveSteps]
    refine hP.bind (closed_follow hP hhops value) fun found => ?_
    obtain ⟨component, schema⟩ := found
    have hkind : ∀ wanted, P _ (r.resolveKind complete (r.resolveSteps complete steps) schema
        (Option.map r.dialectName wanted) parent property) := fun wanted =>
      closed_resolveKind hP schema (hnamed schema wanted) hresolve parent property
    dsimp only
    -- whether there is a name or none, what follows is the same block
    split
    · exact hP.bind (hP.pure _) hkind
    · exact hP.bind (hP.throw _) hkind

theorem closed_resolveEach (hP : Closed P)
    (hresolve : ∀ value name, P Spelling (r.resolve value name)) :
    ∀ entries, P _ (r.resolveEach entries)
  | [] => hP.pure _
  | (_, value) :: rest =>
    hP.bind (hP.within _ (hresolve value _)) fun _ => closed_resolveEach hP hresolve rest

end ApiClient.Resolver
