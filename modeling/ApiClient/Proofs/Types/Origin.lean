import ApiClient.Proofs.Types.Termination
import Mathlib

/-!
# Where the names of types come from

While the components are resolved, it is a component or a property of a registered type that leads to an
object with properties and says what name is wanted for it (`Leads`). Every type that is registered is
accounted for in this way (`Traced`): something leads to its schema, and it has the name that is wanted, or
this name with a number, of which there is a warning. The invariant is carried through the fields of a type
by the type itself, which is registered before they are looked at, so what its properties lead to is led to
from then on (`traced_addFields`).
-/

namespace ApiClient.Resolver

open Naming Working

variable {r : Resolver} {s s' : TypeState} {head : Schema} {wanted : String} {value : RefOr Schema}
  {name parent : Option String} {property : Json}

/-! ## What leads to a schema -/

/-- A component, or a property of one of the types, leads to `head`, and `wanted` is the name for it. -/
def Leads (r : Resolver) (types : Registry) (head : Schema) (wanted : String) : Prop :=
  (∃ e ∈ r.schemas, r.HeadsEntry head wanted e) ∨
    ∃ t ∈ types.heads, ∃ p ∈ t.schema.properties.getD [],
      r.Heads head wanted p.2 none (some t.name) (.str p.1)

theorem Leads.later {types types' : Registry} (hheads : types.heads <+: types'.heads)
    (h : r.Leads types head wanted) : r.Leads types' head wanted := by
  obtain hentry | ⟨t, ht, p, hp, hproperty⟩ := h
  · exact Or.inl hentry
  · exact Or.inr ⟨t, hheads.subset ht, p, hp, hproperty⟩

theorem Heads.isRecord (h : r.Heads head wanted value name parent property) : head.IsRecord := by
  induction h with
  | here _ hrecord _ => exact hrecord
  | further _ _ _ ih => exact ih

theorem Leads.isRecord {types : Registry} (h : r.Leads types head wanted) : head.IsRecord := by
  obtain ⟨e, -, hentry⟩ | ⟨t, -, p, -, hproperty⟩ := h
  · exact hentry.isRecord
  · exact hproperty.isRecord

/-! ## Types that are accounted for -/

/-- The warning that another name is taken than the one that is wanted. -/
def numberNote (wanted : String) (n : Nat) : Entry :=
  ⟨.warning, .types, "Type name '" ++ wanted ++ "' is taken by another schema, using '" ++
    numbered wanted n ++ "'"⟩

theorem claimNotes_of_free {types : Registry} {n : Nat} (hn : n ≠ 0)
    (hfree : types.find (numbered wanted n) = none) :
    claimNotes types wanted n = [numberNote wanted n] :=
  if_pos ⟨hfree, hn⟩

/-- Something leads to the schema of each type. It is registered under the name that is wanted for it, or
under this name with a number, and then there is a warning. -/
def Traced (r : Resolver) (s : TypeState) : Prop :=
  ∀ t ∈ s.types.heads, ∃ wanted n, r.Leads s.types t.schema wanted ∧ t.name = numbered wanted n ∧
    (n ≠ 0 → numberNote wanted n ∈ s.journal)

theorem traced_nil (r : Resolver) (journal : Journal) : r.Traced ⟨[], journal⟩ := by
  simp [Traced, Registry.heads]

theorem Traced.of_find (h : r.Traced s) {name : String} {t : NamedType}
    (ht : s.types.find name = some t) : ∃ wanted n, r.Leads s.types t.schema wanted ∧
      name = numbered wanted n ∧ (n ≠ 0 → numberNote wanted n ∈ s.journal) := by
  obtain ⟨wanted, n, hleads, hname, hnote⟩ :=
    h t.head (List.mem_map_of_mem (Registry.mem_of_find ht))
  have htname : t.name = name := Registry.name_of_find ht
  exact ⟨wanted, n, hleads, htname.symm.trans hname, hnote⟩

/-- Fields of types and entries of the journal make no difference. -/
theorem Traced.later (h : r.Traced s) (hheads : s'.types.heads = s.types.heads)
    (hjournal : s.journal <+: s'.journal) : r.Traced s' := by
  intro t ht
  obtain ⟨wanted, n, hleads, hname, hnote⟩ := h t (hheads ▸ ht)
  exact ⟨wanted, n, hleads.later (hheads ▸ List.prefix_refl _), hname,
    fun hn => hjournal.subset (hnote hn)⟩

theorem Traced.record (h : r.Traced s) (entries : Journal) :
    r.Traced { s with journal := s.journal ++ entries } :=
  h.later rfl (List.prefix_append _ _)

theorem Traced.addField (h : r.Traced s) (name : String) (f : Field) :
    r.Traced { s with types := s.types.addField name f } :=
  h.later (Registry.heads_addField ..) (List.prefix_refl _)

/-- A new type is accounted for by what leads to it. -/
theorem Traced.registered (h : r.Traced s) (hleads : r.Leads s.types head wanted) {n : Nat}
    (hfree : s.types.find (numbered wanted n) = none) :
    r.Traced (r.registered s wanted head n) := by
  have hheads : (r.registered s wanted head n).types.heads =
      s.types.heads ++ [(r.unfilled (numbered wanted n) head).head] := Registry.heads_add ..
  have hlater : s.types.heads <+: (r.registered s wanted head n).types.heads :=
    hheads ▸ List.prefix_append _ _
  have hjournal : s.journal <+: (r.registered s wanted head n).journal :=
    (List.prefix_append _ _).trans (List.prefix_append _ _)
  intro t ht
  rw [hheads, List.mem_append, List.mem_singleton] at ht
  rcases ht with ht | rfl
  · obtain ⟨wanted', m, hleads', hname, hnote⟩ := h t ht
    exact ⟨wanted', m, hleads'.later hlater, hname, fun hm => hjournal.subset (hnote hm)⟩
  · refine ⟨wanted, n, hleads.later hlater, rfl, fun hn => ?_⟩
    refine List.mem_append_left _ (List.mem_append_right _ ?_)
    rw [claimNotes_of_free hn hfree]
    exact List.mem_singleton_self _

/-! ## Calls -/

/-- What fills a type that is registered leaves all types accounted for. -/
def Traces (r : Resolver) (complete : String → Schema → Resolving Unit) : Prop :=
  ∀ ⦃t⦄ ⦃s : TypeState⦄, t ∈ s.types.heads → r.Traced s →
    r.Traced (outcome (complete t.name t.schema) s).2

/-- A way that leaves all types accounted for, if something leads to what it leads to. -/
def WayTraces (r : Resolver) (resolve : Way) : Prop :=
  ∀ ⦃value name parent property⦄ ⦃s : TypeState⦄,
    (∀ head wanted, r.Heads head wanted value name parent property → r.Leads s.types head wanted) →
      r.Traced s → r.Traced (outcome (resolve value name parent property) s).2

theorem traced_resolveNamed {complete : String → Schema → Resolving Unit}
    (hcomplete : r.Traces complete) (hleads : ∀ n ∈ name, n ≠ "" → r.Leads s.types head n)
    (h : r.Traced s) : r.Traced (outcome (r.resolveNamed complete head name) s).2 := by
  rcases name with _ | wanted
  · exact h
  by_cases hempty : wanted = ""
  · subst hempty
    exact h
  obtain ⟨n, -, ⟨t, -, hrun⟩ | ⟨hfree, hrun⟩⟩ := outcome_resolveNamed r complete head hempty s
  · rw [hrun]
    exact h
  · rw [hrun]
    have hmem : (r.unfilled (numbered wanted n) head).head ∈
        (r.registered s wanted head n).types.heads := by
      rw [Resolver.registered, Registry.heads_add]
      simp
    exact hcomplete hmem (h.registered (hleads wanted rfl hempty) hfree)

theorem wayTraces_resolveSteps {complete : String → Schema → Resolving Unit}
    (hcomplete : r.Traces complete) : ∀ steps, r.WayTraces (r.resolveSteps complete steps)
  | 0, _, _, _, _, _, _, h => h
  | steps + 1, value, name, parent, property, s, hleads, h => by
    rw [outcome_resolveSteps]
    have hrecord : r.Traced { s with journal := s.journal ++ r.hops value } := h.record _
    cases hsubject : r.subject value name parent property with
    | error e => exact hrecord
    | ok found =>
      obtain ⟨schema, passed⟩ := found
      dsimp only
      by_cases hhead : schema.IsRecord
      · rw [resolveKind_of_isRecord hhead]
        refine traced_resolveNamed hcomplete (fun n hn hne => hleads schema n ?_) hrecord
        obtain rfl := Option.mem_def.1 hn
        exact .here hsubject hhead hne
      cases hnext : schema.next with
      | some v =>
        rw [resolveKind_of_next hnext, outcome_bind]
        have hinner := wayTraces_resolveSteps hcomplete steps
          (s := { s with journal := s.journal ++ r.hops value })
          (fun head wanted hheads => hleads head wanted (.further hsubject hnext hheads)) hrecord
        split <;> exact hinner
      | none =>
        obtain ⟨work, hwork, hkind⟩ := exists_resolveKind_of_last (r := r) hhead hnext
        rw [hkind]
        obtain ⟨text, -, rfl⟩ | ⟨cause, -, rfl⟩ := hwork <;> exact hrecord

theorem traced_addFields {resolve : Way} (hgrows : r.WayGrows resolve) (hresolve : r.WayTraces resolve)
    {t : Head} : ∀ {properties : List (String × RefOr Schema)} {s : TypeState},
      properties ⊆ t.schema.properties.getD [] → t ∈ s.types.heads → r.Traced s →
        r.Traced (outcome (r.addFields resolve t.name t.schema properties) s).2
  | [], _, _, _, h => h
  | (property, value) :: rest, s, hsub, ht, h => by
    obtain ⟨hproperty, hrest⟩ := List.cons_subset.1 hsub
    have hvalue : r.Traced (outcome (resolve value none (some t.name) (.str property)) s).2 :=
      hresolve (fun head wanted hheads => Or.inr ⟨t, ht, _, hproperty, hheads⟩) h
    have hlater := Path.heads_isPrefix (hgrows value none (some t.name) (.str property) s)
    rw [addFields, outcome_bind, within, outcome_within]
    rcases hrun : outcome (resolve value none (some t.name) (.str property)) s with ⟨e | type, s₁⟩
    · rw [hrun] at hvalue
      exact hvalue
    · rw [hrun] at hvalue hlater
      dsimp only [Except.mapError]
      rw [outcome_bind_of_ok (outcome_modify _ _)]
      refine traced_addFields hgrows hresolve hrest ?_ (hvalue.addField _ _)
      rw [Registry.heads_addField]
      exact hlater.subset ht

theorem traces_completeType (steps : Nat) : ∀ types, r.Traces (r.completeType steps types)
  | 0, _, _, _, h => h
  | types + 1, _, _, ht, h =>
    traced_addFields (grows_resolveSteps (completes_completeType steps types) steps)
      (wayTraces_resolveSteps (traces_completeType steps types) steps) (List.Subset.refl _) ht h

/-! ## All components -/

theorem traced_resolveEach : ∀ {entries : List (String × RefOr Schema)} {s : TypeState},
    entries ⊆ r.schemas → r.Traced s → r.Traced (outcome (r.resolveEach entries) s).2
  | [], _, _, h => h
  | (key, value) :: rest, s, hsub, h => by
    obtain ⟨hentry, hrest⟩ := List.cons_subset.1 hsub
    have hvalue : r.Traced (outcome (r.resolve value (some (className key))) s).2 :=
      wayTraces_resolveSteps (traces_completeType _ _) _
        (fun head wanted hheads => Or.inl ⟨_, hentry, hheads⟩) h
    rw [resolveEach, outcome_bind, within, outcome_within]
    rcases hrun : outcome (r.resolve value (some (className key))) s with ⟨e | type, s₁⟩ <;>
      rw [hrun] at hvalue
    · exact hvalue
    · exact traced_resolveEach hrest hvalue

/-- When the components have been resolved from an empty registry, or a failure has ended this, then
something leads to each type that is registered, and each has the name that is wanted for it, or a number
behind it and a warning. -/
theorem traced_resolveComponents (r : Resolver) (journal : Journal) :
    r.Traced (outcome r.resolveComponents ⟨[], journal⟩).2 :=
  traced_resolveEach (List.Subset.refl _) (r.traced_nil journal)

end ApiClient.Resolver
