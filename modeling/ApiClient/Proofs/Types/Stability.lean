import ApiClient.Proofs.Types.WriteOnce
import Mathlib

/-!
# Resolving again

A schema that has been resolved once is settled: whatever is resolved after it, the same call gives
the same spelling, registers nothing and warns of nothing (`resolve_again`).

The name of a type is the first available one. No later edit makes a rejected name available, and
the name that was chosen stays registered for the same schema, so the search ends where it ended
before (`FirstAvailable.persists`). All else follows, since to settle is a closed property of work
(`closed_settles`).
-/

namespace ApiClient

theorem Journal.warnings_append (j k : Journal) :
    Journal.warnings (j ++ k) = j.warnings ++ k.warnings := by
  simp [Journal.warnings]

namespace Resolver

open Naming Working

variable {r : Resolver} {s s' later : TypeState} {α β : Type}

/-! ## Settled calls -/

/-- Work that gives `a`, registers nothing and warns of nothing. -/
def Quiet (work : Resolving α) (a : α) (s : TypeState) : Prop :=
  ∃ entries : Journal, entries.warnings = [] ∧
    outcome work s = (.ok a, { s with journal := s.journal ++ entries })

/-- Work that is quiet after any edits from `s` on. -/
def Settled (r : Resolver) (work : Resolving α) (a : α) (s : TypeState) : Prop :=
  ∀ later, r.Path [] s later → Quiet work a later

/-- Work that leaves the types alone that are there, and that is settled where it has given a
result. -/
structure Settles (r : Resolver) (work : Resolving α) : Prop where
  grows : Moves r.Grows work
  settled : ∀ {s s' : TypeState} {a : α}, outcome work s = (.ok a, s') → r.Settled work a s'

theorem quiet_pure (a : α) (s : TypeState) : Quiet (pure a) a s :=
  ⟨[], rfl, by simp [outcome_pure]⟩

theorem quiet_record {entries : Journal} (h : entries.warnings = []) (s : TypeState) :
    Quiet (record entries) () s :=
  ⟨entries, h, outcome_record entries s⟩

theorem Quiet.bind {work : Resolving α} {f : α → Resolving β} {a : α} {b : β}
    (hwork : Quiet work a s)
    (hf : ∀ entries : Journal, Quiet (f a) b { s with journal := s.journal ++ entries }) :
    Quiet (work >>= f) b s := by
  obtain ⟨entries, hquiet, hfirst⟩ := hwork
  obtain ⟨more, hmore, hrest⟩ := hf entries
  refine ⟨entries ++ more, ?_, ?_⟩
  · rw [Journal.warnings_append, hquiet, hmore, List.append_nil]
  · rw [outcome_bind_of_ok hfirst, hrest, List.append_assoc]

theorem Quiet.within {work : Resolving α} {a : α} (h : Quiet work a s) (place : String) :
    Quiet (tryCatch work fun f => throw (f.within place)) a s := by
  obtain ⟨entries, hquiet, hwork⟩ := h
  refine ⟨entries, hquiet, ?_⟩
  rw [outcome_within, hwork]
  rfl

theorem Settles.pure (a : α) : r.Settles (Pure.pure a : Resolving α) where
  grows := Moves.pure a
  settled h later _ := by
    obtain ⟨rfl, -⟩ := of_outcome_pure h
    exact quiet_pure _ later

theorem Settles.throw (e : Failure) : r.Settles (MonadExcept.throw e : Resolving α) where
  grows := Moves.throw e
  settled h := by cases h

theorem Settles.bind {work : Resolving α} {f : α → Resolving β} (hwork : r.Settles work)
    (hf : ∀ a, r.Settles (f a)) : r.Settles (work >>= f) where
  grows := hwork.grows.bind fun a => (hf a).grows
  settled h later hpath := by
    obtain ⟨a, s₁, hfirst, hrest⟩ := exists_of_outcome_bind h
    have hgrows : r.Grows s₁ _ := (hf a).grows.leads hrest
    -- the rest only adds types, so what comes after the block also comes after its first part
    refine (hwork.settled hfirst later ?_).bind fun entries => ?_
    · exact (hgrows.weaken (List.nil_subset _)).trans hpath
    · exact (hf a).settled hrest _ (hpath.trans (Edit.record later entries).path)

theorem Settles.within {work : Resolving α} (hwork : r.Settles work) (place : String) :
    r.Settles (tryCatch work fun f => MonadExcept.throw (f.within place)) where
  grows := hwork.grows.within place
  settled h later hpath := (hwork.settled (outcome_of_within h) later hpath).within place

theorem closed_settles : Closed fun _ (work : Resolving _) => r.Settles work where
  pure := Settles.pure
  throw := Settles.throw
  bind := Settles.bind
  within place hwork := hwork.within place

theorem settles_record {entries : Journal} (h : entries.warnings = []) :
    r.Settles (record entries) where
  grows s := grows_record s entries
  settled _ later _ := quiet_record h later

theorem warnings_hops (r : Resolver) (value : RefOr Schema) : (r.hops value).warnings = [] := by
  cases value with
  | inline schema => rfl
  | ref pointer => simp [hops, Journal.warnings, Level.isWarning]

/-! ## The name of a type -/

/-- The search for a name ends at the same number once a type is registered there for the
schema. -/
theorem FirstAvailable.persists {name : String} {schema : Schema} {n : Nat} {t : NamedType}
    (h : r.FirstAvailable s.types name schema n) (hpath : r.Path [] s later)
    (ht : later.types.find (numbered name n) = some t) (hsame : t.schema.same schema = true) :
    r.FirstAvailable later.types name schema n := by
  refine ⟨?_, fun m hm => hpath.not_available (h.2 m hm)⟩
  rw [available_of_find ht]
  exact hsame

theorem settles_resolveNamed {complete : String → Schema → Resolving Unit}
    (hcomplete : r.Completes complete) (schema : Schema) {name : Option String}
    (hname : ∀ n ∈ name, ∃ base, n = r.dialect.typeName base) :
    r.Settles (r.resolveNamed complete schema name) := by
  have hmoves : Moves r.Grows (r.resolveNamed complete schema name) :=
    grows_resolveNamed hcomplete schema hname
  refine ⟨hmoves, fun {s s' spelling} h later hpath => ?_⟩
  have hgrows : r.Grows s s' := hmoves.leads h
  rcases name with _ | name
  · cases h
  have hne : name ≠ "" := by
    rintro rfl
    cases h
  obtain ⟨n, t, hfirst, hfind, hsame, hspelling⟩ :=
    registered_of_resolveNamed hcomplete schema hne s
  rw [h] at hfind hspelling
  obtain ⟨t', hfind', hhead⟩ := hpath.find hfind
  have hsame' : t'.schema.same schema = true := by
    rw [NamedType.schema_of_head hhead]
    exact hsame
  have hfirst' : r.FirstAvailable later.types name schema n :=
    hfirst.persists ((hgrows.weaken (List.nil_subset _)).trans hpath) hfind' hsame'
  obtain ⟨m, hm, ⟨t'', hfind'', houtcome⟩ | ⟨hfree, -⟩⟩ :=
    outcome_resolveNamed r complete schema hne later
  · obtain rfl := hm.unique hfirst'
    obtain rfl : t' = t'' := Option.some.inj (hfind'.symm.trans hfind'')
    refine ⟨[], rfl, ?_⟩
    rw [houtcome, hspelling spelling rfl, NamedType.spelling_of_head hhead, List.append_nil]
  · obtain rfl := hm.unique hfirst'
    rw [hfree] at hfind'
    cases hfind'

/-! ## All types -/

theorem settles_resolveSteps {complete : String → Schema → Resolving Unit}
    (hcomplete : r.Completes complete) (steps : Nat) (value : RefOr Schema)
    (name parent : Option String) (property : Json) :
    r.Settles (r.resolveSteps complete steps value name parent property) := by
  refine closed_resolveSteps closed_settles ?_ ?_ steps value name parent property
  · intro value
    exact settles_record (r.warnings_hops value)
  · intro schema wanted
    exact settles_resolveNamed hcomplete schema (exists_typeName_of_map wanted)

/-- A call that has given a spelling gives it again after whatever else is asked for, and then
registers nothing and warns of nothing. -/
theorem resolve_again {value : RefOr Schema} {name parent : Option String} {property : Json}
    {spelling : Spelling}
    (h : outcome (r.resolve value name parent property) s = (.ok spelling, s'))
    (queries : List Query) :
    let later := r.afterAll s' queries
    ∃ entries : Journal, entries.warnings = [] ∧
      outcome (r.resolve value name parent property) later =
        (.ok spelling, { later with journal := later.journal ++ entries }) := by
  intro later
  obtain ⟨complete, steps, hcomplete, heq⟩ := r.exists_resolve_eq value
  rw [heq] at h ⊢
  have hsettles := settles_resolveSteps hcomplete (steps + 1) value name parent property
  exact hsettles.settled h later ((grows_afterAll s' queries).weaken (List.nil_subset _))

/-- The name with a number is found again, also after another type asked for that very name. -/
theorem resolve_again_item :
    let r : Resolver := ⟨none, .python, "acme"⟩
    let s := (outcome (r.resolve (.inline (.single "id")) (some "item")) {}).2
    let call := r.resolve (.inline (.single "name")) (some "item")
    let other : Query := .type (.inline (.single "title")) (some "item2") none .null
    let later := r.afterAll (outcome call s).2 [other]
    outcome call s = (.ok ⟨"Item2", "acme.schemas.Item2", ["Item2"]⟩, (outcome call s).2) ∧
      later.types.names = ["Item", "Item2", "Item22"] ∧
      ∃ entries : Journal, entries.warnings = [] ∧
        outcome call later = (.ok ⟨"Item2", "acme.schemas.Item2", ["Item2"]⟩,
          { later with journal := later.journal ++ entries }) := by
  intro r s call other later
  have hcall : outcome call s =
      (.ok ⟨"Item2", "acme.schemas.Item2", ["Item2"]⟩, (outcome call s).2) :=
    outcome_of_toOption (by decide +kernel)
  exact ⟨hcall, by decide +kernel, resolve_again hcall [other]⟩

end Resolver

end ApiClient
