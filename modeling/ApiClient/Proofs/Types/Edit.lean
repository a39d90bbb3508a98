import ApiClient.Proofs.Types.Claim
import Mathlib

/-!
# The edits that resolving makes

All that resolving does to a state are three kinds of edits: entries for the journal, the
registration of a type under an available name, and one more field for a type (`Edit`). `Path` is a
sequence of edits; its fields go to types outside a `frozen` list of names.

Every edit keeps what is registered (`Path.heads_isPrefix`), keeps the frozen types with their
fields (`Path.frozen_isPrefix`), keeps the registry sound (`Path.sound`), and makes no name
available that was not (`Path.not_available`).
-/

namespace ApiClient.Resolver

open Naming Working

/-- A name that may be tried for a type: one of the dialect, perhaps with a number. -/
def IsCandidate (r : Resolver) (name : String) : Prop :=
  ∃ base n, r.dialect.typeName base ≠ "" ∧ name = numbered (r.dialect.typeName base) n

/-- A type as it is registered, before it has fields. -/
def unfilled (r : Resolver) (name : String) (schema : Schema) : NamedType :=
  ⟨name, Dialect.qualify r.namespaceName name, schema, []⟩

/-- An edit of the state that gives no field to the types named in `frozen`. -/
inductive Edit (r : Resolver) (frozen : List String) : TypeState → TypeState → Prop
  | record (s : TypeState) (entries : Journal) :
    Edit r frozen s { s with journal := s.journal ++ entries }
  | register (s : TypeState) {name : String} {schema : Schema} (hname : r.IsCandidate name)
    (hfree : s.types.find name = none) (havailable : r.available s.types name schema = true) :
    Edit r frozen s { s with types := s.types.add (r.unfilled name schema) }
  | field (s : TypeState) {name : String} (f : Field) (hname : name ∉ frozen) :
    Edit r frozen s { s with types := s.types.addField name f }

/-- Edits one after another. -/
def Path (r : Resolver) (frozen : List String) : TypeState → TypeState → Prop :=
  Relation.ReflTransGen (r.Edit frozen)

variable {r : Resolver} {frozen : List String} {s s' s'' : TypeState}

theorem Path.refl (s : TypeState) : r.Path frozen s s :=
  Relation.ReflTransGen.refl

theorem Path.trans (h : r.Path frozen s s') (h' : r.Path frozen s' s'') : r.Path frozen s s'' :=
  Relation.ReflTransGen.trans h h'

theorem Edit.path (h : r.Edit frozen s s') : r.Path frozen s s' :=
  Relation.ReflTransGen.single h

instance : IsTrans TypeState (r.Path frozen) :=
  ⟨fun _ _ _ => Path.trans⟩

theorem Edit.weaken {frozen' : List String} (hsub : frozen ⊆ frozen') (h : r.Edit frozen' s s') :
    r.Edit frozen s s' := by
  cases h with
  | record entries => exact .record s entries
  | register hname hfree havailable => exact .register s hname hfree havailable
  | field f hname => exact .field s f fun hmem => hname (hsub hmem)

theorem Path.weaken {frozen' : List String} (hsub : frozen ⊆ frozen') (h : r.Path frozen' s s') :
    r.Path frozen s s' :=
  Relation.ReflTransGen.mono (fun _ _ => Edit.weaken hsub) _ _ h

/-! ## What is registered stays -/

theorem Edit.heads_isPrefix (h : r.Edit frozen s s') : s.types.heads <+: s'.types.heads := by
  cases h with
  | record => exact List.prefix_refl _
  | register => exact ⟨_, (Registry.heads_add ..).symm⟩
  | field => exact (Registry.heads_addField ..) ▸ List.prefix_refl _

theorem Path.heads_isPrefix (h : r.Path frozen s s') : s.types.heads <+: s'.types.heads := by
  induction h with
  | refl => exact List.prefix_refl _
  | tail _ hedit ih => exact ih.trans hedit.heads_isPrefix

theorem Path.names_subset (h : r.Path frozen s s') : s.types.names ⊆ s'.types.names := by
  rw [Registry.names_eq_heads, Registry.names_eq_heads]
  exact (h.heads_isPrefix.map Head.name).subset

theorem Edit.frozen_isPrefix {p : Registry} (hp : p.names ⊆ frozen) (h : r.Edit frozen s s')
    (hfront : p <+: s.types) : p <+: s'.types := by
  cases h with
  | record => exact hfront
  | register => exact hfront.trans (List.prefix_append _ _)
  | field f hname => exact Registry.prefix_addField hfront (fun hmem => hname (hp hmem)) f

/-- Types whose names are frozen keep their fields. -/
theorem Path.frozen_isPrefix {p : Registry} (hp : p.names ⊆ frozen) (h : r.Path frozen s s')
    (hfront : p <+: s.types) : p <+: s'.types := by
  induction h with
  | refl => exact hfront
  | tail _ hedit ih => exact hedit.frozen_isPrefix hp ih

/-! ## Sound registries -/

/-- No name comes twice, every type has the qualified name and a name of the dialect, and no type
has the name of a component with another schema. -/
structure Sound (r : Resolver) (types : Registry) : Prop where
  nodup : types.names.Nodup
  qualified : ∀ t ∈ types.heads, t.qualified = Dialect.qualify r.namespaceName t.name
  candidate : ∀ t ∈ types.heads, r.IsCandidate t.name
  reserved : ∀ t ∈ types.heads, ∀ c, r.reserved.get? t.name = some c → c.same t.schema = true

theorem sound_nil (r : Resolver) : r.Sound [] where
  nodup := List.nodup_nil
  qualified := by simp [Registry.heads]
  candidate := by simp [Registry.heads]
  reserved := by simp [Registry.heads]

theorem Edit.sound (h : r.Edit frozen s s') (hs : r.Sound s.types) : r.Sound s'.types := by
  cases h with
  | record => exact hs
  | @register name schema hname hfree havailable =>
    have hhead : ∀ t ∈ (s.types.add (r.unfilled name schema)).heads,
        t ∈ s.types.heads ∨ t = (r.unfilled name schema).head := by
      simp [Registry.heads_add]
    refine ⟨?_, fun t ht => ?_, fun t ht => ?_, fun t ht c hc => ?_⟩
    · rw [Registry.names_add, List.nodup_append]
      refine ⟨hs.nodup, by simp, fun x hx y hy heq => ?_⟩
      obtain rfl : y = name := List.mem_singleton.1 hy
      exact Registry.find_eq_none_iff.1 hfree (heq ▸ hx)
    · rcases hhead t ht with ht | rfl
      · exact hs.qualified t ht
      · rfl
    · rcases hhead t ht with ht | rfl
      · exact hs.candidate t ht
      · exact hname
    · rcases hhead t ht with ht | rfl
      · exact hs.reserved t ht c hc
      · rw [available_of_find_none hfree] at havailable
        have hname' : r.reserved.get? name = some c := hc
        rw [hname'] at havailable
        exact havailable
  | field f hname =>
    have hheads := Registry.heads_addField s.types
    refine ⟨?_, ?_, ?_, ?_⟩
    · simpa only [Registry.names_addField] using hs.nodup
    · simpa only [hheads] using hs.qualified
    · simpa only [hheads] using hs.candidate
    · simpa only [hheads] using hs.reserved

theorem Path.sound (h : r.Path frozen s s') (hs : r.Sound s.types) : r.Sound s'.types := by
  induction h with
  | refl => exact hs
  | tail _ hedit ih => exact hedit.sound ih

/-! ## Names that are not available -/

theorem Path.find {name : String} {t : NamedType} (h : r.Path frozen s s')
    (ht : s.types.find name = some t) : ∃ t', s'.types.find name = some t' ∧ t'.head = t.head :=
  Registry.exists_find_of_isPrefix h.heads_isPrefix ht

/-- What is available only depends on the heads of the types. -/
theorem available_congr {types types' : Registry} (h : types.heads = types'.heads) (name : String)
    (schema : Schema) : r.available types name schema = r.available types' name schema := by
  have hfind : (types.find name).map NamedType.head = (types'.find name).map NamedType.head := by
    rw [Registry.find_heads, Registry.find_heads, h]
  cases ht : types.find name with
  | none =>
    rw [ht, Option.map_none, eq_comm, Option.map_eq_none_iff] at hfind
    rw [available_of_find_none ht, available_of_find_none hfind]
  | some t =>
    rw [ht, Option.map_some, eq_comm, Option.map_eq_some_iff] at hfind
    obtain ⟨t', ht', hhead⟩ := hfind
    rw [available_of_find ht, available_of_find ht']
    exact congrArg (fun h : Head => h.schema.same schema) hhead.symm

/-- A reserved name is registered for the schema it is reserved for, so it stays out of reach of
the others. -/
theorem Edit.not_available {name : String} {schema : Schema} (h : r.Edit frozen s s')
    (hno : r.available s.types name schema = false) :
    r.available s'.types name schema = false := by
  cases h with
  | record => exact hno
  | field => rw [available_congr (Registry.heads_addField ..), hno]
  | @register other found hname hfree havailable =>
    by_cases heq : other = name
    · subst heq
      have hfind : (s.types.add (r.unfilled other found)).find other =
          some (r.unfilled other found) := Registry.find_add_self hfree
      rw [available_of_find_none hfree] at hno havailable
      rw [available_of_find hfind]
      cases hreserved : r.reserved.get? other with
      | none => simp [hreserved] at hno
      | some c =>
        rw [hreserved, Option.all_some] at hno havailable
        by_contra hsame
        rw [Bool.not_eq_false] at hsame
        rw [Schema.same_trans havailable hsame] at hno
        cases hno
    · rw [available, Registry.find_add_of_ne (t := r.unfilled other found) heq]
      exact hno

theorem Path.not_available {name : String} {schema : Schema} (h : r.Path frozen s s')
    (hno : r.available s.types name schema = false) :
    r.available s'.types name schema = false := by
  induction h with
  | refl => exact hno
  | tail _ hedit ih => exact hedit.not_available ih

end ApiClient.Resolver
