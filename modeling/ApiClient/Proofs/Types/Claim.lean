import ApiClient.Proofs.Json.Sameness
import ApiClient.Proofs.Naming.Fresh
import ApiClient.Proofs.Types.Registry
import ApiClient.Proofs.Working
import ApiClient.Types.Resolution
import Mathlib

/-!
# Claiming a name

`outcome_claim` says all that a claim does: it gives the first of the names `name`, `name2`, … that
is available to the schema, with the type that is registered under it, and changes nothing but the
journal. The test for a name is made on two tables, in one way for a registered name and in another
for any other; `IsAvailable` says what it tests, for every pair of tables. As only the names in the
tables can fail, one of the names that are tried is available, whatever the tables are
(`exists_isAvailable`), and `claim_least` has the search as a loop without a bound.
-/

namespace ApiClient.Resolver

open Naming Working

/-! ## Availability -/

theorem available_of_find {r : Resolver} {types : Registry} {name : String} {t : NamedType}
    (h : types.find name = some t) (schema : Schema) :
    r.available types name schema = t.schema.same schema := by
  rw [available, h]

theorem available_of_find_none {r : Resolver} {types : Registry} {name : String}
    (h : types.find name = none) (schema : Schema) :
    r.available types name schema = (r.reserved.get? name).all (·.same schema) := by
  rw [available, h]

/-- A name is available to a schema if it is registered for the same schema, or if it is not registered
and not reserved for another one. -/
def IsAvailable (types : Registry) (reserved : Table Schema) (name : String) (schema : Schema) : Prop :=
  (∃ t, types.find name = some t ∧ t.schema.same schema = true) ∨
    (types.find name = none ∧ ∀ c, reserved.get? name = some c → c.same schema = true)

theorem available_iff {r : Resolver} {types : Registry} {name : String} {schema : Schema} :
    r.available types name schema = true ↔ IsAvailable types r.reserved name schema := by
  cases hfind : types.find name with
  | some t => simp [available_of_find hfind, IsAvailable, hfind]
  | none => simp [available_of_find_none hfind, IsAvailable, hfind, Option.all_eq_true]

/-- A name that is neither registered nor reserved is available to every schema. -/
theorem isAvailable_of_notMem {types : Registry} {reserved : Table Schema} {name : String}
    (h : name ∉ types.names ++ reserved.keys) (schema : Schema) :
    IsAvailable types reserved name schema := by
  obtain ⟨htypes, hkeys⟩ := not_or.1 (mt List.mem_append.2 h)
  have hreserved : reserved.get? name = none := by
    refine List.lookup_eq_none_iff.2 fun e he => ?_
    have hne : name ≠ e.1 := fun heq => hkeys (heq ▸ List.mem_map_of_mem he)
    simpa using hne
  exact .inr ⟨Registry.find_eq_none_iff.2 htypes, by simp [hreserved]⟩

/-- One of the names that a claim tries is available. -/
theorem exists_isAvailable (types : Registry) (reserved : Table Schema) (name : String)
    (schema : Schema) :
    ∃ n < types.length + reserved.length + 1,
      IsAvailable types reserved (numbered name n) schema := by
  have hlen : (types.names ++ reserved.keys).length < types.length + reserved.length + 1 := by
    simp [Registry.names, Table.keys]
  obtain ⟨n, hn, hfree⟩ := exists_numbered_notMem name hlen
  exact ⟨n, hn, isAvailable_of_notMem hfree schema⟩

theorem exists_available (r : Resolver) (types : Registry) (name : String) (schema : Schema) :
    ∃ n < types.length + r.reserved.length + 1,
      r.available types (numbered name n) schema = true := by
  simpa only [available_iff] using exists_isAvailable types r.reserved name schema

/-! ## The claim -/

/-- The first of the names of a claim that is available. -/
def FirstAvailable (r : Resolver) (types : Registry) (name : String) (schema : Schema)
    (n : Nat) : Prop :=
  r.available types (numbered name n) schema = true ∧
    ∀ m < n, r.available types (numbered name m) schema = false

/-- The loop over the names of a claim ends at the first that is available. -/
theorem firstAvailable_iff_countsTo {r : Resolver} {types : Registry} {name : String}
    {schema : Schema} {n : Nat} : r.FirstAvailable types name schema n ↔
      CountsTo (fun n => IsAvailable types r.reserved (numbered name n) schema) 0 n := by
  simp [countsTo_iff, FirstAvailable, ← available_iff]

theorem FirstAvailable.unique {r : Resolver} {types : Registry} {name : String} {schema : Schema}
    {m n : Nat} (hm : r.FirstAvailable types name schema m)
    (hn : r.FirstAvailable types name schema n) : m = n :=
  (firstAvailable_iff_countsTo.1 hm).unique (firstAvailable_iff_countsTo.1 hn)

/-- What a claim reports: that a name with a number is given for the first time. -/
def claimNotes (types : Registry) (name : String) (n : Nat) : Journal :=
  if types.find (numbered name n) = none ∧ n ≠ 0 then
    [⟨.warning, .types, "Type name '" ++ name ++ "' is taken by another schema, using '" ++
      numbered name n ++ "'"⟩]
  else []

theorem outcome_claim (r : Resolver) (name : String) (schema : Schema) (s : TypeState) :
    ∃ n, r.FirstAvailable s.types name schema n ∧
      outcome (r.claim name schema) s =
        (.ok (numbered name n, s.types.find (numbered name n)),
          { s with journal := s.journal ++ claimNotes s.types name n }) := by
  refine ⟨_, firstIndex_spec (r.exists_available s.types name schema), ?_⟩
  simp only [claim, outcome_bind, outcome_get]
  generalize firstIndex _ _ = n
  cases hfind : s.types.find (numbered name n) with
  | some t => simp [outcome_pure, claimNotes, hfind]
  | none =>
    by_cases hn : n = 0
    · simp [outcome_pure, claimNotes, hn]
    · simp only [hn, ne_eq, not_false_eq_true, if_true, outcome_bind, outcome_note, outcome_pure]
      simp [claimNotes, hfind, hn]

/-- Another claim for a schema that the first available name is registered for reports nothing. -/
theorem claimNotes_of_find {types : Registry} {name : String} {n : Nat} {t : NamedType}
    (h : types.find (numbered name n) = some t) : claimNotes types name n = [] := by
  simp [claimNotes, h]

theorem numbered_ne_iff {name : String} {n : Nat} : numbered name n ≠ name ↔ n ≠ 0 :=
  (numbered_injective name).ne_iff' rfl

/-- **A claim gives the least available name.** Whatever is registered and whatever is reserved, the
loop over `name`, `name2`, `name3`, … ends at an available name, after no more names than the two tables
have together. A claim gives that name, which is the first that is available, with the type that is
registered under it; it adds a warning to the journal exactly if the name is not registered and is not
the one that was asked for, and it changes nothing else. -/
theorem claim_least (name : String) (schema : Schema) :
    (∀ (types : Registry) (reserved : Table Schema), ∃ n ≤ types.length + reserved.length,
      CountsTo (fun n => IsAvailable types reserved (numbered name n) schema) 0 n) ∧
    ∀ (r : Resolver) (s : TypeState), ∃ n found, found = numbered name n ∧
      CountsTo (fun n => IsAvailable s.types r.reserved (numbered name n) schema) 0 n ∧
      IsLeast {n | IsAvailable s.types r.reserved (numbered name n) schema} n ∧
      outcome (r.claim name schema) s =
        (.ok (found, s.types.find found),
          { s with journal := s.journal ++
              if s.types.find found = none ∧ found ≠ name then
                [⟨.warning, .types, "Type name '" ++ name ++ "' is taken by another schema, using '" ++
                  found ++ "'"⟩]
              else [] }) := by
  constructor
  · intro types reserved
    obtain ⟨bound, hbound, havailable⟩ := exists_isAvailable types reserved name schema
    obtain ⟨n, hle, hn⟩ := exists_countsTo
      (p := fun n => IsAvailable types reserved (numbered name n) schema) havailable
    exact ⟨n, by omega, hn⟩
  · intro r s
    obtain ⟨n, hfirst, hclaim⟩ := outcome_claim r name schema s
    have hloop := firstAvailable_iff_countsTo.1 hfirst
    refine ⟨n, _, rfl, hloop, hloop.isLeast, ?_⟩
    simp only [hclaim, claimNotes, numbered_ne_iff]

end ApiClient.Resolver
