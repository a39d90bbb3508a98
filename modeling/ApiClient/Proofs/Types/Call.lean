import ApiClient.Proofs.Types.Edit
import Mathlib

/-!
# What a call does

The equations of the resolver that its theory rests on. `outcome_follow` says what comes of
following a pointer, `outcome_resolveSteps` takes a call apart into its `subject` and the work for
the kind of the schema, and `outcome_resolveNamed` says all that the type of an object with
properties takes: the first available name, and a new type if there is none of this name.
-/

namespace ApiClient.Resolver

open Naming Working

variable {r : Resolver}

/-! ## Subjects -/

/-- The schema that `value` is or points to, with the name of the component it was found under. -/
def target (r : Resolver) : RefOr Schema → Except Failure (Option String × Schema)
  | .inline s => .ok (none, s)
  | .ref pointer =>
    match (Pointer.follow r.components (some [.schemas]) pointer).outcome with
    | .ok (name, .schema s) => .ok (some name, s)
    | .ok (_, other) => .error { cause := .pointer (.wrongKind pointer other.home) }
    | .error e => .error { cause := .pointer e }

/-- What is reported on the way to the schema that `value` is or points to. -/
def hops (r : Resolver) : RefOr Schema → Journal
  | .inline _ => []
  | .ref pointer =>
    (Pointer.follow r.components (some [.schemas]) pointer).steps.map fun step =>
      ⟨.debug, .pointers, "Resolved " ++ step⟩

theorem outcome_follow (r : Resolver) (value : RefOr Schema) (s : TypeState) :
    outcome (r.follow value) s =
      (r.target value, { s with journal := s.journal ++ r.hops value }) := by
  cases value with
  | inline schema => simp [follow, target, hops, outcome_pure]
  | ref pointer =>
    simp only [follow, outcome_bind, outcome_record, hops, target]
    rcases Pointer.follow r.components (some [.schemas]) pointer with ⟨steps, e | ⟨name, found⟩⟩
    · rfl
    · cases found <;> rfl

theorem dialectName_eq (r : Resolver) (name : String) :
    r.dialectName name = r.dialect.typeName name := by
  rw [dialectName]
  split
  · rename_i h
    subst h
    cases r.dialect <;> decide
  · rfl

/-- The schema that a call is about, and the name that is wanted for its type. -/
def subject (r : Resolver) (value : RefOr Schema) (name parent : Option String)
    (property : Json) : Except Failure (Schema × Option String) :=
  match r.target value with
  | .error e => .error e
  | .ok (component, schema) =>
    match wantedName component name parent property with
    | .error e => .error { cause := .misfit e }
    | .ok wanted => .ok (schema, wanted.map r.dialect.typeName)

theorem exists_typeName_of_map (wanted : Option String) :
    ∀ n ∈ wanted.map r.dialectName, ∃ base, n = r.dialect.typeName base := by
  intro n hn
  obtain ⟨base, -, rfl⟩ := Option.map_eq_some_iff.1 hn
  exact ⟨base, r.dialectName_eq base⟩

/-! ## Kinds -/

/-- The type of a schema, by its kind. -/
def resolveKind (r : Resolver) (complete : String → Schema → Resolving Unit) (resolve : Way)
    (schema : Schema) (name parent : Option String) (property : Json) : Resolving Spelling :=
  match schema.kind with
  | .str "object" => r.resolveObject complete resolve schema name
  | .str "array" => r.resolveArray resolve schema name parent property
  | kind => r.resolveScalar kind schema.format

theorem outcome_resolveSteps (r : Resolver) (complete : String → Schema → Resolving Unit)
    (steps : Nat) (value : RefOr Schema) (name parent : Option String) (property : Json)
    (s : TypeState) :
    outcome (r.resolveSteps complete (steps + 1) value name parent property) s =
      match r.subject value name parent property with
      | .error e => (.error e, { s with journal := s.journal ++ r.hops value })
      | .ok (schema, wanted) =>
        outcome (r.resolveKind complete (r.resolveSteps complete steps) schema wanted parent
          property) { s with journal := s.journal ++ r.hops value } := by
  have hnames : r.dialectName = r.dialect.typeName := funext r.dialectName_eq
  rw [resolveSteps, outcome_bind, outcome_follow, subject, hnames]
  rcases r.target value with e | ⟨component, schema⟩
  · rfl
  · dsimp only
    cases wantedName component name parent property <;> rfl

/-! ## Named types -/

/-- A new type, and what is reported with its registration. -/
def registered (r : Resolver) (s : TypeState) (name : String) (schema : Schema) (n : Nat) :
    TypeState where
  types := s.types.add (r.unfilled (numbered name n) schema)
  journal := s.journal ++ claimNotes s.types name n ++
    [⟨.debug, .types, "Registered type " ++ numbered name n⟩]

/-- An object with properties is the type registered under the first name that is available to it,
or a new type of this name. -/
theorem outcome_resolveNamed (r : Resolver) (complete : String → Schema → Resolving Unit)
    (schema : Schema) {name : String} (hname : name ≠ "") (s : TypeState) :
    ∃ n, r.FirstAvailable s.types name schema n ∧
      ((∃ t, s.types.find (numbered name n) = some t ∧
          outcome (r.resolveNamed complete schema (some name)) s = (.ok t.spelling, s)) ∨
        (s.types.find (numbered name n) = none ∧
          outcome (r.resolveNamed complete schema (some name)) s =
          ((outcome (complete (numbered name n) schema) (r.registered s name schema n)).1.map
              fun _ => (r.unfilled (numbered name n) schema).spelling,
            (outcome (complete (numbered name n) schema) (r.registered s name schema n)).2))) := by
  obtain ⟨n, hfirst, hclaim⟩ := outcome_claim r name schema s
  refine ⟨n, hfirst, ?_⟩
  rw [resolveNamed]
  swap
  · exact hname
  cases hfind : s.types.find (numbered name n) with
  | some t =>
    refine Or.inl ⟨t, rfl, ?_⟩
    rw [outcome_bind_of_ok hclaim, hfind, claimNotes_of_find hfind]
    simp [outcome_pure]
  | none =>
    refine Or.inr ⟨rfl, ?_⟩
    have hregister : ∀ rest : Resolving Spelling,
        outcome (do
          modify fun st => { st with types := st.types.add (r.unfilled (numbered name n) schema) }
          note .debug .types ("Registered type " ++ numbered name n)
          rest) { s with journal := s.journal ++ claimNotes s.types name n } =
        outcome rest (r.registered s name schema n) := fun rest => by
      rw [outcome_bind_of_ok (outcome_modify _ _), outcome_bind_of_ok (outcome_note ..)]
      rfl
    rw [outcome_bind_of_ok hclaim, hfind]
    refine (hregister _).trans ?_
    rw [outcome_bind]
    cases (outcome (complete (numbered name n) schema) (r.registered s name schema n)).1 <;> rfl

end ApiClient.Resolver
