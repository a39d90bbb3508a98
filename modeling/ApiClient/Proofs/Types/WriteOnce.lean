import ApiClient.Proofs.Types.Growth
import Mathlib

/-!
# The registry is written once

Calls from outside are `Query`s. After any number of them, of which any may fail, a type that is
registered stays what and where it is, names are distinct, and a type that is given for an object
with properties is registered for a schema that equals the object's (`registry_written_once`).

`registered_of_resolveSteps` is the fact about one call that this rests on: the type is registered
under the first available name, also when the call fails later on.
-/

namespace ApiClient

/-- An object with properties, which has a type of its own. -/
def Schema.IsRecord (s : Schema) : Prop :=
  s.kind = .str "object" ∧ ∃ p ps, s.properties = some (p :: ps)

/-- An object with one property, a text. -/
def Schema.single (property : String) : Schema :=
  ⟨.str "object", .null, .null, .null, some [(property, .inline text)], [], none, none, none,
    .null, .null, false, false, false, false, [], [], [], none, none⟩
where
  /-- A text of any length. -/
  text : Schema :=
    ⟨.str "string", .null, .null, .null, none, [], none, none, none, .null, .null, false, false,
      false, false, [], [], [], none, none⟩

theorem Schema.isRecord_single (property : String) : (Schema.single property).IsRecord :=
  ⟨rfl, _, _, rfl⟩

namespace Resolver

open Naming Working

/-! ## Calls from outside -/

/-- What a resolver is asked for. -/
inductive Query where
  | type (value : RefOr Schema) (name parent : Option String) (property : Json)
  | components

/-- The state after a query, whether it was answered or failed. -/
def after (r : Resolver) (s : TypeState) : Query → TypeState
  | .type value name parent property => (outcome (r.resolve value name parent property) s).2
  | .components => (outcome r.resolveComponents s).2

/-- The state after queries, one after another. -/
def afterAll (r : Resolver) (s : TypeState) (queries : List Query) : TypeState :=
  queries.foldl r.after s

variable {r : Resolver} {s s' : TypeState}

theorem grows_after (s : TypeState) (q : Query) : r.Grows s (r.after s q) := by
  cases q with
  | type value name parent property => exact grows_resolve value name parent property s
  | components => exact grows_resolveComponents r s

theorem grows_afterAll (s : TypeState) (queries : List Query) :
    r.Grows s (r.afterAll s queries) := by
  induction queries generalizing s with
  | nil => exact Path.refl s
  | cons q rest ih => exact IsTrans.trans _ _ _ (grows_after s q) (ih (r.after s q))

theorem sound_afterAll (r : Resolver) (journal : Journal) (queries : List Query) :
    r.Sound (r.afterAll ⟨[], journal⟩ queries).types :=
  Path.sound (grows_afterAll ⟨[], journal⟩ queries) r.sound_nil

/-! ## The type of an object with properties -/

theorem resolveKind_of_isRecord {schema : Schema} (h : schema.IsRecord)
    (complete : String → Schema → Resolving Unit) (resolve : Way) (name parent : Option String)
    (property : Json) :
    r.resolveKind complete resolve schema name parent property =
      r.resolveNamed complete schema name := by
  obtain ⟨hkind, p, ps, hproperties⟩ := h
  rw [resolveKind, hkind]
  simp only [resolveObject, hproperties]

theorem registered_of_resolveNamed {complete : String → Schema → Resolving Unit}
    (hcomplete : r.Completes complete) (schema : Schema) {name : String} (hname : name ≠ "")
    (s : TypeState) : ∃ n t, r.FirstAvailable s.types name schema n ∧
      (outcome (r.resolveNamed complete schema (some name)) s).2.types.find (numbered name n) =
        some t ∧ t.schema.same schema = true ∧
      ∀ spelling, (outcome (r.resolveNamed complete schema (some name)) s).1 = .ok spelling →
        spelling = t.spelling := by
  obtain ⟨n, hfirst, ⟨t, ht, houtcome⟩ | ⟨hfree, houtcome⟩⟩ :=
    outcome_resolveNamed r complete schema hname s
  · refine ⟨n, t, hfirst, by rw [houtcome]; exact ht, ?_, fun spelling h => ?_⟩
    · exact available_of_find ht schema ▸ hfirst.1
    · rw [houtcome] at h
      exact (Except.ok.inj h).symm
  · have hfind : (r.registered s name schema n).types.find (numbered name n) =
        some (r.unfilled (numbered name n) schema) := Registry.find_add_self hfree
    have hpath : r.Path [] (r.registered s name schema n)
        (outcome (complete (numbered name n) schema) (r.registered s name schema n)).2 :=
      hcomplete _ _ _ _ (by simp) (by simp)
    obtain ⟨t, ht, hhead⟩ := hpath.find hfind
    refine ⟨n, t, hfirst, by rw [houtcome]; exact ht, ?_, fun spelling h => ?_⟩
    · rw [NamedType.schema_of_head hhead]
      exact Schema.same_refl schema
    · rw [houtcome] at h
      rw [NamedType.spelling_of_head hhead]
      cases hdone : (outcome (complete (numbered name n) schema)
          (r.registered s name schema n)).1 with
      | error e => simp [hdone, Except.map] at h
      | ok a => simpa [hdone, Except.map, eq_comm] using h

/-- Resolving an object with properties registers it, also when the call fails later on. -/
theorem registered_of_resolveSteps {complete : String → Schema → Resolving Unit}
    (hcomplete : r.Completes complete) (steps : Nat) {value : RefOr Schema}
    {name parent : Option String} {property : Json} {schema : Schema} {wanted : String}
    (hsubject : r.subject value name parent property = .ok (schema, some wanted))
    (hrecord : schema.IsRecord) (hwanted : wanted ≠ "") (s : TypeState) :
    let call := outcome (r.resolveSteps complete (steps + 1) value name parent property) s
    ∃ n t, r.FirstAvailable s.types wanted schema n ∧
      call.2.types.find (numbered wanted n) = some t ∧ t.schema.same schema = true ∧
      ∀ spelling, call.1 = .ok spelling → spelling = t.spelling := by
  simp only [outcome_resolveSteps, hsubject, resolveKind_of_isRecord hrecord]
  exact registered_of_resolveNamed hcomplete schema hwanted
    { s with journal := s.journal ++ r.hops value }

theorem exists_subject {complete : String → Schema → Resolving Unit} {steps : Nat}
    {value : RefOr Schema} {name parent : Option String} {property : Json}
    {component : Option String} {schema : Schema} {spelling : Spelling}
    (htarget : r.target value = .ok (component, schema)) (hrecord : schema.IsRecord)
    (h : outcome (r.resolveSteps complete (steps + 1) value name parent property) s =
      (.ok spelling, s')) :
    ∃ wanted, wanted ≠ "" ∧ r.subject value name parent property = .ok (schema, some wanted) := by
  rw [outcome_resolveSteps] at h
  cases hsubject : r.subject value name parent property with
  | error e => simp [hsubject] at h
  | ok found =>
    obtain ⟨schema', wanted⟩ := found
    obtain rfl : schema' = schema := by
      rw [subject, htarget] at hsubject
      dsimp only at hsubject
      split at hsubject
      · cases hsubject
      · exact (Prod.mk.inj (Except.ok.inj hsubject)).1.symm
    simp only [hsubject, resolveKind_of_isRecord hrecord] at h
    rcases wanted with _ | wanted
    · cases h
    · refine ⟨wanted, ?_, rfl⟩
      rintro rfl
      cases h

/-- A call, from outside or from within another one, that leads from `s` to `s'` and gives
`spelling` for `schema`, an object with properties. -/
def Names (r : Resolver) (s : TypeState) (schema : Schema) (spelling : Spelling)
    (s' : TypeState) : Prop :=
  schema.IsRecord ∧ ∃ value name parent property component, ∃ bound types steps,
    r.target value = .ok (component, schema) ∧
      outcome (r.resolveSteps (r.completeType bound types) steps value name parent property) s =
        (.ok spelling, s')

theorem names_of_resolve {value : RefOr Schema} {name parent : Option String} {property : Json}
    {component : Option String} {schema : Schema} {spelling : Spelling}
    (hrecord : schema.IsRecord) (htarget : r.target value = .ok (component, schema))
    (h : (outcome (r.resolve value name parent property) s).1.toOption = some spelling) :
    r.Names s schema spelling (outcome (r.resolve value name parent property) s).2 :=
  ⟨hrecord, value, name, parent, property, component, _, _, _, htarget, outcome_of_toOption h⟩

theorem Names.grows {schema : Schema} {spelling : Spelling} (h : r.Names s schema spelling s') :
    r.Grows s s' := by
  obtain ⟨-, value, name, parent, property, component, bound, types, steps, -, hcall⟩ := h
  exact Moves.leads (grows_resolveSteps (completes_completeType bound types) steps value name parent
    property) hcall

theorem Names.exists_find {schema : Schema} {spelling : Spelling}
    (h : r.Names s schema spelling s') : ∃ t, s'.types.find t.name = some t ∧
      spelling = t.spelling ∧ t.schema.same schema = true := by
  obtain ⟨hrecord, value, name, parent, property, component, bound, types, steps, htarget, hcall⟩ :=
    h
  cases steps with
  | zero => cases hcall
  | succ steps =>
    obtain ⟨wanted, hwanted, hsubject⟩ := exists_subject htarget hrecord hcall
    obtain ⟨n, t, -, hfind, hsame, hspelling⟩ := registered_of_resolveSteps
      (completes_completeType bound types) steps hsubject hrecord hwanted s
    rw [hcall] at hfind hspelling
    refine ⟨t, ?_, hspelling spelling rfl, hsame⟩
    rw [Registry.name_of_find hfind]
    exact hfind

/-- The type stays registered under its name, for the same schema. -/
theorem Names.exists_find_later {schema : Schema} {spelling : Spelling} {later : TypeState}
    (h : r.Names s schema spelling s') (hlater : r.Grows s' later) :
    ∃ t, later.types.find t.name = some t ∧ spelling = t.spelling ∧
      t.schema.same schema = true := by
  obtain ⟨t, hfind, hspelling, hsame⟩ := h.exists_find
  obtain ⟨t', hfind', hhead⟩ := Path.find hlater hfind
  refine ⟨t', ?_, ?_, ?_⟩
  · rw [Registry.name_of_find hfind']
    exact hfind'
  · rw [hspelling, NamedType.spelling_of_head hhead]
  · rw [NamedType.schema_of_head hhead]
    exact hsame

/-! ## The registry -/

/-- Whatever a resolver that starts without types is asked for, its registry is written once: the
types of any moment are the first ones of every later moment, no name comes twice, and every type
has its qualified name. A type that is given for an object with properties, at any moment, is
registered then and later for a schema that equals the object's, so objects that share a type are
equal. -/
theorem registry_written_once (r : Resolver) (journal : Journal) (earlier later : List Query) :
    let s := r.afterAll ⟨[], journal⟩ earlier
    let s' := r.afterAll s later
    (s.types <+: s'.types ∧ s'.types.names.Nodup ∧
      ∀ t ∈ s'.types, t.qualified = Dialect.qualify r.namespaceName t.name) ∧
    (∀ start schema spelling final, r.Names start schema spelling final →
      ∀ queries, ∃ t, (r.afterAll final queries).types.find t.name = some t ∧
        spelling = t.spelling ∧ t.schema.same schema = true) ∧
    ∀ start schema₁ schema₂ spelling₁ spelling₂ final₁ final₂ queries,
      r.Names start schema₁ spelling₁ final₁ →
      r.Names (r.afterAll final₁ queries) schema₂ spelling₂ final₂ →
      spelling₁.named = spelling₂.named → schema₁.same schema₂ = true := by
  intro s s'
  have hsound : r.Sound s'.types := Path.sound (grows_afterAll s later) (sound_afterAll ..)
  refine ⟨⟨(grows_afterAll s later).types_isPrefix, hsound.nodup, fun t ht => ?_⟩, ?_, ?_⟩
  · exact hsound.qualified t.head (List.mem_map_of_mem ht)
  · intro start schema spelling final hnames queries
    exact hnames.exists_find_later (grows_afterAll final queries)
  · intro start schema₁ schema₂ spelling₁ spelling₂ final₁ final₂ queries h₁ h₂ heq
    obtain ⟨t₁, hfind₁, rfl, hsame₁⟩ :=
      h₁.exists_find_later (IsTrans.trans _ _ _ (grows_afterAll final₁ queries) h₂.grows)
    obtain ⟨t₂, hfind₂, rfl, hsame₂⟩ := h₂.exists_find
    have hname : t₁.name = t₂.name := List.singleton_inj.1 heq
    obtain rfl : t₁ = t₂ := by
      rw [hname, hfind₂] at hfind₁
      exact (Option.some.inj hfind₁).symm
    exact Schema.same_trans (Schema.same_symm hsame₁) hsame₂

/-- Two objects that want the same name: the second gets a number, and the first keeps its type. -/
theorem registry_written_once_item :
    let r : Resolver := ⟨none, .python, "acme"⟩
    let second : Query := .type (.inline (.single "name")) (some "item") none .null
    let s := (outcome (r.resolve (.inline (.single "id")) (some "item")) {}).2
    r.Names {} (.single "id") ⟨"Item", "acme.schemas.Item", ["Item"]⟩ s ∧
      r.Names s (.single "name") ⟨"Item2", "acme.schemas.Item2", ["Item2"]⟩ (r.after s second) ∧
      ∃ t, (r.afterAll s [second]).types.find t.name = some t ∧
        ⟨"Item", "acme.schemas.Item", ["Item"]⟩ = t.spelling ∧
        t.schema.same (.single "id") = true := by
  intro r second s
  have hfirst : r.Names {} (.single "id") ⟨"Item", "acme.schemas.Item", ["Item"]⟩ s :=
    names_of_resolve (Schema.isRecord_single "id") rfl (by decide +kernel)
  have hsecond : r.Names s (.single "name") ⟨"Item2", "acme.schemas.Item2", ["Item2"]⟩
      (r.after s second) :=
    names_of_resolve (Schema.isRecord_single "name") rfl (by decide +kernel)
  exact ⟨hfirst, hsecond, (registry_written_once r [] [] []).2.1 _ _ _ _ hfirst [second]⟩

end Resolver

end ApiClient
