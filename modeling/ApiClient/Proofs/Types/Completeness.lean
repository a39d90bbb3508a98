import ApiClient.Proofs.Types.Termination
import Mathlib

/-!
# Completed types

A type is registered before its fields are known, and schemas that contain themselves find it in that
state. When a call has given its result, every type that it has registered has one field for each
property of its schema, in order, and the type of a field is what resolving the property gives from
then on (`Complete`). This is a fact about the successful runs of a piece of work (`Fills`), with an
exception for the type that is being filled; `exists_fields_addFields` speaks of that one. After calls
that all succeed, all types are complete (`types_complete`).
-/

namespace ApiClient

open Naming Working

namespace Resolver

variable {r : Resolver} {s s' s'' : TypeState} {name : String} {schema : Schema}

/-! ## Complete types -/

/-- The field that a property has in the type `name` of `schema`; its type is settled. -/
structure IsField (r : Resolver) (s : TypeState) (name : String) (schema : Schema)
    (property : String × RefOr Schema) (f : Field) : Prop where
  name_eq : f.name = property.1
  identifier_eq : f.identifier = r.dialect.identifier property.1
  required_eq : f.required = schema.required.any fun j => j.same (.str property.1)
  description_eq : f.description = fieldDescription property.2
  settled : r.Settled (r.resolve property.2 none (some name) (.str property.1)) f.type s

/-- One field for each property of the schema, in order. -/
def Complete (r : Resolver) (s : TypeState) (t : NamedType) : Prop :=
  List.Forall₂ (r.IsField s t.name t.schema) (t.schema.properties.getD []) t.fields

theorem Settled.later {α : Type} {work : Resolving α} {a : α} (h : r.Settled work a s)
    (hpath : r.Path [] s s') : r.Settled work a s' :=
  fun later hlater => h later (hpath.trans hlater)

theorem IsField.later {property : String × RefOr Schema} {f : Field}
    (h : r.IsField s name schema property f) (hpath : r.Path [] s s') :
    r.IsField s' name schema property f :=
  { h with settled := h.settled.later hpath }

theorem Complete.later {t : NamedType} (h : r.Complete s t) (hpath : r.Path [] s s') :
    r.Complete s' t :=
  h.imp fun _ _ hf => hf.later hpath

theorem map_eq_of_forall₂ {α β γ : Type} {R : α → β → Prop} {f : α → γ} {g : β → γ}
    (hR : ∀ a b, R a b → g b = f a) {as : List α} {bs : List β} (h : List.Forall₂ R as bs) :
    bs.map g = as.map f := by
  induction h with
  | nil => rfl
  | cons hab _ ih => rw [List.map_cons, List.map_cons, hR _ _ hab, ih]

theorem Complete.map_name {t : NamedType} (h : r.Complete s t) :
    t.fields.map (·.name) = (t.schema.properties.getD []).map Prod.fst :=
  map_eq_of_forall₂ (fun _ _ hf => hf.name_eq) h

theorem Complete.map_identifier {t : NamedType} (h : r.Complete s t) :
    t.fields.map (·.identifier) =
      ((t.schema.properties.getD []).map Prod.fst).map r.dialect.identifier := by
  rw [List.map_map]
  exact map_eq_of_forall₂ (fun _ _ hf => hf.identifier_eq) h

theorem Complete.identifier_of_mem {t : NamedType} (h : r.Complete s t) :
    ∀ f ∈ t.fields, f.identifier = r.dialect.identifier f.name := by
  rw [← List.map_inj_left, h.map_identifier, ← h.map_name, List.map_map]
  rfl

/-! ## Runs that fill what they register -/

theorem Path.find_frozen {frozen : List String} (h : r.Path frozen s s') (hname : name ∈ frozen)
    {t : NamedType} (ht : s.types.find name = some t) : s'.types.find name = some t := by
  induction h with
  | refl => exact ht
  | tail _ hedit ih =>
    cases hedit with
    | record => exact ih
    | register => exact Registry.find_add_of_find ih _
    | @field other f hother =>
      have hne : name ≠ other := fun heq => hother (heq ▸ hname)
      exact (Registry.find_addField_of_ne hne _ f).trans ih

/-- The run leaves the types alone that are there, and completes the others; `filling` names types
of which nothing is said. -/
structure Fills (r : Resolver) (filling : List String) (s s' : TypeState) : Prop where
  path : r.Path (s.types.names.filter (· ∉ filling)) s s'
  complete : ∀ n ∉ filling, ∀ t, s.types.find n = none → s'.types.find n = some t →
    r.Complete s' t

variable {filling : List String}

theorem Fills.find (h : r.Fills filling s s') {n : String} (hn : n ∉ filling) {t : NamedType}
    (ht : s.types.find n = some t) : s'.types.find n = some t := by
  refine h.path.find_frozen (List.mem_filter.2 ⟨?_, by simpa using hn⟩) ht
  by_contra hnames
  rw [Registry.find_eq_none_iff.2 hnames] at ht
  cases ht

theorem Fills.weaken {filling' : List String} (hsub : filling ⊆ filling')
    (h : r.Fills filling s s') : r.Fills filling' s s' where
  path := by
    refine h.path.weaken fun n hn => ?_
    obtain ⟨hmem, hnot⟩ := List.mem_filter.1 hn
    simp only [decide_eq_true_eq] at hnot
    exact List.mem_filter.2 ⟨hmem, by simpa using fun hf => hnot (hsub hf)⟩
  complete n hn t := h.complete n (fun hf => hn (hsub hf)) t

theorem Fills.trans (h : r.Fills filling s s') (h' : r.Fills filling s' s'') :
    r.Fills filling s s'' where
  path := by
    refine h.path.trans (h'.path.weaken fun n hn => ?_)
    obtain ⟨hmem, hnot⟩ := List.mem_filter.1 hn
    exact List.mem_filter.2 ⟨h.path.names_subset hmem, hnot⟩
  complete n hn t hnone ht := by
    cases hmiddle : s'.types.find n with
    | none => exact h'.complete n hn t hmiddle ht
    | some t' =>
      obtain rfl := Option.some.inj ((h'.find hn hmiddle).symm.trans ht)
      exact (h.complete n hn t' hnone hmiddle).later (h'.path.weaken (List.nil_subset _))

instance : Std.Refl (r.Fills filling) :=
  ⟨fun s => ⟨Path.refl s, fun n _ t hnone ht => by rw [hnone] at ht; cases ht⟩⟩

instance : IsTrans TypeState (r.Fills filling) :=
  ⟨fun _ _ _ => Fills.trans⟩

theorem fills_record (s : TypeState) (entries : Journal) :
    r.Fills filling s { s with journal := s.journal ++ entries } where
  path := (Edit.record s entries).path
  complete n _ t hnone ht := by
    rw [hnone] at ht
    cases ht

theorem fills_field (s : TypeState) (name : String) (f : Field) :
    r.Fills [name] s { s with types := s.types.addField name f } where
  path := (Edit.field s f (by simp)).path
  complete n hn t hnone ht := by
    rw [Registry.find_addField_of_ne (by simpa using hn), hnone] at ht
    cases ht

theorem fills_of_grows (hgrows : r.Grows s s')
    (h : ∀ n ∉ filling, ∀ t, s.types.find n = none → s'.types.find n = some t →
      r.Complete s' t) : r.Fills filling s s' :=
  ⟨hgrows.weaken (List.filter_sublist.subset), h⟩

/-! ## The fields of a new type -/

/-- A way to the types of schemas that fills what it registers, and whose results are settled. -/
structure WayFills (r : Resolver) (resolve : Way) : Prop where
  delivers : ∀ value name parent property,
    Delivers (r.Fills []) (resolve value name parent property)
  settled : ∀ {value name parent property spelling} {s s' : TypeState},
    outcome (resolve value name parent property) s = (.ok spelling, s') →
      r.Settled (r.resolve value name parent property) spelling s'

theorem fills_addFields {resolve : Way} (hresolve : r.WayFills resolve) (name : String)
    (schema : Schema) : ∀ properties : List (String × RefOr Schema),
      Delivers (r.Fills [name]) (r.addFields resolve name schema properties)
  | [] => Delivers.pure ()
  | (property, value) :: rest => by
    have hvalue : Delivers (r.Fills [name]) (within (name ++ "." ++ property)
        (resolve value none (some name) (.str property))) := fun s s' type h =>
      (((hresolve.delivers value none (some name) (.str property)).within _) s s' type h).weaken
        (List.nil_subset _)
    refine hvalue.bind fun type => Delivers.bind ?_ fun _ => fills_addFields hresolve name schema rest
    intro s s' _ h
    obtain ⟨-, rfl⟩ := Prod.mk.inj h
    exact fills_field s name _

/-- A type gets one field for each property, after those that it has. -/
theorem exists_fields_addFields {resolve : Way} (hresolve : r.WayFills resolve) :
    ∀ {properties : List (String × RefOr Schema)} {s s' : TypeState} {t : NamedType},
      s.types.find name = some t →
      outcome (r.addFields resolve name schema properties) s = (.ok (), s') →
      ∃ fields, List.Forall₂ (r.IsField s' name schema) properties fields ∧
        s'.types.find name = some { t with fields := t.fields ++ fields }
  | [], s, s', t, ht, h => by
    obtain ⟨-, rfl⟩ := of_outcome_pure h
    exact ⟨[], .nil, by simpa using ht⟩
  | (property, value) :: rest, s, s', t, ht, h => by
    obtain ⟨type, s₁, hfirst, hrest⟩ := exists_of_outcome_bind h
    have htype := outcome_of_within hfirst
    have ht₁ : s₁.types.find name = some t :=
      (hresolve.delivers _ _ _ _ s s₁ type htype).find (by simp) ht
    let f : Field := {
      name := property
      identifier := r.dialect.identifier property
      type
      required := schema.required.any fun j => j.same (.str property)
      description := fieldDescription value }
    let s₂ : TypeState := { s₁ with types := s₁.types.addField name f }
    have hrest₂ : outcome (r.addFields resolve name schema rest) s₂ = (.ok (), s') := hrest
    have ht₂ : s₂.types.find name = some { t with fields := t.fields ++ [f] } :=
      Registry.find_addField_self ht₁ f
    obtain ⟨fields, hfields, ht'⟩ := exists_fields_addFields hresolve ht₂ hrest₂
    have hpath : r.Path [] s₁ s' :=
      ((fills_field s₁ name f).trans (fills_addFields hresolve name schema rest s₂ s' () hrest₂)).path
        |>.weaken (List.nil_subset _)
    refine ⟨f :: fields, .cons ⟨rfl, rfl, rfl, rfl, ?_⟩ hfields, by simpa using ht'⟩
    exact (hresolve.settled htype).later hpath

/-- What fills a new type completes it, and all that it registers. -/
def Fulfils (r : Resolver) (complete : String → Schema → Resolving Unit) : Prop :=
  ∀ {name schema} {s s' : TypeState}, s.types.find name = some (r.unfilled name schema) →
    outcome (complete name schema) s = (.ok (), s') →
      r.Fills [name] s s' ∧ ∃ t, s'.types.find name = some t ∧ r.Complete s' t

theorem fulfils_addFields {resolve : Way} (hresolve : r.WayFills resolve) :
    r.Fulfils fun name schema => r.addFields resolve name schema (schema.properties.getD []) := by
  intro name schema s s' hfind h
  obtain ⟨fields, hfields, ht⟩ := exists_fields_addFields hresolve hfind h
  refine ⟨fills_addFields hresolve name schema _ s s' () h, _, ht, ?_⟩
  simpa [Complete, unfilled] using hfields

theorem fills_resolveNamed {complete : String → Schema → Resolving Unit}
    (hcomplete : r.Completes complete) (hfulfils : r.Fulfils complete) (schema : Schema)
    {name : Option String} (hname : ∀ n ∈ name, ∃ base, n = r.dialect.typeName base) :
    Delivers (r.Fills []) (r.resolveNamed complete schema name) := by
  intro s s' spelling h
  refine fills_of_grows ((grows_resolveNamed hcomplete schema hname).leads h) ?_
  intro n _ t hnone ht
  rcases name with _ | name
  · cases h
  have hne : name ≠ "" := by
    rintro rfl
    cases h
  obtain ⟨k, -, ⟨u, -, hrun⟩ | ⟨hfree, hrun⟩⟩ := outcome_resolveNamed r complete schema hne s
  · obtain ⟨-, rfl⟩ := Prod.mk.inj (hrun.symm.trans h)
    rw [hnone] at ht
    cases ht
  · have hfind : (r.registered s name schema k).types.find (numbered name k) =
        some (r.unfilled (numbered name k) schema) := Registry.find_add_self hfree
    obtain ⟨hresult, hstate⟩ := Prod.mk.inj (hrun.symm.trans h)
    have hdone : outcome (complete (numbered name k) schema) (r.registered s name schema k) =
        (.ok (), s') := by
      rw [← hstate]
      cases hrun' : (outcome (complete (numbered name k) schema)
          (r.registered s name schema k)).1 with
      | error e => simp [hrun', Except.map] at hresult
      | ok a => exact Prod.ext hrun' rfl
    obtain ⟨hfills, t', ht', hcomplete'⟩ := hfulfils hfind hdone
    by_cases heq : numbered name k = n
    · subst heq
      obtain rfl := Option.some.inj (ht'.symm.trans ht)
      exact hcomplete'
    · refine hfills.complete n (by simpa [eq_comm] using heq) t ?_ ht
      exact (Registry.find_add_of_ne (t := r.unfilled (numbered name k) schema) heq _).trans hnone

/-! ## All calls -/

/-- A call that gives a spelling has come to the end of its way. -/
theorem ends_of_outcome {complete : String → Schema → Resolving Unit} {steps : Nat}
    {value : RefOr Schema} {name parent : Option String} {property : Json} {spelling : Spelling}
    (h : outcome (r.resolveSteps complete steps value name parent property) s =
      (.ok spelling, s')) : r.ends steps value = true := by
  induction steps generalizing value name parent property s s' spelling with
  | zero => cases h
  | succ steps ih =>
    rw [outcome_resolveSteps] at h
    cases hsubject : r.subject value name parent property with
    | error e => simp [hsubject] at h
    | ok found =>
      obtain ⟨schema, passed⟩ := found
      obtain ⟨component, htarget, -⟩ := target_of_subject hsubject
      rw [hsubject] at h
      rw [ends_of_target htarget, ends_inline]
      cases hnext : schema.next with
      | none => rfl
      | some v =>
        dsimp only at h
        rw [resolveKind_of_next hnext] at h
        obtain ⟨inner, s₁, hinner, -⟩ := exists_of_outcome_bind h
        exact ih hinner

/-- What a call gives under some limits, the call from outside gives from then on. -/
theorem settled_resolve {complete : String → Schema → Resolving Unit}
    (hcomplete : r.Completes complete) {steps : Nat} {value : RefOr Schema}
    {name parent : Option String} {property : Json} {spelling : Spelling}
    (h : outcome (r.resolveSteps complete steps value name parent property) s =
      (.ok spelling, s')) : r.Settled (r.resolve value name parent property) spelling s' := by
  intro later hpath
  have hends : r.ends (min steps (r.bound value)) value = true := by
    have hsteps := ends_of_outcome h
    rcases min_choice steps (r.bound value) with hmin | hmin
    · rw [hmin]
      exact hsteps
    · rw [hmin]
      exact ends_bound hsteps
  have hquiet : Quiet (r.resolveSteps complete steps value name parent property) spelling later :=
    (settles_resolveSteps hcomplete steps value name parent property).settled h later hpath
  -- the head of the call is known by now, so no limit makes a difference any more
  have halike : EndsAlike (r.resolveSteps complete steps value name parent property)
      (r.resolve value name parent property) later := by
    refine endsAlike_resolveSteps hends (min_le_left _ _) (min_le_right _ _) ?_
    intro head wanted hheads t m ht hfirst hfree
    obtain ⟨n, u, hfirst', hfind⟩ := (hheads.known hcomplete h).later hpath
    rw [← ht] at hfirst' hfind
    obtain rfl := hfirst.unique hfirst'
    rw [hfree] at hfind
    cases hfind
  obtain ⟨entries, hnotes, hrun⟩ := hquiet
  exact ⟨entries, hnotes, halike.1 ▸ hrun⟩

theorem wayFills_resolveSteps {complete : String → Schema → Resolving Unit}
    (hcomplete : r.Completes complete) (hfulfils : r.Fulfils complete) (steps : Nat) :
    r.WayFills (r.resolveSteps complete steps) where
  delivers := by
    refine closed_resolveSteps closed_delivers (fun value s s' _ h => ?_)
      (fun schema wanted => fills_resolveNamed hcomplete hfulfils schema
        (exists_typeName_of_map wanted)) steps
    obtain ⟨-, rfl⟩ := Prod.mk.inj h
    exact fills_record s (r.hops value)
  settled := settled_resolve hcomplete

theorem fulfils_completeType (steps : Nat) : ∀ types, r.Fulfils (r.completeType steps types)
  | 0 => fun _ h => by cases h
  | types + 1 =>
    fulfils_addFields (wayFills_resolveSteps (completes_completeType steps types)
      (fulfils_completeType steps types) steps)

theorem fills_resolve (value : RefOr Schema) (name parent : Option String) (property : Json) :
    Delivers (r.Fills []) (r.resolve value name parent property) :=
  (wayFills_resolveSteps (completes_completeType _ _) (fulfils_completeType _ _) _).delivers
    value name parent property

theorem fills_resolveComponents (r : Resolver) : Delivers (r.Fills []) r.resolveComponents :=
  closed_resolveEach closed_delivers (fun value _ => fills_resolve value _ _ _) _

/-! ## Calls that all succeed -/

/-- The query does not fail. -/
def Answered (r : Resolver) (s : TypeState) : Query → Prop
  | .type value name parent property =>
    ∃ spelling, (outcome (r.resolve value name parent property) s).1 = .ok spelling
  | .components => (outcome r.resolveComponents s).1 = .ok ()

/-- None of the queries fails, one after another. -/
def AllAnswered (r : Resolver) : TypeState → List Query → Prop
  | _, [] => True
  | s, q :: rest => r.Answered s q ∧ r.AllAnswered (r.after s q) rest

theorem Answered.fills {q : Query} (h : r.Answered s q) : r.Fills [] s (r.after s q) := by
  cases q with
  | type value name parent property =>
    obtain ⟨spelling, hresult⟩ := h
    exact fills_resolve value name parent property s _ spelling (Prod.ext hresult rfl)
  | components => exact fills_resolveComponents r s _ () (Prod.ext h rfl)

theorem AllAnswered.fills : ∀ {queries : List Query} {s : TypeState}, r.AllAnswered s queries →
    r.Fills [] s (r.afterAll s queries)
  | [], s, _ => Std.Refl.refl s
  | _ :: _, _, ⟨hfirst, hrest⟩ => hfirst.fills.trans hrest.fills

theorem any_same_iff {required : List Json} {property : String} :
    (required.any fun j => j.same (.str property)) = true ↔ Json.str property ∈ required := by
  rw [List.any_eq_true]
  constructor
  · rintro ⟨j, hj, hsame⟩
    rw [Json.eq_str_of_same (Json.same_symm hsame)] at hj
    exact hj
  · intro h
    exact ⟨_, h, Json.same_refl _⟩

/-- After calls that all succeed, every type has exactly one field for each property of its schema, in
order, with the name of the property and its identifier, which is required if the schema says so; and
resolving the property again gives the type of the field, registers nothing and warns of nothing. -/
theorem types_complete (r : Resolver) (journal : Journal) (queries : List Query)
    (h : r.AllAnswered ⟨[], journal⟩ queries) :
    let s := r.afterAll ⟨[], journal⟩ queries
    ∀ t ∈ s.types, List.Forall₂ (fun property f =>
        f.name = property.1 ∧ f.identifier = r.dialect.identifier property.1 ∧
        (f.required = true ↔ Json.str property.1 ∈ t.schema.required) ∧
        ∃ entries : Journal, entries.warnings = [] ∧
          outcome (r.resolve property.2 none (some t.name) (.str property.1)) s =
            (.ok f.type, { s with journal := s.journal ++ entries }))
      (t.schema.properties.getD []) t.fields := by
  intro s t ht
  have hfind : s.types.find t.name = some t :=
    Registry.find_of_mem (sound_afterAll r journal queries).nodup ht
  have hcomplete : r.Complete s t := h.fills.complete t.name (by simp) t rfl hfind
  refine hcomplete.imp fun property f hf => ⟨hf.name_eq, hf.identifier_eq, ?_, ?_⟩
  · rw [hf.required_eq]
    exact any_same_iff
  · exact hf.settled s (Path.refl s)

/-- The types of the tree are complete; a node has the spellings of four properties. -/
theorem types_complete_tree :
    let s := tree.afterAll {} [.components]
    tree.AllAnswered {} [.components] ∧ s.types.names = ["Node", "NodeLink2", "NodeLink"] ∧
      (s.types.find "Node").map (fun t => t.fields.map fun f => (f.identifier, f.type.short)) =
        some [("next", "Node"), ("children", "list[list[Node]]"), ("index", "dict[str, Node]"),
          ("link", "NodeLink2")] ∧
      ∀ t ∈ s.types, List.Forall₂ (fun property f =>
          f.name = property.1 ∧ f.identifier = Dialect.python.identifier property.1 ∧
          (f.required = true ↔ Json.str property.1 ∈ t.schema.required) ∧
          ∃ entries : Journal, entries.warnings = [] ∧
            outcome (tree.resolve property.2 none (some t.name) (.str property.1)) s =
              (.ok f.type, { s with journal := s.journal ++ entries }))
        (t.schema.properties.getD []) t.fields := by
  intro s
  have hanswered : tree.AllAnswered {} [.components] := by
    have h : outcome tree.resolveComponents {} = (.ok (), (outcome tree.resolveComponents {}).2) :=
      outcome_of_toOption (by decide +kernel)
    exact ⟨congrArg Prod.fst h, trivial⟩
  exact ⟨hanswered, by decide +kernel, by decide +kernel, types_complete tree [] _ hanswered⟩

end Resolver

end ApiClient
