import ApiClient.Proofs.Types.Completeness
import Mathlib

/-!
# What a failed call leaves behind

A call that fails leaves the types alone that were there before. Of the types that it has registered, it
has filled some, and has stopped at a property of each of the others. These are the types of the trail of
the failure, in the order of their registration if the trail is read from its end (`LeftBehind`). This is
carried through the fields of a type by an invariant of the loop (`Filling`), and from a type to the types
inside it by the recursion of the calls (`types_left_behind`).
-/

namespace ApiClient

/-- One field for each property. -/
def NamedType.IsFilled (t : NamedType) : Prop :=
  t.fields.map Field.name = (t.schema.properties.getD []).map Prod.fst

instance (t : NamedType) : Decidable t.IsFilled :=
  inferInstanceAs (Decidable (_ = _))

/-- Places are noted of the failure, and it is not that of a call that goes on without an end. -/
def Failure.IsPlaced (f : Failure) : Prop :=
  f.cause.hasPlace = true ∧ f.cause ≠ .typing .endless

namespace Failure

theorem cause_within (place : String) (f : Failure) : (f.within place).cause = f.cause := by
  rw [within]
  split <;> rfl

theorem IsPlaced.of_within {place : String} {f : Failure} (h : (f.within place).IsPlaced) :
    f.IsPlaced := by
  rwa [IsPlaced, cause_within] at h

theorem IsPlaced.trail_within {f : Failure} (h : f.IsPlaced) (place : String) :
    (f.within place).trail = f.trail ++ [place] := by
  rw [within, if_pos h.1]

end Failure

namespace Working

variable {σ α β : Type} {x : Working σ α} {f : α → Working σ β} {s s' : σ} {e : Failure}

/-- A block that fails has a part that does. -/
theorem error_of_outcome_bind (h : outcome (x >>= f) s = (.error e, s')) :
    outcome x s = (.error e, s') ∨
      ∃ a s₁, outcome x s = (.ok a, s₁) ∧ outcome (f a) s₁ = (.error e, s') := by
  rw [outcome_bind] at h
  rcases hx : outcome x s with ⟨e' | a, s₁⟩
  · exact .inl (by simpa [hx] using h)
  · exact .inr ⟨a, s₁, rfl, by simpa [hx] using h⟩

theorem error_of_outcome_within {place : String}
    (h : outcome (tryCatch x fun f => throw (f.within place)) s = (.error e, s')) :
    ∃ f, outcome x s = (.error f, s') ∧ e = f.within place := by
  rw [outcome_within] at h
  rcases hx : outcome x s with ⟨f | a, s₁⟩
  · rw [hx] at h
    obtain ⟨he, rfl⟩ := Prod.mk.inj h
    exact ⟨f, rfl, (Except.error.inj he).symm⟩
  · rw [hx] at h
    cases h

end Working

namespace Resolver

open Naming Working

variable {r : Resolver} {s s' : TypeState} {f : Failure}

/-! ## Filled types -/

theorem names_of_fields {name : String} {schema : Schema}
    {properties : List (String × RefOr Schema)} {fields : List Field}
    (h : List.Forall₂ (r.IsField s name schema) properties fields) :
    fields.map Field.name = properties.map Prod.fst := by
  induction h with
  | nil => rfl
  | cons hfield _ ih => rw [List.map_cons, List.map_cons, hfield.name_eq, ih]

theorem Complete.isFilled {t : NamedType} (h : r.Complete s t) : t.IsFilled :=
  names_of_fields h

/-- The names that edits bring into a registry are new, and there is one type of each. -/
theorem Path.exists_names {frozen : List String} (h : r.Path frozen s s') :
    ∃ new, s'.types.names = s.types.names ++ new ∧ new.Nodup ∧ ∀ n ∈ new, n ∉ s.types.names := by
  induction h with
  | refl => exact ⟨[], by simp, List.nodup_nil, by simp⟩
  | tail _ hedit ih =>
    obtain ⟨new, hnames, hnodup, hnew⟩ := ih
    cases hedit with
    | record => exact ⟨new, hnames, hnodup, hnew⟩
    | field _ f => exact ⟨new, by rw [Registry.names_addField, hnames], hnodup, hnew⟩
    | @register name _ _ hfree =>
      rw [Registry.find_eq_none_iff, hnames, List.mem_append, not_or] at hfree
      refine ⟨new ++ [name], ?_, ?_, fun n hn => ?_⟩
      · rw [Registry.names_add, hnames, List.append_assoc]
        rfl
      · exact List.nodup_append.2 ⟨hnodup, by simp, fun a ha b hb => by
          rintro rfl
          exact hfree.2 ((List.mem_singleton.1 hb) ▸ ha)⟩
      · rcases List.mem_append.1 hn with hn | hn
        · exact hnew n hn
        · exact (List.mem_singleton.1 hn) ▸ hfree.1

/-- A run that fills what it registers has registered filled types under new names. -/
theorem Fills.exists_added (h : r.Fills [] s s') : ∃ added, s'.types = s.types ++ added ∧
    ∀ t ∈ added, t.IsFilled ∧ t.name ∉ s.types.names := by
  obtain ⟨added, hadded⟩ : s.types <+: s'.types :=
    h.path.frozen_isPrefix (by simp) (List.prefix_refl _)
  obtain ⟨new, hnames, hnodup, hnew⟩ := h.path.exists_names
  have hnew_eq : Registry.names added = new := by
    rw [← hadded, Registry.names, List.map_append] at hnames
    exact List.append_cancel_left hnames
  refine ⟨added, hadded.symm, fun t ht => ?_⟩
  have hfresh : t.name ∉ s.types.names := hnew _ (hnew_eq ▸ List.mem_map_of_mem ht)
  have hfind : s'.types.find t.name = some t := by
    have hself : Registry.find added t.name = some t := Registry.find_of_mem (hnew_eq ▸ hnodup) ht
    have hnone := Registry.find_eq_none_iff.2 hfresh
    rw [Registry.find] at hself hnone
    rw [← hadded, Registry.find, List.find?_append, hnone, hself]
    rfl
  exact ⟨(h.complete t.name (by simp) t (Registry.find_eq_none_iff.2 hfresh) hfind).isFilled, hfresh⟩

/-! ## Types that are left unfilled -/

/-- The type has the fields of the properties before this one, and no more. -/
def StopsAt (r : Resolver) (s : TypeState) (t : NamedType) (property : String) : Prop :=
  ∃ before value after, t.schema.properties.getD [] = before ++ (property, value) :: after ∧
    List.Forall₂ (r.IsField s t.name t.schema) before t.fields

theorem StopsAt.not_isFilled {t : NamedType} {property : String} (h : r.StopsAt s t property) :
    ¬ t.IsFilled := by
  obtain ⟨before, value, after, hproperties, hfields⟩ := h
  intro hfilled
  rw [NamedType.IsFilled, names_of_fields hfields, hproperties, List.map_append] at hfilled
  simp at hfilled

/-- The place of a property of a type. -/
def placeOf (e : NamedType × String) : String :=
  e.1.name ++ "." ++ e.2

/-- Behind the types `before` there are types of which those of the trail are not filled, the last of
them first. -/
def LeftBehind (r : Resolver) (before : Registry) (s : TypeState) (trail : List String) : Prop :=
  ∃ (added : Registry) (stack : List (NamedType × String)), s.types = before ++ added ∧
    trail = stack.map placeOf ∧
    (added.filter fun t => ¬ t.IsFilled) = (stack.map Prod.fst).reverse ∧
    ∀ e ∈ stack, r.StopsAt s e.1 e.2

theorem leftBehind_nil {before : Registry} (h : s.types = before) : r.LeftBehind before s [] :=
  ⟨[], [], by simpa using h, rfl, rfl, by simp⟩

/-- The type `t` with the types around it, while the properties `rest` have no field yet. -/
structure Filling (r : Resolver) (front back : Registry) (t : NamedType) (s : TypeState)
    (rest : List (String × RefOr Schema)) : Prop where
  types_eq : s.types = front ++ t :: back
  notMem_front : t.name ∉ front.names
  notMem_back : t.name ∉ back.names
  filled : ∀ u ∈ back, u.IsFilled
  fields : ∃ done, t.schema.properties.getD [] = done ++ rest ∧
    List.Forall₂ (r.IsField s t.name t.schema) done t.fields

namespace Filling

variable {front back : Registry} {t : NamedType} {property : String} {value : RefOr Schema}
  {rest : List (String × RefOr Schema)}

/-- The next field, whose type may have brought new types with it. -/
theorem next (h : r.Filling front back t s ((property, value) :: rest)) (hfills : r.Fills [] s s')
    {field : Field} (hfield : r.IsField s' t.name t.schema (property, value) field) :
    ∃ back', r.Filling front back' { t with fields := t.fields ++ [field] }
      { s' with types := s'.types.addField t.name field } rest := by
  obtain ⟨added, hadded, hnew⟩ := hfills.exists_added
  obtain ⟨done, hdone, hfields⟩ := h.fields
  have hback : t.name ∉ Registry.names (back ++ added) := by
    rw [Registry.names, List.map_append, List.mem_append, not_or]
    refine ⟨h.notMem_back, fun hmem => ?_⟩
    obtain ⟨u, hu, hname⟩ := List.mem_map.1 hmem
    refine (hnew u hu).2 ?_
    rw [hname, h.types_eq]
    simp [Registry.names]
  have htypes : s'.types = front ++ t :: (back ++ added) := by
    rw [hadded, h.types_eq, List.append_assoc, List.cons_append]
  have hpath : r.Path [] s { s' with types := s'.types.addField t.name field } :=
    (hfills.path.weaken (List.nil_subset _)).trans (Edit.field s' field (by simp)).path
  have hlater : r.Path [] s' { s' with types := s'.types.addField t.name field } :=
    (Edit.field s' field (by simp)).path
  refine ⟨back ++ added, ?_, h.notMem_front, hback, fun u hu => ?_, done ++ [(property, value)], ?_, ?_⟩
  · rw [htypes]
    exact Registry.addField_append_cons h.notMem_front hback field
  · rcases List.mem_append.1 hu with hu | hu
    · exact h.filled u hu
    · exact (hnew u hu).1
  · rw [hdone, List.append_assoc]
    rfl
  · exact List.rel_append (hfields.imp fun _ _ hf => hf.later hpath) (.cons (hfield.later hlater) .nil)

/-- The next field cannot be found, and what the call for its type leaves behind is left there. -/
theorem stop (h : r.Filling front back t s ((property, value) :: rest)) (hpath : r.Path [] s s')
    {trail : List String} (hleft : r.LeftBehind s.types s' trail) :
    r.LeftBehind front s' (trail ++ [placeOf (t, property)]) := by
  obtain ⟨added, stack, hadded, htrail, hunfilled, hstops⟩ := hleft
  obtain ⟨done, hdone, hfields⟩ := h.fields
  have hstop : r.StopsAt s' t property :=
    ⟨done, value, rest, hdone, hfields.imp fun _ _ hf => hf.later hpath⟩
  have hback : (back.filter fun u => ¬ u.IsFilled) = [] :=
    List.filter_eq_nil_iff.2 fun u hu => by simpa using h.filled u hu
  refine ⟨t :: back ++ added, stack ++ [(t, property)], ?_, ?_, ?_, fun e he => ?_⟩
  · rw [hadded, h.types_eq, List.append_assoc]
  · rw [htrail, List.map_append]
    rfl
  · rw [List.cons_append, List.filter_cons_of_pos (by simpa using hstop.not_isFilled),
      List.filter_append, hback, hunfilled, List.map_append, List.reverse_append]
    rfl
  · rcases List.mem_append.1 he with he | he
    · exact hstops e he
    · obtain rfl := List.mem_singleton.1 he
      exact hstop

end Filling

/-! ## Calls that fail -/

/-- A way that leaves the types of the trail behind, if it fails. -/
def WayLeaves (r : Resolver) (resolve : Way) : Prop :=
  ∀ ⦃value name parent property⦄ ⦃s s' : TypeState⦄ ⦃f : Failure⦄,
    outcome (resolve value name parent property) s = (.error f, s') → f.IsPlaced →
      r.LeftBehind s.types s' f.trail

theorem leftBehind_addFields {resolve : Way} (hfills : r.WayFills resolve)
    (hgrows : r.WayGrows resolve) (hleaves : r.WayLeaves resolve) {front : Registry} :
    ∀ {rest : List (String × RefOr Schema)} {back : Registry} {t : NamedType} {s : TypeState},
      r.Filling front back t s rest →
      outcome (r.addFields resolve t.name t.schema rest) s = (.error f, s') → f.IsPlaced →
        r.LeftBehind front s' f.trail
  | [], _, _, _, _, h, _ => by cases h
  | (property, value) :: rest, back, t, s, hfilling, h, hplaced => by
    obtain hvalue | ⟨type, s₁, hvalue, hrest⟩ := error_of_outcome_bind h
    · obtain ⟨inner, hinner, rfl⟩ := error_of_outcome_within hvalue
      rw [hplaced.of_within.trail_within]
      have hpath : r.Path [] s s' :=
        Path.weaken (List.nil_subset _) ((hgrows _ _ _ _).leads hinner)
      exact hfilling.stop hpath (hleaves hinner hplaced.of_within)
    · have htype := outcome_of_within hvalue
      let field : Field := {
        name := property
        identifier := r.dialect.identifier property
        type
        required := t.schema.required.any fun j => j.same (.str property)
        description := fieldDescription value }
      have hfield : r.IsField s₁ t.name t.schema (property, value) field :=
        ⟨rfl, rfl, rfl, rfl, hfills.settled htype⟩
      obtain ⟨back', hnext⟩ := hfilling.next (hfills.delivers _ _ _ _ s s₁ type htype) hfield
      exact leftBehind_addFields hfills hgrows hleaves hnext hrest hplaced

/-- What fills a new type leaves the types of the trail behind, if it fails, and the new type is the
first of them. -/
def FulfilsOrLeaves (r : Resolver) (complete : String → Schema → Resolving Unit) : Prop :=
  ∀ ⦃name schema front⦄ ⦃s s' : TypeState⦄ ⦃f : Failure⦄,
    s.types = front ++ [r.unfilled name schema] → name ∉ Registry.names front →
    outcome (complete name schema) s = (.error f, s') → f.IsPlaced → r.LeftBehind front s' f.trail

theorem leftBehind_resolveNamed {complete : String → Schema → Resolving Unit}
    (hcomplete : r.FulfilsOrLeaves complete) {schema : Schema} {name : Option String}
    (h : outcome (r.resolveNamed complete schema name) s = (.error f, s')) (hplaced : f.IsPlaced) :
    r.LeftBehind s.types s' f.trail := by
  have hnameless : ∀ {cause : Cause}, (.error { cause }, s) = ((.error f, s') : Except Failure Spelling × _) →
      r.LeftBehind s.types s' f.trail := fun heq => by
    obtain ⟨hf, rfl⟩ := Prod.mk.inj heq
    obtain rfl := Except.error.inj hf
    exact leftBehind_nil rfl
  rcases name with _ | name
  · exact hnameless h
  by_cases hempty : name = ""
  · subst hempty
    exact hnameless h
  obtain ⟨n, -, ⟨t, -, hrun⟩ | ⟨hfree, hrun⟩⟩ := outcome_resolveNamed r complete schema hempty s
  · rw [hrun] at h
    cases h
  · rw [hrun] at h
    obtain ⟨hresult, hstate⟩ := Prod.mk.inj h
    have hdone : outcome (complete (numbered name n) schema) (r.registered s name schema n) =
        (.error f, s') := by
      cases hrun' : (outcome (complete (numbered name n) schema)
          (r.registered s name schema n)).1 with
      | error e =>
        rw [hrun'] at hresult
        exact Prod.ext (hrun'.trans (congrArg _ (Except.error.inj hresult))) hstate
      | ok a =>
        rw [hrun'] at hresult
        cases hresult
    exact hcomplete rfl (Registry.find_eq_none_iff.1 hfree) hdone hplaced

theorem trail_of_subject {value : RefOr Schema} {name parent : Option String} {property : Json}
    (h : r.subject value name parent property = .error f) : f.trail = [] := by
  rw [subject] at h
  split at h
  · rename_i e htarget
    obtain rfl := Except.error.inj h
    cases value with
    | inline schema => cases htarget
    | ref pointer =>
      rw [target] at htarget
      split at htarget
      · cases htarget
      all_goals
        cases htarget
        rfl
  · split at h
    · obtain rfl := Except.error.inj h
      rfl
    · cases h

theorem leftBehind_resolveKind {complete : String → Schema → Resolving Unit} {resolve : Way}
    (hcomplete : r.FulfilsOrLeaves complete) (hleaves : r.WayLeaves resolve) {schema : Schema}
    {wanted parent : Option String} {property : Json}
    (h : outcome (r.resolveKind complete resolve schema wanted parent property) s = (.error f, s'))
    (hplaced : f.IsPlaced) : r.LeftBehind s.types s' f.trail := by
  by_cases hrecord : schema.IsRecord
  · rw [resolveKind_of_isRecord hrecord] at h
    exact leftBehind_resolveNamed hcomplete h hplaced
  cases hnext : schema.next with
  | some v =>
    rw [resolveKind_of_next hnext] at h
    obtain hinner | ⟨_, _, -, hpure⟩ := error_of_outcome_bind h
    · exact hleaves hinner hplaced
    · cases hpure
  | none =>
    obtain ⟨work, hwork, hkind⟩ := exists_resolveKind_of_last hrecord hnext
    rw [hkind] at h
    obtain ⟨text, -, rfl⟩ | ⟨cause, -, rfl⟩ := hwork
    · cases h
    · obtain ⟨hf, rfl⟩ := Prod.mk.inj h
      obtain rfl := Except.error.inj hf
      exact leftBehind_nil rfl

theorem wayLeaves_resolveSteps {complete : String → Schema → Resolving Unit}
    (hcomplete : r.FulfilsOrLeaves complete) : ∀ steps, r.WayLeaves (r.resolveSteps complete steps)
  | 0, _, _, _, _, _, _, _, h, hplaced => by
    obtain ⟨hf, -⟩ := Prod.mk.inj h
    obtain rfl := Except.error.inj hf
    exact absurd rfl hplaced.2
  | steps + 1, value, name, parent, property, s, s', f, h, hplaced => by
    rw [outcome_resolveSteps] at h
    cases hsubject : r.subject value name parent property with
    | error e =>
      rw [hsubject] at h
      obtain ⟨hf, rfl⟩ := Prod.mk.inj h
      obtain rfl := Except.error.inj hf
      rw [trail_of_subject hsubject]
      exact leftBehind_nil rfl
    | ok found =>
      rw [hsubject] at h
      -- what is reported about pointers changes no type
      have hkind := leftBehind_resolveKind hcomplete (wayLeaves_resolveSteps hcomplete steps) h hplaced
      exact hkind

theorem fulfilsOrLeaves_completeType (steps : Nat) :
    ∀ types, r.FulfilsOrLeaves (r.completeType steps types)
  | 0 => fun _ _ _ _ _ _ _ _ h hplaced => by
    obtain ⟨hf, -⟩ := Prod.mk.inj h
    obtain rfl := Except.error.inj hf
    exact absurd rfl hplaced.2
  | types + 1 => fun name schema front s s' f htypes hname h hplaced => by
    have hcompletes := completes_completeType (r := r) steps types
    have hfilling : r.Filling front [] (r.unfilled name schema) s (schema.properties.getD []) :=
      ⟨htypes, hname, by simp [Registry.names], by simp, [], rfl, .nil⟩
    exact leftBehind_addFields
      (wayFills_resolveSteps hcompletes (fulfils_completeType steps types) steps)
      (grows_resolveSteps hcompletes steps)
      (wayLeaves_resolveSteps (fulfilsOrLeaves_completeType steps types) steps) hfilling h hplaced

/-- When all types are filled and a call fails, then the types that were there stand in front of the
registry as they were; the types that are not filled are those of the trail, the one that was registered
last first; and each has the fields of the properties before the one that the trail names. -/
theorem types_left_behind {value : RefOr Schema} {name parent : Option String} {property : Json}
    (hfilled : ∀ t ∈ s.types, t.IsFilled)
    (h : outcome (r.resolve value name parent property) s = (.error f, s'))
    (hplaced : f.IsPlaced) : s.types <+: s'.types ∧
    ∃ stack : List (NamedType × String),
      f.trail = stack.map (fun e => e.1.name ++ "." ++ e.2) ∧
      (s'.types.filter fun t => ¬ t.IsFilled).reverse = stack.map Prod.fst ∧
      ∀ e ∈ stack, r.StopsAt s' e.1 e.2 := by
  obtain ⟨added, stack, hadded, htrail, hunfilled, hstops⟩ :=
    wayLeaves_resolveSteps (fulfilsOrLeaves_completeType _ _) _ h hplaced
  have hbefore : (s.types.filter fun t => ¬ t.IsFilled) = [] :=
    List.filter_eq_nil_iff.2 fun t ht => by simpa using hfilled t ht
  refine ⟨⟨added, hadded.symm⟩, stack, htrail, ?_, hstops⟩
  rw [hadded, List.filter_append, hbefore, List.nil_append, hunfilled, List.reverse_reverse]

/-- Nodes and a list of rows, of which the owner is not to be found. -/
def order : Schema :=
  .record [("root", .ref "#/components/schemas/Node"),
    ("rows", .inline (.listOf (.inline (.record [("id", .inline Schema.single.text),
      ("owner", .ref "#/components/schemas/Owner"), ("size", .inline Schema.single.text)])))),
    ("note", .inline Schema.single.text)]

/-- Two types are left behind when all types of the tree are filled: one inside the other. -/
theorem types_left_behind_order :
    let s := tree.afterAll {} [.components]
    let call := outcome (tree.resolve (.inline order) (some "Order")) s
    (∀ t ∈ s.types, t.IsFilled) ∧ call.2.types.names =
        ["Node", "NodeLink2", "NodeLink", "Order", "OrderRows"] ∧
      ∃ f, call.1 = .error f ∧ f.IsPlaced ∧ f.trail = ["OrderRows.owner", "Order.rows"] ∧
        s.types <+: call.2.types ∧ ∃ stack : List (NamedType × String),
          f.trail = stack.map (fun e => e.1.name ++ "." ++ e.2) ∧
          (call.2.types.filter fun t => ¬ t.IsFilled).reverse = stack.map Prod.fst ∧
          ∀ e ∈ stack, tree.StopsAt call.2 e.1 e.2 := by
  intro s call
  have hfilled : ∀ t ∈ s.types, t.IsFilled := by decide +kernel
  have hfailure : (match call.1 with
      | .error f => f.cause.hasPlace && decide (f.trail = ["OrderRows.owner", "Order.rows"]) &&
        decide (f.cause.message ≠ Types.Error.endless.message)
      | .ok _ => false) = true := by decide +kernel
  cases hcall : call.1 with
  | ok spelling => simp [hcall] at hfailure
  | error f =>
    simp only [hcall, Bool.and_eq_true, decide_eq_true_eq] at hfailure
    obtain ⟨⟨hplace, htrail⟩, hmessage⟩ := hfailure
    have hplaced : f.IsPlaced := ⟨hplace, fun hcause => hmessage (congrArg Cause.message hcause)⟩
    exact ⟨hfilled, by decide +kernel, f, rfl, hplaced, htrail,
      types_left_behind hfilled (Prod.ext hcall rfl) hplaced⟩

end Resolver

end ApiClient
