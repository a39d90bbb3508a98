import ApiClient.Proofs.Types.Head
import Mathlib

/-!
# Resolving ends

A schema may contain itself, by pointers and through lists and tables, and every object with
properties on the way gets a name that is made while it is resolved. Resolving ends all the same
(`resolve_ends`), unless a list or a table contains itself without a named type in between.

The steps from one named type to the next are bounded by the length of a way (`ends_bound`). What
bounds the number of types, one inside the other, is `openWeight`, the schemas that stand in
components whose heads are not known yet: a new type that is reached by a pointer closes the component
it is reached by, as a call for this component has its head from then on, and any other new type
stands inside the schema of the one before (`openWeight_registered`). Two runs with different limits
that both leave room for this do the same (`EndsAlike`).
-/

namespace ApiClient

open Naming Working

namespace Resolver

variable {r : Resolver} {α β : Type} {s : TypeState}

/-! ## Runs with other limits -/

/-- Two pieces of work come to the same end, and no limit has stopped them. -/
def EndsAlike (x y : Resolving α) (s : TypeState) : Prop :=
  outcome x s = outcome y s ∧ ∀ e, (outcome x s).1 = .error e → e.cause ≠ .typing .endless

theorem EndsAlike.pure (a : α) (s : TypeState) : EndsAlike (Pure.pure a) (Pure.pure a) s :=
  ⟨rfl, fun _ h => by cases h⟩

theorem EndsAlike.fail {cause : Cause} (h : cause ≠ .typing .endless) (s : TypeState) :
    EndsAlike (Resolver.fail cause : Resolving α) (Resolver.fail cause) s := by
  refine ⟨rfl, fun e he => ?_⟩
  obtain rfl := Except.error.inj he
  exact h

theorem EndsAlike.bind {x y : Resolving α} {f g : α → Resolving β} (hx : EndsAlike x y s)
    (hf : ∀ a s', outcome x s = (.ok a, s') → EndsAlike (f a) (g a) s') :
    EndsAlike (x >>= f) (y >>= g) s := by
  obtain ⟨heq, hcause⟩ := hx
  rcases hrun : outcome x s with ⟨e | a, s'⟩
  · have hrun' : outcome y s = (.error e, s') := heq ▸ hrun
    refine ⟨by rw [outcome_bind, outcome_bind, hrun, hrun'], fun e' he' => ?_⟩
    rw [outcome_bind, hrun] at he'
    obtain rfl := Except.error.inj he'
    exact hcause e (by rw [hrun])
  · have hrun' : outcome y s = (.ok a, s') := heq ▸ hrun
    have hrest := hf a s' hrun
    refine ⟨?_, ?_⟩
    · rw [outcome_bind_of_ok hrun, outcome_bind_of_ok hrun', hrest.1]
    · rw [outcome_bind_of_ok hrun]
      exact hrest.2

theorem EndsAlike.within {x y : Resolving α} (h : EndsAlike x y s) (place : String) :
    EndsAlike (tryCatch x fun f => throw (f.within place))
      (tryCatch y fun f => throw (f.within place)) s := by
  refine ⟨by rw [outcome_within, outcome_within, h.1], fun e he => ?_⟩
  rw [outcome_within] at he
  cases hrun : (outcome x s).1 with
  | ok a => simp [hrun, Except.mapError] at he
  | error e' =>
    rw [hrun] at he
    obtain rfl := Except.error.inj he
    rw [Failure.within]
    split <;> exact h.2 e' hrun

theorem Immediate.endsAlike {work : Resolving Spelling} (h : r.Immediate work) (s : TypeState) :
    EndsAlike work work s := by
  obtain ⟨text, -, rfl⟩ | ⟨cause, hcause, rfl⟩ := h
  · exact EndsAlike.pure _ s
  · exact EndsAlike.fail hcause s

theorem endsAlike_resolveNamed {complete complete' : String → Schema → Resolving Unit}
    {schema : Schema} {name : Option String}
    (hnew : ∀ wanted, name = some wanted → wanted ≠ "" → ∀ n,
      r.FirstAvailable s.types wanted schema n → s.types.find (numbered wanted n) = none →
        EndsAlike (complete (numbered wanted n) schema) (complete' (numbered wanted n) schema)
          (r.registered s wanted schema n)) :
    EndsAlike (r.resolveNamed complete schema name) (r.resolveNamed complete' schema name) s := by
  rcases name with _ | wanted
  · exact EndsAlike.fail (by simp) s
  by_cases hwanted : wanted = ""
  · subst hwanted
    exact EndsAlike.fail (by simp) s
  obtain ⟨n, hfirst, hcase⟩ := outcome_resolveNamed r complete schema hwanted s
  obtain ⟨n', hfirst', hcase'⟩ := outcome_resolveNamed r complete' schema hwanted s
  obtain rfl := hfirst.unique hfirst'
  obtain ⟨t, ht, hrun⟩ | ⟨hfree, hrun⟩ := hcase
  · obtain ⟨t', ht', hrun'⟩ | ⟨hfree', -⟩ := hcase'
    · obtain rfl := Option.some.inj (ht.symm.trans ht')
      exact ⟨hrun.trans hrun'.symm, fun e he => by simp [hrun] at he⟩
    · rw [ht] at hfree'
      cases hfree'
  · obtain ⟨t', ht', -⟩ | ⟨-, hrun'⟩ := hcase'
    · rw [hfree] at ht'
      cases ht'
    · obtain ⟨hsame, hcause⟩ := hnew wanted rfl hwanted n hfirst hfree
      refine ⟨by rw [hrun, hrun', hsame], fun e he => hcause e ?_⟩
      rw [hrun] at he
      cases hdone : (outcome (complete (numbered wanted n) schema)
          (r.registered s wanted schema n)).1 with
      | ok a => simp [hdone, Except.map] at he
      | error e' => simpa [hdone, Except.map] using he

theorem cause_of_subject {value : RefOr Schema} {name parent : Option String} {property : Json}
    {e : Failure} (h : r.subject value name parent property = .error e) :
    e.cause ≠ .typing .endless := by
  have htarget : ∀ e', r.target value = .error e' → e'.cause ≠ .typing .endless := by
    intro e' he'
    cases value with
    | inline s => cases he'
    | ref pointer =>
      rw [target] at he'
      split at he'
      · cases he'
      · cases he'
        simp
      · cases he'
        simp
  rw [subject] at h
  split at h
  · rename_i e' he'
    obtain rfl := Except.error.inj h
    exact htarget e' he'
  · split at h
    · obtain rfl := Except.error.inj h
      simp
    · cases h

/-- Calls whose ways end within the steps that both are allowed come to the same end, when the new
types of their heads are completed alike. -/
theorem endsAlike_resolveSteps {complete complete' : String → Schema → Resolving Unit} {n : Nat}
    {value : RefOr Schema} (hends : r.ends n value = true) {steps steps' : Nat} (hsteps : n ≤ steps)
    (hsteps' : n ≤ steps') {name parent : Option String} {property : Json}
    (hnew : ∀ head wanted, r.Heads head wanted value name parent property → ∀ t m,
      t.types = s.types → r.FirstAvailable t.types wanted head m →
        t.types.find (numbered wanted m) = none →
          EndsAlike (complete (numbered wanted m) head) (complete' (numbered wanted m) head)
            (r.registered t wanted head m)) :
    EndsAlike (r.resolveSteps complete steps value name parent property)
      (r.resolveSteps complete' steps' value name parent property) s := by
  induction n generalizing value steps steps' name parent property s with
  | zero => cases hends
  | succ n ih =>
    obtain ⟨steps, rfl⟩ : ∃ k, steps = k + 1 := ⟨steps - 1, by omega⟩
    obtain ⟨steps', rfl⟩ : ∃ k, steps' = k + 1 := ⟨steps' - 1, by omega⟩
    unfold EndsAlike
    rw [outcome_resolveSteps, outcome_resolveSteps]
    cases hsubject : r.subject value name parent property with
    | error e =>
      refine ⟨rfl, fun e' he' => ?_⟩
      obtain rfl := Except.error.inj he'
      exact cause_of_subject hsubject
    | ok found =>
      obtain ⟨schema, passed⟩ := found
      obtain ⟨component, htarget, -⟩ := target_of_subject hsubject
      suffices hkind : EndsAlike
          (r.resolveKind complete (r.resolveSteps complete steps) schema passed parent property)
          (r.resolveKind complete' (r.resolveSteps complete' steps') schema passed parent property)
          { s with journal := s.journal ++ r.hops value } from hkind
      by_cases hrecord : schema.IsRecord
      · rw [resolveKind_of_isRecord hrecord, resolveKind_of_isRecord hrecord]
        refine endsAlike_resolveNamed fun wanted hpassed hwanted m hfirst hfree => ?_
        subst hpassed
        exact hnew schema wanted (.here hsubject hrecord hwanted) _ m rfl hfirst hfree
      cases hnext : schema.next with
      | none =>
        obtain ⟨work, himmediate, hwork⟩ := exists_resolveKind_of_last (r := r) hrecord hnext
        rw [hwork, hwork]
        exact himmediate.endsAlike _
      | some v =>
        rw [ends_of_target htarget, ends_inline, hnext] at hends
        rw [resolveKind_of_next hnext, resolveKind_of_next hnext]
        refine EndsAlike.bind ?_ fun inner s' _ => EndsAlike.pure _ s'
        refine ih hends (by omega) (by omega) fun head wanted hheads t m ht => ?_
        exact hnew head wanted (.further hsubject hnext hheads) t m ht

/-! ## Heads of components -/

theorem exists_of_subject_name {value : RefOr Schema} {n : String} {parent : Option String}
    {property : Json} {schema : Schema} {passed : Option String}
    (h : r.subject value (some n) parent property = .ok (schema, passed)) :
    ∃ p, passed = some p ∧ ∀ parent' property',
      r.subject value (some n) parent' property' = .ok (schema, some p) := by
  cases htarget : r.target value with
  | error e => simp [subject, htarget] at h
  | ok found =>
    obtain ⟨component, s⟩ := found
    cases component <;>
    · simp only [subject, htarget, wantedName, Option.map_some, Except.ok.injEq,
        Prod.mk.injEq] at h ⊢
      obtain ⟨rfl, rfl⟩ := h
      exact ⟨_, rfl, fun _ _ => ⟨rfl, rfl⟩⟩

/-- A component that a pointer leads to is named as if it stood there under its own name. -/
theorem subject_of_target {value : RefOr Schema} {c : String} {s : Schema}
    (h : r.target value = .ok (some c, s)) (name parent : Option String) (property : Json) :
    r.subject value name parent property = r.subject (.inline s) (some c) none .null := by
  simp only [subject, h, target_inline, wantedName]

/-- A call that is given a name has the same head whatever it stands in. -/
theorem Heads.of_name {head : Schema} {wanted : String} {value : RefOr Schema} {n : String}
    {parent : Option String} {property : Json}
    (h : r.Heads head wanted value (some n) parent property) (parent' : Option String)
    (property' : Json) : r.Heads head wanted value (some n) parent' property' := by
  generalize hname : some n = name at h
  induction h generalizing n parent' property' with
  | here hsubject hrecord hwanted =>
    subst hname
    obtain ⟨p, hp, hother⟩ := exists_of_subject_name hsubject
    obtain rfl := Option.some.inj hp
    exact .here (hother parent' property') hrecord hwanted
  | @further value name parent property s passed v hsubject hnext hrest ih =>
    subst hname
    obtain ⟨p, rfl, hother⟩ := exists_of_subject_name hsubject
    refine .further (hother parent' property') hnext ?_
    rcases s.naming_cases with hnaming | hnaming
    · rw [hnaming] at ih ⊢
      exact ih parent' property' rfl
    · rw [hnaming] at hrest ⊢
      exact hrest

/-- The head of a component that is asked for by a pointer. -/
def HeadsEntry (r : Resolver) (head : Schema) (wanted : String) (e : String × RefOr Schema) :
    Prop :=
  r.Heads head wanted e.2 (some (className e.1)) none .null

/-- A head stands in the schema that the call is about, or it is that of a component and stands
there. -/
theorem Heads.origin {head : Schema} {wanted : String} {value : RefOr Schema}
    {name parent : Option String} {property : Json}
    (h : r.Heads head wanted value name parent property) :
    head ∈ Schema.refParts value ∨ ∃ key s, (key, .inline s) ∈ r.schemas ∧
      head ∈ s.parts ∧ r.HeadsEntry head wanted (key, .inline s) := by
  induction h with
  | @here value name parent property hsubject hrecord hwanted =>
    obtain ⟨component, htarget, -⟩ := target_of_subject hsubject
    cases value with
    | inline s =>
      obtain ⟨-, rfl⟩ := Prod.mk.inj (Except.ok.inj htarget)
      exact Or.inl (Schema.mem_parts_self s)
    | ref pointer =>
      obtain ⟨key, rfl, hmem⟩ := exists_mem_schemas_of_target htarget
      rw [subject_of_target htarget] at hsubject
      exact Or.inr ⟨key, head, hmem, Schema.mem_parts_self head, .here hsubject hrecord hwanted⟩
  | @further value name parent property s passed v hsubject hnext hrest ih =>
    obtain hv | hcomponent := ih
    · have hhead : head ∈ s.parts :=
        Schema.refParts_subset (Schema.mem_inner_of_next hnext) (Schema.mem_parts_self s) hv
      obtain ⟨component, htarget, -⟩ := target_of_subject hsubject
      cases value with
      | inline s' =>
        obtain ⟨-, rfl⟩ := Prod.mk.inj (Except.ok.inj htarget)
        exact Or.inl hhead
      | ref pointer =>
        obtain ⟨key, rfl, hmem⟩ := exists_mem_schemas_of_target htarget
        rw [subject_of_target htarget] at hsubject
        obtain ⟨p, rfl, -⟩ := exists_of_subject_name hsubject
        refine Or.inr ⟨key, s, hmem, hhead, .further hsubject hnext ?_⟩
        rcases s.naming_cases with hnaming | hnaming
        · rw [hnaming] at hrest ⊢
          exact hrest.of_name none .null
        · rw [hnaming] at hrest ⊢
          exact hrest
    · exact Or.inr hcomponent

/-! ## Components with new types -/

/-- The component has a head that is not known yet. -/
def IsOpen (r : Resolver) (types : Registry) (e : String × RefOr Schema) : Prop :=
  ∃ head wanted, r.HeadsEntry head wanted e ∧ ¬r.Known types head wanted

open Classical in
/-- The number of schemas in the components whose heads are not known yet. -/
noncomputable def openWeight (r : Resolver) (types : Registry) : Nat :=
  Schema.tableWeight (r.schemas.filter fun e => r.IsOpen types e)

theorem openWeight_le (r : Resolver) (types : Registry) :
    r.openWeight types ≤ Schema.tableWeight r.schemas := by
  have h := Schema.tableWeight_filter_le (p := fun e => @decide (r.IsOpen types e) (Classical.dec _))
    (q := fun _ => true) (fun _ _ => rfl) r.schemas
  rwa [List.filter_true] at h

theorem IsOpen.earlier {frozen : List String} {s s' : TypeState} (hpath : r.Path frozen s s')
    {e : String × RefOr Schema} (h : r.IsOpen s'.types e) : r.IsOpen s.types e := by
  obtain ⟨head, wanted, hheads, hnew⟩ := h
  exact ⟨head, wanted, hheads, fun hknown => hnew (hknown.later hpath)⟩

theorem openWeight_anti {frozen : List String} {s s' : TypeState} (hpath : r.Path frozen s s') :
    r.openWeight s'.types ≤ r.openWeight s.types := by
  refine Schema.tableWeight_filter_le (fun e he => ?_) r.schemas
  simp only [decide_eq_true_eq] at he ⊢
  exact he.earlier hpath

/-- A new type takes at least as much from the components with new types as its schema adds to what
has to be looked into, unless the schema stands in the one that the call is about. -/
theorem openWeight_registered {head : Schema} {wanted : String} {value : RefOr Schema}
    {name parent : Option String} {property : Json}
    (h : r.Heads head wanted value name parent property) {n : Nat}
    (hfirst : r.FirstAvailable s.types wanted head n)
    (hfree : s.types.find (numbered wanted n) = none) :
    r.openWeight (r.registered s wanted head n).types + Schema.weight head ≤
      r.openWeight s.types + Schema.refWeight value := by
  have hpath : r.Path [] s (r.registered s wanted head n) :=
    path_registered hfirst (h.isCandidate n) hfree
  have hknown : r.Known (r.registered s wanted head n).types head wanted :=
    known_registered hfirst (h.isCandidate n) hfree
  have hnew : ¬r.Known s.types head wanted := by
    rintro ⟨m, t, hfirst', hfind⟩
    obtain rfl := hfirst.unique hfirst'
    rw [hfree] at hfind
    cases hfind
  obtain hvalue | ⟨key, c, hmem, hhead, hentry⟩ := h.origin
  · exact Nat.add_le_add (openWeight_anti hpath) (Schema.weight_le_of_mem_refParts hvalue)
  · have hclosed : ¬r.IsOpen (r.registered s wanted head n).types (key, .inline c) := by
      rintro ⟨head', wanted', hentry', hnew'⟩
      obtain ⟨rfl, rfl⟩ := Heads.unique hentry hentry'
      exact hnew' hknown
    have hless : r.openWeight (r.registered s wanted head n).types + Schema.weight c ≤
        r.openWeight s.types := by
      refine Schema.tableWeight_filter_add_le (fun e he => ?_) hmem ?_ ?_
      · simp only [decide_eq_true_eq] at he ⊢
        exact he.earlier hpath
      · simp only [decide_eq_true_eq]
        exact ⟨head, wanted, hentry, hnew⟩
      · simpa only [decide_eq_false_iff_not] using hclosed
    have hle : Schema.weight head ≤ Schema.refWeight (.inline c) :=
      Schema.weight_le_of_mem_refParts hhead
    have hc : Schema.refWeight (.inline c) = Schema.weight c := rfl
    omega

/-! ## Limits on a run -/

/-- The ways from all that stands in these schemas end within `steps` steps. -/
def ShortWays (r : Resolver) (steps : Nat) (schemas : List Schema) : Prop :=
  ∀ s ∈ schemas, ∀ v ∈ s.inner, r.ends steps v = true

theorem Heads.mem_partsWith {head : Schema} {wanted : String} {value : RefOr Schema}
    {name parent : Option String} {property : Json}
    (h : r.Heads head wanted value name parent property) : head ∈ r.partsWith value := by
  obtain hvalue | ⟨key, c, hmem, hhead, -⟩ := h.origin
  · exact List.mem_append_right _ hvalue
  · exact List.mem_append_left _ (List.mem_flatMap.2 ⟨_, hmem, hhead⟩)

theorem endsAlike_addFields {resolve resolve' : Way} (hgrows : r.WayGrows resolve) {name : String}
    {schema : Schema} : ∀ {properties : List (String × RefOr Schema)} {s : TypeState},
      (∀ property v, (property, v) ∈ properties → ∀ s', r.Path [] s s' →
        EndsAlike (resolve v none (some name) (.str property))
          (resolve' v none (some name) (.str property)) s') →
      EndsAlike (r.addFields resolve name schema properties)
        (r.addFields resolve' name schema properties) s
  | [], s, _ => EndsAlike.pure () s
  | (property, v) :: rest, s, h => by
    refine ((h property v List.mem_cons_self s (Path.refl s)).within _).bind fun type s₁ h₁ => ?_
    have hpath : r.Path [] s s₁ :=
      ((hgrows v none (some name) (.str property)).leads (outcome_of_within h₁)).weaken
        (List.nil_subset _)
    refine EndsAlike.bind ⟨rfl, fun _ h => by cases h⟩ fun _ s₂ h₂ => ?_
    obtain ⟨-, rfl⟩ := Prod.mk.inj h₂
    refine endsAlike_addFields hgrows fun property' v' hmem s' hpath' => ?_
    refine h property' v' (List.mem_cons_of_mem _ hmem) s' (hpath.trans (Path.trans ?_ hpath'))
    exact (Edit.field s₁ _ (by simp)).path

/-- Completing a new type comes to the same end under all limits that leave room for as many types
as there are schemas left to look into. -/
theorem endsAlike_completeType {value : RefOr Schema} {k : Nat}
    (hshort : r.ShortWays k (r.partsWith value)) {room : Nat} {steps steps' types types' : Nat}
    (hsteps : k ≤ steps) (hsteps' : k ≤ steps') (htypes : room ≤ types) (htypes' : room ≤ types')
    {schema : Schema} (hmem : schema ∈ r.partsWith value) (name : String) {s : TypeState}
    (hroom : r.openWeight s.types + Schema.weight schema ≤ room) :
    EndsAlike (r.completeType steps types name schema) (r.completeType steps' types' name schema)
      s := by
  induction room generalizing types types' schema name s with
  | zero =>
    have := Schema.weight_pos schema
    omega
  | succ room ih =>
    obtain ⟨types, rfl⟩ : ∃ k, types = k + 1 := ⟨types - 1, by omega⟩
    obtain ⟨types', rfl⟩ : ∃ k, types' = k + 1 := ⟨types' - 1, by omega⟩
    refine endsAlike_addFields (grows_resolveSteps (completes_completeType steps types) steps) ?_
    intro property v hv s' hpath
    have hinner : v ∈ schema.inner := Schema.mem_inner_of_mem_properties hv
    have hless : Schema.refWeight v < Schema.weight schema := Schema.refWeight_lt_of_mem_inner hinner
    refine endsAlike_resolveSteps (hshort schema hmem v hinner) hsteps hsteps' ?_
    intro head wanted hheads t m ht hfirst hfree
    have hweight := openWeight_registered hheads hfirst hfree
    have hanti := openWeight_anti hpath
    rw [ht] at hweight
    exact ih (by omega) (by omega) (partsWith_subset hinner hmem hheads.mem_partsWith) _ (by omega)

/-! ## All calls -/

/-- No way between the schemas in the components and in `value` leads back to a schema that it has
passed. -/
def NoWayBack (r : Resolver) (value : RefOr Schema) : Prop :=
  ∀ s ∈ r.partsWith value, ¬Relation.TransGen r.Passes s s

theorem NoWayBack.grounded {value : RefOr Schema} (h : r.NoWayBack value) {s : Schema}
    (hs : s ∈ r.partsWith value) : r.Grounded s := by
  intro t ht
  refine h t ?_
  induction ht with
  | refl => exact hs
  | tail _ hpass ih =>
    obtain ⟨v, component, hnext, htarget⟩ := hpass
    exact partsWith_subset (Schema.mem_inner_of_next hnext) ih (mem_of_target htarget)

theorem NoWayBack.shortWays {value : RefOr Schema} (h : r.NoWayBack value) :
    r.ShortWays (r.bound value) (r.partsWith value) := by
  intro s hs v hv
  have hgrounded : ∀ {t}, t ∈ r.partsWith v → r.Grounded t := fun ht =>
    h.grounded (partsWith_subset hv hs ht)
  have hbound := r.bound_eq value
  have hends : r.ends (r.bound v) v = true :=
    ends_of_grounded fun _ _ htarget => hgrounded (mem_of_target htarget)
  rw [bound_eq] at hends
  rcases List.mem_append.1 hs with hs | hs
  · cases v with
    | ref pointer => exact ends_mono (by simp only [Schema.refWeight]; omega) hends
    | inline t =>
      have ht : t ∈ r.parts := refParts_subset_parts hv hs (Schema.mem_parts_self t)
      have hparts := ends_of_mem_parts (hgrounded (List.mem_append_left _ ht)) ht
      rw [length_parts] at hparts
      exact ends_mono (by omega) hparts
  · have hle := Schema.weight_le_of_mem_refParts hs
    have hlt := Schema.refWeight_lt_of_mem_inner hv
    exact ends_mono (by omega) hends

/-- A call whose way ends, and whose inner ways do, comes to the same end under all limits from its
own bound on. -/
theorem NoWayBack.endsAlike {value : RefOr Schema} (h : r.NoWayBack value) {bound bound' types types'
    steps steps' : Nat} (hbound : r.bound value ≤ bound) (hbound' : r.bound value ≤ bound')
    (htypes : r.bound value ≤ types) (htypes' : r.bound value ≤ types')
    (hsteps : r.bound value ≤ steps) (hsteps' : r.bound value ≤ steps')
    (name parent : Option String) (property : Json) (s : TypeState) :
    EndsAlike (r.resolveSteps (r.completeType bound types) steps value name parent property)
      (r.resolveSteps (r.completeType bound' types') steps' value name parent property) s := by
  have hends : r.ends (r.bound value) value = true :=
    ends_of_grounded fun _ _ htarget => h.grounded (mem_of_target htarget)
  refine endsAlike_resolveSteps hends hsteps hsteps' fun head wanted hheads t n ht hfirst hfree => ?_
  refine endsAlike_completeType h.shortWays hbound hbound' htypes htypes' hheads.mem_partsWith _ ?_
  have hweight := openWeight_registered hheads hfirst hfree
  have hle := r.openWeight_le t.types
  rw [bound_eq]
  omega

theorem NoWayBack.endsAlike_resolve {value : RefOr Schema} (h : r.NoWayBack value)
    (name parent : Option String) (property : Json) (s : TypeState) :
    EndsAlike (r.resolve value name parent property) (r.resolve value name parent property) s :=
  h.endsAlike le_rfl le_rfl le_rfl le_rfl le_rfl le_rfl name parent property s

theorem noWayBack_of_mem_schemas (h : ∀ s ∈ r.parts, ¬Relation.TransGen r.Passes s s)
    {e : String × RefOr Schema} (he : e ∈ r.schemas) : r.NoWayBack e.2 := by
  intro s hs
  rcases List.mem_append.1 hs with hs | hs
  · exact h s hs
  · exact h s (List.mem_flatMap.2 ⟨e, he, hs⟩)

theorem endsAlike_resolveEach : ∀ {entries : List (String × RefOr Schema)},
    (∀ e ∈ entries, r.NoWayBack e.2) → ∀ s : TypeState,
      EndsAlike (r.resolveEach entries) (r.resolveEach entries) s
  | [], _, s => EndsAlike.pure () s
  | (key, value) :: rest, h, s => by
    have hvalue : r.NoWayBack value := h (key, value) List.mem_cons_self
    refine ((hvalue.endsAlike_resolve _ _ _ s).within _).bind fun _ s' _ => ?_
    exact endsAlike_resolveEach (fun e he => h e (List.mem_cons_of_mem _ he)) s'

/-- Resolving ends. When no way between the schemas leads back to a schema that it has passed without
a named type in between, no limit stops a call, whatever is registered when it starts: it comes to
its spelling or its failure, the same under all limits from its bound on. So do the calls for all
components. -/
theorem resolve_ends (r : Resolver) :
    (∀ value, r.NoWayBack value → ∀ name parent property s,
      (∀ e, (outcome (r.resolve value name parent property) s).1 = .error e →
        e.cause ≠ .typing .endless) ∧
      ∀ bound types steps, r.bound value ≤ bound → r.bound value ≤ types → r.bound value ≤ steps →
        outcome (r.resolveSteps (r.completeType bound types) steps value name parent property) s =
          outcome (r.resolve value name parent property) s) ∧
    ((∀ s ∈ r.parts, ¬Relation.TransGen r.Passes s s) → ∀ s e,
      (outcome r.resolveComponents s).1 = .error e → e.cause ≠ .typing .endless) := by
  refine ⟨fun value h name parent property s => ⟨?_, ?_⟩, fun h s => ?_⟩
  · exact (h.endsAlike_resolve name parent property s).2
  · intro bound types steps hbound htypes hsteps
    exact (h.endsAlike hbound le_rfl htypes le_rfl hsteps le_rfl name parent property s).1
  · exact (endsAlike_resolveEach (fun _ he => noWayBack_of_mem_schemas h he) s).2

end Resolver

/-! ## A tree -/

namespace Schema

/-- An object with properties. -/
def record (properties : List (String × RefOr Schema)) : Schema :=
  ⟨.str "object", .null, .null, .null, some properties, [], none, none, none, .null, .null, false,
    false, false, false, [], [], [], none, none⟩

/-- A list of items. -/
def listOf (items : RefOr Schema) : Schema :=
  ⟨.str "array", .null, .null, .null, none, [], some items, none, none, .null, .null, false, false,
    false, false, [], [], [], none, none⟩

/-- A table of values. -/
def tableOf (values : RefOr Schema) : Schema :=
  ⟨.str "object", .null, .null, .null, none, [], none, some (.schema values), none, .null, .null,
    false, false, false, false, [], [], [], none, none⟩

end Schema

namespace Resolver

/-- Nodes that contain themselves, in lists, in tables and by another name, and in an object that
has to give way to a component. -/
def tree : Resolver where
  components := some { schemas := [
    ("Nodes", .inline (.listOf (.ref "#/components/schemas/Node"))),
    ("Node", .inline (.record [
      ("next", .ref "#/components/schemas/Node"),
      ("children", .inline (.listOf (.ref "#/components/schemas/Nodes"))),
      ("index", .inline (.tableOf (.ref "#/components/schemas/Alias"))),
      ("link", .inline (.record [("target", .ref "#/components/schemas/Alias")]))])),
    ("Alias", .ref "#/components/schemas/Node"),
    ("NodeLink", .inline (.single "id"))] }
  dialect := .python
  namespaceName := "acme"

theorem noWayBack_of_all {r : Resolver} {value : RefOr Schema} (steps : Nat)
    (h : (r.partsWith value).all (fun s => r.ends steps (.inline s)) = true) :
    r.NoWayBack value :=
  fun s hs => not_transGen_of_ends (List.all_eq_true.1 h s hs)

/-- A list of the nodes of the tree has its type, and the tree two types. -/
theorem resolve_ends_tree :
    let value : RefOr Schema := .ref "#/components/schemas/Nodes"
    let call := outcome (tree.resolve value) {}
    tree.NoWayBack value ∧
      call.1.toOption = some ⟨"list[Node]", "list[acme.schemas.Node]", ["Node"]⟩ ∧
      call.2.types.names = ["Node", "NodeLink2"] ∧
      (∀ e, call.1 = .error e → e.cause ≠ .typing .endless) ∧
      ∀ bound types steps, tree.bound value ≤ bound → tree.bound value ≤ types →
        tree.bound value ≤ steps →
        outcome (tree.resolveSteps (tree.completeType bound types) steps value none none .null) {} =
          call := by
  intro value call
  have hends : tree.NoWayBack value := noWayBack_of_all 4 (by decide +kernel)
  exact ⟨hends, by decide +kernel, by decide +kernel,
    (resolve_ends tree).1 value hends none none .null {}⟩

end Resolver

end ApiClient
