import ApiClient.Proofs.Types.Stability
import ApiClient.Proofs.Types.Way
import Mathlib

/-!
# Where a way ends

A call follows the way from its schema to the end. If this is an object with properties, then it is
the head of the call, and the names on the way say what name is wanted for it (`Heads`). All that a
call does to the registry it does for its head: once there is a type for the head under the name that
is found for it (`Known`), it stays known, and calls with this head register nothing.
-/

namespace ApiClient

open Naming Working

/-! ## The three kinds of schemas -/

/-- The spelling of a type without named types: a scalar, or an object that is not looked into. -/
def Dialect.IsPlain (d : Dialect) (text : String) : Prop :=
  text = d.unitType ∨ ∃ type format, d.scalarType type format = some text

namespace Schema

/-- The spelling of a list or a table, from that of its items or values. -/
def wrap (d : Dialect) (s : Schema) : String → String :=
  match s.kind with
  | .str "array" => d.sequenceType
  | _ => d.mapType

theorem IsRecord.next_eq_none {s : Schema} (h : s.IsRecord) : s.next = none := by
  obtain ⟨hkind, p, ps, hproperties⟩ := h
  simp [next, hkind, hproperties]

/-- The name, and the type and the property, that a list or a table passes on with the schema of its
items or values. -/
def naming (s : Schema) (wanted parent : Option String) (property : Json) :
    Option String × Option String × Json :=
  match s.kind with
  | .str "array" => (wanted, parent, property)
  | _ => (none, wanted, if Resolver.isNamed wanted then .str "Value" else .null)

theorem naming_cases (s : Schema) :
    (∀ wanted parent property, s.naming wanted parent property = (wanted, parent, property)) ∨
      ∀ wanted parent property, s.naming wanted parent property =
        (none, wanted, if Resolver.isNamed wanted then .str "Value" else .null) := by
  unfold naming
  split
  · exact Or.inl fun _ _ _ => rfl
  · exact Or.inr fun _ _ _ => rfl

end Schema

namespace Resolver

variable {r : Resolver}

/-- A list or a table is resolved by what it passes on to. -/
theorem resolveKind_of_next {s : Schema} {v : RefOr Schema} (h : s.next = some v)
    (complete : String → Schema → Resolving Unit) (resolve : Way) (wanted parent : Option String)
    (property : Json) :
    r.resolveKind complete resolve s wanted parent property = (do
      let inner ← resolve v (s.naming wanted parent property).1 (s.naming wanted parent property).2.1
        (s.naming wanted parent property).2.2
      return inner.map (s.wrap r.dialect)) := by
  unfold Schema.next at h
  split at h
  · rename_i hkind
    simp [resolveKind, hkind, resolveArray, h, Schema.naming, Schema.wrap]
  · rename_i hkind
    split at h
    · rename_i values hproperties hadditional
      obtain rfl := Option.some.inj h
      simp [resolveKind, hkind, resolveObject, hproperties, hadditional, Schema.naming, Schema.wrap]
    · cases h
  · cases h

/-- Work that ends at once, with a spelling without named types or with a failure. -/
def Immediate (r : Resolver) (work : Resolving Spelling) : Prop :=
  (∃ text, r.dialect.IsPlain text ∧ work = pure (.plain text)) ∨
    ∃ cause, cause ≠ .typing .endless ∧ work = fail cause

theorem immediate_resolveScalar (kind format : Json) :
    r.Immediate (r.resolveScalar kind format) := by
  unfold resolveScalar
  split
  · split
    · rename_i type spelling hscalar
      exact Or.inl ⟨spelling, Or.inr ⟨_, _, hscalar⟩, rfl⟩
    · exact Or.inr ⟨_, by simp, rfl⟩
  all_goals exact Or.inr ⟨_, by simp, rfl⟩

/-- What does not pass on and is no object with properties has its type, or none, at once. -/
theorem exists_resolveKind_of_last {s : Schema} (hrecord : ¬s.IsRecord) (hnext : s.next = none) :
    ∃ work, r.Immediate work ∧ ∀ complete resolve wanted parent property,
      r.resolveKind complete resolve s wanted parent property = work := by
  have hunit : r.Immediate (pure (.plain r.dialect.unitType)) := Or.inl ⟨_, Or.inl rfl, rfl⟩
  have hfail : ∀ {cause : Cause}, cause ≠ .typing .endless → r.Immediate (fail cause) :=
    fun h => Or.inr ⟨_, h, rfl⟩
  unfold Schema.next at hnext
  split at hnext
  · rename_i hkind
    refine ⟨fail (.typing .shapelessArray), hfail (by simp), fun _ _ _ _ _ => ?_⟩
    simp [resolveKind, hkind, resolveArray, hnext]
  · rename_i hkind
    split at hnext
    · cases hnext
    · rename_i hother
      simp only [resolveKind, hkind, resolveObject]
      rcases hproperties : s.properties with _ | _ | ⟨p, ps⟩
      · rcases hadditional : s.additional with _ | allowed | values
        · dsimp only
          split
          · exact ⟨_, hfail (by simp), fun _ _ _ _ _ => rfl⟩
          · exact ⟨_, hunit, fun _ _ _ _ _ => rfl⟩
        · exact ⟨_, hfail (by simp), fun _ _ _ _ _ => rfl⟩
        · exact absurd hadditional (hother values hproperties)
      · exact ⟨_, hunit, fun _ _ _ _ _ => rfl⟩
      · exact absurd ⟨hkind, p, ps, hproperties⟩ hrecord
  · rename_i harray hobject
    refine ⟨_, immediate_resolveScalar s.kind s.format, fun _ _ _ _ _ => ?_⟩
    unfold resolveKind
    split
    · rename_i hkind
      exact absurd hkind hobject
    · rename_i hkind
      exact absurd hkind harray
    · rfl

/-! ## Heads -/

/-- The way of a call ends in `head`, an object with properties, and `wanted` is the name for it. -/
inductive Heads (r : Resolver) (head : Schema) (wanted : String) :
    RefOr Schema → Option String → Option String → Json → Prop
  | here {value : RefOr Schema} {name parent : Option String} {property : Json}
      (hsubject : r.subject value name parent property = .ok (head, some wanted))
      (hrecord : head.IsRecord) (hwanted : wanted ≠ "") : Heads r head wanted value name parent property
  | further {value : RefOr Schema} {name parent : Option String} {property : Json} {s : Schema}
      {passed : Option String} {v : RefOr Schema}
      (hsubject : r.subject value name parent property = .ok (s, passed)) (hnext : s.next = some v)
      (hrest : Heads r head wanted v (s.naming passed parent property).1
        (s.naming passed parent property).2.1 (s.naming passed parent property).2.2) :
      Heads r head wanted value name parent property

variable {head : Schema} {wanted : String} {value : RefOr Schema} {name parent : Option String}
  {property : Json}

theorem Heads.unique {head' : Schema} {wanted' : String}
    (h : r.Heads head wanted value name parent property)
    (h' : r.Heads head' wanted' value name parent property) : head' = head ∧ wanted' = wanted := by
  induction h with
  | here hsubject hrecord _ =>
    cases h' with
    | here hsubject' _ _ =>
      rw [hsubject] at hsubject'
      obtain ⟨rfl, hw⟩ := Prod.mk.inj (Except.ok.inj hsubject')
      exact ⟨rfl, (Option.some.inj hw).symm⟩
    | further hsubject' hnext' _ =>
      rw [hsubject] at hsubject'
      obtain ⟨rfl, -⟩ := Prod.mk.inj (Except.ok.inj hsubject')
      rw [hrecord.next_eq_none] at hnext'
      cases hnext'
  | further hsubject hnext _ ih =>
    cases h' with
    | here hsubject' hrecord' _ =>
      rw [hsubject] at hsubject'
      obtain ⟨rfl, -⟩ := Prod.mk.inj (Except.ok.inj hsubject')
      rw [hrecord'.next_eq_none] at hnext
      cases hnext
    | further hsubject' hnext' hrest' =>
      rw [hsubject] at hsubject'
      obtain ⟨rfl, rfl⟩ := Prod.mk.inj (Except.ok.inj hsubject')
      obtain rfl := Option.some.inj (hnext.symm.trans hnext')
      exact ih hrest'

theorem target_of_subject {s : Schema} {passed : Option String}
    (h : r.subject value name parent property = .ok (s, passed)) :
    ∃ component, r.target value = .ok (component, s) ∧
      ∀ n ∈ passed, ∃ base, n = r.dialect.typeName base := by
  rw [subject] at h
  split at h
  · cases h
  · rename_i component found htarget
    split at h
    · cases h
    · rename_i base _
      obtain ⟨rfl, rfl⟩ := Prod.mk.inj (Except.ok.inj h)
      refine ⟨component, htarget, fun n hn => ?_⟩
      obtain ⟨base, -, rfl⟩ := Option.map_eq_some_iff.1 hn
      exact ⟨base, rfl⟩

theorem Heads.isCandidate (h : r.Heads head wanted value name parent property) (n : Nat) :
    r.IsCandidate (numbered wanted n) := by
  induction h with
  | here hsubject _ hwanted =>
    obtain ⟨-, -, hnames⟩ := target_of_subject hsubject
    obtain ⟨base, rfl⟩ := hnames _ rfl
    exact ⟨base, n, hwanted, rfl⟩
  | further _ _ _ ih => exact ih

/-- There is a type for the schema under the name that is found for it. -/
def Known (r : Resolver) (types : Registry) (schema : Schema) (wanted : String) : Prop :=
  ∃ n t, r.FirstAvailable types wanted schema n ∧ types.find (numbered wanted n) = some t

theorem Known.later {frozen : List String} {s s' : TypeState}
    (h : r.Known s.types head wanted) (hpath : r.Path frozen s s') :
    r.Known s'.types head wanted := by
  obtain ⟨n, t, hfirst, ht⟩ := h
  obtain ⟨t', ht', hhead⟩ := hpath.find ht
  refine ⟨n, t', hfirst.persists (hpath.weaken (List.nil_subset _)) ht' ?_, ht'⟩
  rw [NamedType.schema_of_head hhead, ← available_of_find ht]
  exact hfirst.1

/-- A type is registered under the first name that is available, so it is found there. -/
theorem known_registered {s : TypeState} {n : Nat}
    (hfirst : r.FirstAvailable s.types wanted head n)
    (hname : r.IsCandidate (numbered wanted n)) (hfree : s.types.find (numbered wanted n) = none) :
    r.Known (r.registered s wanted head n).types head wanted := by
  have hpath : r.Path [] s (r.registered s wanted head n) := path_registered hfirst hname hfree
  have hfind : (r.registered s wanted head n).types.find (numbered wanted n) =
      some (r.unfilled (numbered wanted n) head) := Registry.find_add_self hfree
  exact ⟨n, _, hfirst.persists hpath hfind (Schema.same_refl head), hfind⟩

/-- A call that has given a spelling knows its head. -/
theorem Heads.known (h : r.Heads head wanted value name parent property)
    {complete : String → Schema → Resolving Unit} (hcomplete : r.Completes complete) {steps : Nat}
    {s s' : TypeState} {spelling : Spelling}
    (hcall : outcome (r.resolveSteps complete steps value name parent property) s =
      (.ok spelling, s')) : r.Known s'.types head wanted := by
  induction h generalizing steps s spelling with
  | here hsubject hrecord hwanted =>
    cases steps with
    | zero => cases hcall
    | succ steps =>
      obtain ⟨n, t, hfirst, hfind, hsame, -⟩ :=
        registered_of_resolveSteps hcomplete steps hsubject hrecord hwanted s
      rw [hcall] at hfind
      have hgrows : r.Grows s s' := (grows_resolveSteps hcomplete _ _ _ _ _).leads hcall
      exact ⟨n, t, hfirst.persists (hgrows.weaken (List.nil_subset _)) hfind hsame, hfind⟩
  | further hsubject hnext hrest ih =>
    cases steps with
    | zero => cases hcall
    | succ steps =>
      rw [outcome_resolveSteps, hsubject] at hcall
      dsimp only at hcall
      rw [resolveKind_of_next hnext] at hcall
      obtain ⟨inner, s₁, hinner, hpure⟩ := exists_of_outcome_bind hcall
      obtain ⟨-, rfl⟩ := of_outcome_pure hpure
      exact ih hinner

end Resolver

end ApiClient
