import ApiClient.Document.Reading
import Mathlib

/-!
# Which misfits reading meets

Reading a value fails with a fault that says what is wrong with the value, or with a misfit. A reader
is judged by what it leaves unchecked (`Judged`): it fails with a misfit only if there is such a value,
and if there is one, it does not succeed. Readers that check all they use never fail with a misfit
(`Declares`), and most readers are of this kind.
-/

namespace ApiClient.Document

open Json

variable {α β : Type} {U V : Misfit → Prop} {x : Read α} {f : α → Read β}

/-- Reading that does not fail with a misfit. -/
def Declares (x : Read α) : Prop :=
  ∀ m, x ≠ .error (.misfit m)

/-- Reading that fails with a misfit only if it is one of `U`, and does not succeed if there is one. -/
structure Judged (U : Misfit → Prop) (x : Read α) : Prop where
  blames : ∀ m, x = .error (.misfit m) → U m
  accepts : ∀ a, x = .ok a → ∀ m, ¬ U m

theorem judged_false_iff : Judged (fun _ => False) x ↔ Declares x :=
  ⟨fun h => h.blames, fun h => ⟨h, fun _ _ _ => id⟩⟩

theorem Judged.of_iff (h : Judged U x) (hiff : ∀ m, U m ↔ V m) : Judged V x where
  blames m hm := (hiff m).1 (h.blames m hm)
  accepts a ha m hv := h.accepts a ha m ((hiff m).2 hv)

@[simp] theorem declares_pure (a : α) : Declares (pure a : Read α) :=
  nofun

theorem judged_pure (a : α) : Judged (fun _ => False) (pure a : Read α) :=
  judged_false_iff.2 (declares_pure a)

theorem judged_misfit (m : Misfit) : Judged (fun m' => m' = m) (.error (.misfit m) : Read α) where
  blames m' hm := by
    cases hm
    rfl
  accepts := nofun

/-- A fault is declared, whatever else there may be. -/
theorem judged_fault {e : Error} (h : ∀ m, e ≠ .misfit m) : Judged U (.error e : Read α) where
  blames m hm := absurd (Except.error.inj hm) (h m)
  accepts := nofun

/-! ## Steps -/

/-- Nothing after a step is looked at if the step fails. -/
theorem Judged.bind (hx : Judged U x) (hf : ∀ a, x = .ok a → Judged V (f a)) :
    Judged (fun m => U m ∨ V m) (x >>= f) := by
  cases x with
  | error e =>
    refine ⟨fun m hm => .inl (hx.blames m ?_), nofun⟩
    exact congrArg Except.error (Except.error.inj hm)
  | ok a =>
    refine ⟨fun m hm => .inr ((hf a rfl).blames m hm), fun b hb m => ?_⟩
    rintro (hu | hv)
    · exact hx.accepts a rfl m hu
    · exact (hf a rfl).accepts b hb m hv

theorem Judged.after (hx : Declares x) (hf : ∀ a, x = .ok a → Judged V (f a)) :
    Judged V (x >>= f) :=
  ((judged_false_iff.2 hx).bind hf).of_iff (by simp)

theorem Judged.before (hx : Judged U x) (hf : ∀ a, Declares (f a)) : Judged U (x >>= f) :=
  (hx.bind fun a _ => judged_false_iff.2 (hf a)).of_iff (by simp)

theorem Judged.map {g : α → β} (hx : Judged U x) : Judged U (x.map g) := by
  cases x with
  | error e =>
    refine ⟨fun m hm => hx.blames m ?_, nofun⟩
    exact congrArg Except.error (Except.error.inj hm)
  | ok a => exact ⟨nofun, fun b _ m => hx.accepts a rfl m⟩

/-- A list is judged by its items. -/
theorem judged_eachItem {p : α → Misfit → Prop} : ∀ {n : Nat} {items : List α}
    {reader : Nat → ∀ x, x ∈ items → Read β}, (∀ n x h, Judged (p x) (reader n x h)) →
      Judged (fun m => ∃ x ∈ items, p x m) (eachItem n items reader)
  | _, [], _, _ => (judged_pure []).of_iff (by simp)
  | n, x :: rest, reader, h => by
    rw [eachItem]
    refine ((h n x List.mem_cons_self).bind fun _ _ => (judged_eachItem fun n x hx =>
      h n x (List.mem_cons_of_mem _ hx)).before fun _ => declares_pure _).of_iff ?_
    simp

/-- A table is judged by its entries. -/
theorem judged_eachMember {p : String → α → Misfit → Prop} : ∀ {entries : List (String × α)}
    {reader : ∀ key value, (key, value) ∈ entries → Read β},
      (∀ key value h, Judged (p key value) (reader key value h)) →
        Judged (fun m => ∃ e ∈ entries, p e.1 e.2 m) (eachMember entries reader)
  | [], _, _ => (judged_pure []).of_iff (by simp)
  | (key, value) :: rest, reader, h => by
    rw [eachMember]
    refine ((h key value List.mem_cons_self).bind fun _ _ => (judged_eachMember fun k v hv =>
      h k v (List.mem_cons_of_mem _ hv)).before fun _ => declares_pure _).of_iff ?_
    simp

/-- A field that may be absent is judged by the reader, if nothing is unchecked where it is absent. -/
theorem judged_optional {value : Json} {reader : value ≠ .null → Read β}
    (habsent : value = .null → ∀ m, ¬ U m) (h : ∀ hne, Judged U (reader hne)) :
    Judged U (optional value reader) := by
  rw [optional]
  split
  · rename_i hnull
    exact ⟨nofun, fun _ _ => habsent hnull⟩
  · exact (h _).map

/-! ## Checks -/

@[simp] theorem declares_checkObject (place : String) (j : Json) : Declares (checkObject place j) := by
  cases j <;> exact nofun

@[simp] theorem declares_checkArray (place : String) (j : Json) : Declares (checkArray place j) := by
  cases j <;> exact nofun

@[simp] theorem declares_required (place : String) (j : Json) (key : String) :
    Declares (required place j key) := by
  rw [required]
  split <;> exact nofun

theorem eq_member_of_required {place : String} {j value : Json} {key : String}
    (h : required place j key = .ok value) : value = j.member key := by
  rw [required] at h
  split at h
  · cases h
  · exact (Except.ok.inj h).symm

/-- Nothing but the pointer is looked at in a pointer. -/
theorem judged_refOr {place : String} {j : Json} {reader : Read β} (h : Judged U reader) :
    Judged (fun m => j.member "$ref" = .null ∧ U m) (refOr place j reader) := by
  rw [refOr]
  refine .after (declares_checkObject place j) fun _ _ => ?_
  cases hpointer : j.member "$ref" with
  | null =>
    rw [pointer?, hpointer]
    exact (h.before fun _ => declares_pure _).of_iff (by simp)
  | str pointer =>
    rw [pointer?, hpointer]
    exact (judged_pure _).of_iff (by simp)
  | _ =>
    rw [pointer?, hpointer]
    exact judged_fault nofun

/-! ## Readers that check all they use -/

@[simp] theorem declares_bind :
    Declares (x >>= f) ↔ Declares x ∧ ∀ a, x = .ok a → Declares (f a) := by
  cases x <;> simp [Declares, bind, Except.bind]

theorem Declares.bind (hx : Declares x) (hf : ∀ a, Declares (f a)) : Declares (x >>= f) :=
  declares_bind.2 ⟨hx, fun a _ => hf a⟩

@[simp] theorem declares_map {g : α → β} : Declares (g <$> x) ↔ Declares x := by
  cases x <;> simp [Declares, Functor.map, Except.map]

@[simp] theorem declares_ite {c : Prop} [Decidable c] {y : Read α} :
    Declares (if c then x else y) ↔ (c → Declares x) ∧ (¬ c → Declares y) := by
  split <;> simp [*]

@[simp] theorem declares_eachItem {n : Nat} {items : List α} {reader : Nat → ∀ x, x ∈ items → Read β}
    (h : ∀ n x h, Declares (reader n x h)) : Declares (eachItem n items reader) :=
  judged_false_iff.1 <| (judged_eachItem fun n x hx => judged_false_iff.2 (h n x hx)).of_iff (by simp)

@[simp] theorem declares_eachMember {entries : List (String × α)}
    {reader : ∀ key value, (key, value) ∈ entries → Read β}
    (h : ∀ key value h, Declares (reader key value h)) : Declares (eachMember entries reader) :=
  judged_false_iff.1 <|
    (judged_eachMember fun k v hv => judged_false_iff.2 (h k v hv)).of_iff (by simp)

@[simp] theorem declares_optional {value : Json} {reader : value ≠ .null → Read β}
    (h : ∀ hne, Declares (reader hne)) : Declares (optional value reader) :=
  judged_false_iff.1 (judged_optional (fun _ _ => id) fun hne => judged_false_iff.2 (h hne))

@[simp] theorem declares_refOr {place : String} {j : Json} {reader : Read β} (h : Declares reader) :
    Declares (refOr place j reader) :=
  judged_false_iff.1 ((judged_refOr (judged_false_iff.2 h)).of_iff (by simp))

@[simp] theorem declares_readDiscriminator (place : String) (j : Json) :
    Declares (readDiscriminator place j) := by
  cases j with
  | obj members => simp [readDiscriminator]
  | _ => exact declares_pure none

@[simp] theorem declares_readServer (j : Json) : Declares (readServer j) := by
  simp [readServer, readServerVariable]

@[simp] theorem declares_readServers (place : String) (j : Json) : Declares (readServers place j) := by
  simp [readServers]

@[simp] theorem declares_readExternalDocs (j : Json) : Declares (readExternalDocs j) := by
  simp [readExternalDocs]

@[simp] theorem declares_readTag (j : Json) : Declares (readTag j) := by
  simp [readTag]

@[simp] theorem declares_readInfo (j : Json) : Declares (readInfo j) := by
  simp [readInfo]

@[simp] theorem declares_readExample (place : String) (j : Json) : Declares (readExample place j) := by
  simp [readExample]

@[simp] theorem declares_readLink (place : String) (j : Json) : Declares (readLink place j) := by
  simp [readLink]

@[simp] theorem declares_readOAuthFlow (place : String) (j : Json) :
    Declares (readOAuthFlow place j) := by
  simp [readOAuthFlow]

@[simp] theorem declares_readOAuthFlows (place : String) (j : Json) :
    Declares (readOAuthFlows place j) := by
  simp [readOAuthFlows]

@[simp] theorem declares_readSecurityScheme (place : String) (j : Json) :
    Declares (readSecurityScheme place j) := by
  simp [readSecurityScheme]

@[simp] theorem declares_readSchema (place : String) (j : Json) : Declares (readSchema place j) := by
  -- schemas inside are smaller than the schema
  have hmember : ∀ {key place'}, j.member key ≠ .null → Declares (readSchema place' (j.member key)) :=
    fun {key place'} hne =>
      have := sizeOf_member_lt hne
      declares_readSchema place' (j.member key)
  have hitems : ∀ {key} {place' : Nat → String},
      Declares (eachItem 0 (j.member key).items fun n value _ => readSchema (place' n) value) :=
    declares_eachItem fun n value h =>
      have := sizeOf_item_lt h
      declares_readSchema _ value
  rw [readSchema]
  refine declares_refOr ?_
  refine .bind (declares_optional fun _ => ?properties) fun _ => ?_
  case properties =>
    refine (declares_checkObject _ _).bind fun _ => declares_eachMember fun name value h => ?_
    have := sizeOf_entry_lt h
    exact declares_readSchema _ value
  refine (declares_checkArray _ _).bind fun _ => ?_
  refine .bind (declares_optional hmember) fun _ => ?_
  refine .bind (declares_optional fun hne => ?additional) fun _ => ?_
  case additional =>
    split
    · exact declares_pure _
    · exact (hmember hne).bind fun _ => declares_pure _
  refine (declares_checkArray _ _).bind fun _ => ?_
  -- the three lists of alternatives
  refine (declares_checkArray _ _).bind fun _ => hitems.bind fun _ => ?_
  refine (declares_checkArray _ _).bind fun _ => hitems.bind fun _ => ?_
  refine (declares_checkArray _ _).bind fun _ => hitems.bind fun _ => ?_
  refine .bind (declares_optional hmember) fun _ => ?_
  exact (declares_readDiscriminator _ _).bind fun _ => declares_pure _
  termination_by sizeOf j

end ApiClient.Document
