import ApiClient.Proofs.Document.Hop
import Mathlib

/-!
# Chains of pointers

A pointer may lead to a pointer, which is followed in its turn. `Pointer.Leads` says where a value leads
by which pointers. Since each step depends on the pointer alone, two ways from one value run along
each other (`Pointer.Leads.connected`): one that cannot go on is the only one of its kind, and one that
comes back to a pointer never ends (`Pointer.Leads.endless`). A chain is therefore followed to its
object, to its fault, or to the first pointer that it meets again, and this is when it is endless
(`Pointer.chain_followed`).
-/

namespace ApiClient.Pointer

variable {components : Option Components} {c : Components} {expected : Option (List Section)}
  {pointer : String} {pointers pointers' : List String} {value last last' : RefOr Component}

/-! ## Ways -/

/-- A value leads to the last one by following the pointers one after another. -/
inductive Leads (components : Option Components) (expected : Option (List Section)) :
    RefOr Component → List String → RefOr Component → Prop where
  | here (value : RefOr Component) : Leads components expected value [] value
  | hop {pointer name : String} {next last : RefOr Component} {pointers : List String}
      (step : resolve components expected pointer = .ok (name, next))
      (rest : Leads components expected next pointers last) :
      Leads components expected (.ref pointer) (pointer :: pointers) last

/-- There is a step from a value: it is a pointer that leads somewhere. -/
def GoesOn (components : Option Components) (expected : Option (List Section))
    (value : RefOr Component) : Prop :=
  ∃ pointer name next, value = .ref pointer ∧
    resolve components expected pointer = .ok (name, next)

/-- No step from a value fails, and none comes to an object. -/
def Endless (components : Option Components) (expected : Option (List Section))
    (value : RefOr Component) : Prop :=
  ∀ pointers last, Leads components expected value pointers last → GoesOn components expected last

theorem not_goesOn_inline (found : Component) : ¬ GoesOn components expected (.inline found) := by
  rintro ⟨pointer, name, next, hvalue, -⟩
  cases hvalue

theorem not_goesOn_of_error {e : Error} (h : resolve components expected pointer = .error e) :
    ¬ GoesOn components expected (.ref pointer) := by
  rintro ⟨pointer', name, next, hvalue, hstep⟩
  obtain rfl := RefOr.ref.inj hvalue
  rw [h] at hstep
  cases hstep

namespace Leads

theorem concat {name : String} {next : RefOr Component}
    (h : Leads components expected value pointers (.ref pointer))
    (step : resolve components expected pointer = .ok (name, next)) :
    Leads components expected value (pointers ++ [pointer]) next := by
  generalize hlast : RefOr.ref pointer = last at h
  induction h with
  | here value =>
    subst hlast
    exact hop step (here next)
  | hop first _ ih => exact hop first (ih hlast)

/-- Of two ways from one value one is the beginning of the other. -/
theorem connected (h : Leads components expected value pointers last)
    (h' : Leads components expected value pointers' last') :
    (∃ more, pointers' = pointers ++ more ∧ Leads components expected last more last') ∨
      ∃ more, pointers = pointers' ++ more ∧ Leads components expected last' more last := by
  induction h generalizing pointers' with
  | here value => exact Or.inl ⟨pointers', rfl, h'⟩
  | hop step rest ih =>
    cases h' with
    | here => exact Or.inr ⟨_, rfl, hop step rest⟩
    | hop step' rest' =>
      -- Both ways take the step of this pointer, so they are at the same value after it.
      obtain ⟨-, rfl⟩ := Prod.mk.inj (Except.ok.inj (step.symm.trans step'))
      rcases ih rest' with ⟨more, rfl, hmore⟩ | ⟨more, rfl, hmore⟩
      · exact Or.inl ⟨more, rfl, hmore⟩
      · exact Or.inr ⟨more, rfl, hmore⟩

/-- A way passes the values between its pointers. -/
theorem exists_of_append {more : List String}
    (h : Leads components expected value (pointers ++ more) last) :
    ∃ between, Leads components expected value pointers between ∧
      Leads components expected between more last := by
  induction pointers generalizing value with
  | nil => exact ⟨value, here value, h⟩
  | cons pointer rest ih =>
    cases h with
    | hop step hrest =>
      obtain ⟨between, hfirst, hsecond⟩ := ih hrest
      exact ⟨between, hop step hfirst, hsecond⟩

theorem eq_of_not_goesOn (h : Leads components expected value pointers last)
    (hend : ¬ GoesOn components expected value) : pointers = [] ∧ last = value := by
  cases h with
  | here => exact ⟨rfl, rfl⟩
  | hop step _ => exact absurd ⟨_, _, _, rfl, step⟩ hend

/-- A value leads to at most one place where it does not go on. -/
theorem unique (h : Leads components expected value pointers last)
    (hend : ¬ GoesOn components expected last)
    (h' : Leads components expected value pointers' last')
    (hend' : ¬ GoesOn components expected last') : pointers' = pointers ∧ last' = last := by
  rcases h.connected h' with ⟨more, rfl, hmore⟩ | ⟨more, rfl, hmore⟩
  · obtain ⟨rfl, rfl⟩ := hmore.eq_of_not_goesOn hend
    exact ⟨List.append_nil _, rfl⟩
  · obtain ⟨rfl, rfl⟩ := hmore.eq_of_not_goesOn hend'
    exact ⟨(List.append_nil _).symm, rfl⟩

/-! ## Circles -/

/-- A pointer that leads back to itself goes on wherever it leads: what is left of a way shrinks by
one round as long as it is longer than that. -/
theorem goesOn_of_circle (hcircle : Leads components expected (.ref pointer) (pointer :: pointers)
      (.ref pointer)) (h : Leads components expected (.ref pointer) pointers' last) :
    GoesOn components expected last := by
  have hpointer : GoesOn components expected (.ref pointer) := by
    cases hcircle with
    | hop step _ => exact ⟨_, _, _, rfl, step⟩
  induction hlength : pointers'.length using Nat.strong_induction_on generalizing pointers' with
  | _ n ih =>
    subst hlength
    by_contra hend
    rcases hcircle.connected h with ⟨more, rfl, hmore⟩ | ⟨more, -, hmore⟩
    -- The way runs past the circle: it ends where its rest from the same pointer ends.
    · exact hend (ih more.length (by simp only [List.length_append, List.length_cons]; omega)
        hmore rfl)
    · obtain ⟨-, heq⟩ := hmore.eq_of_not_goesOn hend
      exact hend (heq ▸ hpointer)

/-- A way that meets a pointer again never ends. -/
theorem endless (h : Leads components expected value pointers (.ref pointer))
    (hmem : pointer ∈ pointers) : Endless components expected value := by
  obtain ⟨before, between, rfl⟩ := List.append_of_mem hmem
  obtain ⟨middle, hbefore, hcircle⟩ := h.exists_of_append
  have hmiddle : middle = .ref pointer := by
    cases hcircle
    rfl
  subst hmiddle
  intro pointers' last' h'
  rcases hbefore.connected h' with ⟨more, rfl, hmore⟩ | ⟨more, -, hmore⟩
  · exact goesOn_of_circle hcircle hmore
  · by_contra hend
    obtain ⟨-, heq⟩ := hmore.eq_of_not_goesOn hend
    exact hend (heq ▸ goesOn_of_circle hcircle (here _))

/-- Only one pointer is the first that is met again. -/
theorem eq_of_first {pointer' : String}
    (h : Leads components expected value pointers (.ref pointer)) (hnodup : pointers.Nodup)
    (hmem : pointer ∈ pointers)
    (h' : Leads components expected value pointers' (.ref pointer')) (hnodup' : pointers'.Nodup)
    (hmem' : pointer' ∈ pointers') : pointer' = pointer := by
  rcases h.connected h' with ⟨more, rfl, hmore⟩ | ⟨more, rfl, hmore⟩
  · cases hmore with
    | here => rfl
    | hop => exact absurd rfl ((List.nodup_append.1 hnodup').2.2 pointer hmem pointer (by simp))
  · cases hmore with
    | here => rfl
    | hop => exact absurd rfl ((List.nodup_append.1 hnodup).2.2 pointer' hmem' pointer' (by simp))

/-! ## Length -/

theorem mem_pointers {c : Components}
    (h : Leads (some c) expected value (pointer :: pointers) last) :
    ∀ next ∈ pointers, next ∈ c.pointers := by
  induction pointers generalizing value pointer with
  | nil => exact fun _ hmem => nomatch hmem
  | cons next rest ih =>
    cases h with
    | hop step hrest =>
      intro other hmem
      rcases List.mem_cons.1 hmem with rfl | hmem
      · cases hrest with
        | hop => exact mem_pointers_of_resolve rfl step
      · exact ih hrest other hmem

/-- A way without a repetition has one pointer more than there are among the components at most. -/
theorem length_le (h : Leads components expected value pointers last) (hnodup : pointers.Nodup) :
    pointers.length ≤ (components.elim [] Components.pointers).length + 1 := by
  cases h with
  | here => exact Nat.zero_le _
  | @hop pointer _ _ _ pointers step rest =>
    obtain ⟨c, -, -, rfl, -⟩ := exists_of_resolve step
    have hsubset := (Leads.hop step rest).mem_pointers
    exact Nat.succ_le_succ ((hnodup.of_cons.subperm hsubset).length_le)

end Leads

/-! ## Following a chain -/

/-- The key that a pointer names, if it is one to a component. -/
def keyOf (pointer : String) : Option String :=
  match split pointer with
  | .ok (_, token) => some (unescape token)
  | .error _ => none

/-- The name of what is found by following pointers: the class name of the last key, or the name that
was there before if none was followed. -/
def nameAfter (name : Option String) (pointers : List String) : Option String :=
  match pointers.getLast? with
  | none => name
  | some pointer => (keyOf pointer).map Naming.className

theorem nameAfter_concat {name : String} {entry : RefOr Component}
    (h : resolve components expected pointer = .ok (name, entry)) (before : Option String)
    (pointers : List String) : nameAfter before (pointers ++ [pointer]) = some name := by
  obtain ⟨c, s, token, -, rfl, htoken, hslash, -, -, rfl⟩ := exists_of_resolve h
  have hsplit : split ("#/components/" ++ s.key ++ "/" ++ token) = .ok (s.key, token) :=
    split_eq_ok_iff.2 ⟨rfl, key_ne_empty s, htoken, slash_notMem_key s, hslash⟩
  rw [nameAfter, List.getLast?_concat]
  simp only [keyOf, hsplit, Option.map_some]

/-- How a chain stops after the pointers that were followed, and what is answered then. -/
inductive Stops (components : Option Components) (expected : Option (List Section))
    (name : Option String) (pointers : List String) :
    RefOr Component → Except Error (Option String × Component) → Prop where
  | object (found : Component) :
      Stops components expected name pointers (.inline found)
        (.ok (nameAfter name pointers, found))
  | fault {pointer : String} {e : Error} (h : resolve components expected pointer = .error e) :
      Stops components expected name pointers (.ref pointer) (.error e)
  | circle {pointer : String} (hnodup : pointers.Nodup) (hmem : pointer ∈ pointers) :
      Stops components expected name pointers (.ref pointer) (.error (.circular pointer))

/-- However a chain stops, there is one answer to it. -/
theorem Stops.unique {name : Option String}
    {answer answer' : Except Error (Option String × Component)}
    (h : Stops components expected name pointers last answer)
    (hway : Leads components expected value pointers last)
    (h' : Stops components expected name pointers' last' answer')
    (hway' : Leads components expected value pointers' last') : answer' = answer := by
  cases h with
  | object found =>
    have hend : ¬ GoesOn components expected (.inline found) := not_goesOn_inline found
    cases h' with
    | object found' =>
      obtain ⟨rfl, heq⟩ := hway.unique hend hway' (not_goesOn_inline found')
      rw [RefOr.inline.inj heq]
    | fault herror' => cases (hway.unique hend hway' (not_goesOn_of_error herror')).2
    | circle _ hmem' => exact absurd (hway'.endless hmem' _ _ hway) hend
  | fault herror =>
    have hend := not_goesOn_of_error herror
    cases h' with
    | object found' => cases (hway.unique hend hway' (not_goesOn_inline found')).2
    | fault herror' =>
      obtain ⟨-, heq⟩ := hway.unique hend hway' (not_goesOn_of_error herror')
      obtain rfl := RefOr.ref.inj heq
      exact congrArg _ (Except.error.inj (herror'.symm.trans herror))
    | circle _ hmem' => exact absurd (hway'.endless hmem' _ _ hway) hend
  | circle hnodup hmem =>
    cases h' with
    | object found' => exact absurd (hway.endless hmem _ _ hway') (not_goesOn_inline found')
    | fault herror' => exact absurd (hway.endless hmem _ _ hway') (not_goesOn_of_error herror')
    | circle hnodup' hmem' => rw [hway.eq_of_first hnodup hmem hway' hnodup' hmem']

/-- A pointer that was come to by others, all of them visited, is followed until the chain stops, and
no pointer is followed twice. -/
theorem stops_followFrom {visited before : List String} (name : Option String)
    (hway : Leads (some c) expected value before (.ref pointer))
    (hvisited : visited = pointer :: before.reverse) (hnodup : (before ++ [pointer]).Nodup) :
    ∃ last, Leads (some c) expected value
        (before ++ (followFrom c expected visited pointer).steps) last ∧
      (before ++ (followFrom c expected visited pointer).steps).Nodup ∧
      Stops (some c) expected name (before ++ (followFrom c expected visited pointer).steps) last
        ((followFrom c expected visited pointer).outcome.map fun e => (some e.1, e.2)) := by
  fun_induction followFrom c expected visited pointer generalizing before with
  | case1 visited pointer e herror =>
    refine ⟨.ref pointer, ?_, ?_, .fault herror⟩
    · rw [List.append_nil]
      exact hway
    · rw [List.append_nil]
      exact hnodup.of_append_left
  | case2 visited pointer found object hfound =>
    refine ⟨.inline object, hway.concat hfound, hnodup, ?_⟩
    have hstop : Stops (some c) expected name (before ++ [pointer]) (.inline object)
        (.ok (nameAfter name (before ++ [pointer]), object)) := .object object
    rw [nameAfter_concat hfound] at hstop
    exact hstop
  | case3 visited pointer found next hnext hmem =>
    -- What was visited is the way up to here, so the way meets `next` again.
    refine ⟨.ref next, hway.concat hnext, hnodup, .circle hnodup ?_⟩
    simpa [hvisited, or_comm] using hmem
  | case4 visited pointer found next hnext hmem _ ih =>
    have hfresh : next ∉ before ++ [pointer] := by
      simpa [hvisited, or_comm] using hmem
    have hall : (before ++ [pointer] ++ [next]).Nodup :=
      List.nodup_append.2 ⟨hnodup, List.nodup_singleton next, fun a ha b hb heq =>
        hfresh (List.mem_singleton.1 hb ▸ heq ▸ ha)⟩
    -- The way goes on with `pointer` behind it; the steps from `next` on are those of the induction.
    obtain ⟨last, hlast, hnodups, hstops⟩ :=
      ih (hway.concat hnext) (by simp [hvisited]) hall
    rw [← List.append_cons] at hlast hnodups hstops
    exact ⟨last, hlast, hnodups, hstops⟩

/-- A value is followed, without a repetition, to where its chain stops. -/
theorem exists_stops (components : Option Components) (expected : Option (List Section))
    (name : Option String) (value : RefOr Component) :
    ∃ pointers last, Leads components expected value pointers last ∧ pointers.Nodup ∧
      Stops components expected name pointers last (followValue components expected name value) := by
  cases value with
  | inline found => exact ⟨[], .inline found, .here _, List.nodup_nil, .object found⟩
  | ref pointer =>
    cases components with
    | some c =>
      have hstart : Leads (some c) expected (.ref pointer) [] (.ref pointer) := .here _
      have hvisited : [pointer] = pointer :: ([] : List String).reverse := rfl
      obtain ⟨last, hlast, hnodup, hstops⟩ :=
        stops_followFrom name hstart hvisited (List.nodup_singleton pointer)
      exact ⟨_, last, hlast, hnodup, hstops⟩
    | none =>
      refine ⟨[], .ref pointer, .here _, List.nodup_nil, ?_⟩
      rw [followValue, follow]
      cases hstep : resolve none expected pointer with
      | error e => exact .fault hstep
      | ok found =>
        obtain ⟨c, -, -, hc, -⟩ := exists_of_resolve hstep
        cases hc

theorem split_ne_circular (pointer other : String) : split pointer ≠ .error (.circular other) := by
  intro h
  rw [split] at h
  split at h
  · cases h
  · split at h
    · split at h <;> cases h
    · cases h

/-- A step alone finds no circle. -/
theorem resolve_ne_circular (components : Option Components) (expected : Option (List Section))
    (pointer other : String) : resolve components expected pointer ≠ .error (.circular other) := by
  intro h
  rw [resolve] at h
  cases hsplit : split pointer with
  | error e =>
    simp only [hsplit, bind, Except.bind, Except.error.injEq] at h
    exact split_ne_circular pointer other (hsplit.trans (congrArg _ h))
  | ok parts =>
    simp only [hsplit, bind, Except.bind] at h
    split at h
    · cases h
    · split at h
      · cases h
      · split at h
        · cases h
        · split at h
          · cases h
          · split at h <;> cases h

/-- A chain is followed to its end. The answer comes after one step more than there are pointers among
the components at most. It is an object if steps lead to one, under the class name of the last key or
under the name that was there if there was no step; the error of a step that fails; or the circle
through the first pointer that is met again, and this if and only if no step fails and none comes to
an object. -/
theorem chain_followed (components : Option Components) (expected : Option (List Section))
    (name : Option String) (value : RefOr Component) :
    (∃ pointers last, Leads components expected value pointers last ∧
      pointers.length ≤ (components.elim [] Components.pointers).length + 1 ∧
      Stops components expected name pointers last
        (followValue components expected name value)) ∧
    (∀ called found, followValue components expected name value = .ok (called, found) ↔
      ∃ pointers, Leads components expected value pointers (.inline found) ∧
        called = nameAfter name pointers) ∧
    (∀ e, followValue components expected name value = .error e ↔
      (∃ pointers pointer, Leads components expected value pointers (.ref pointer) ∧
        resolve components expected pointer = .error e) ∨
      ∃ pointers pointer, Leads components expected value pointers (.ref pointer) ∧
        pointers.Nodup ∧ pointer ∈ pointers ∧ e = .circular pointer) ∧
    ((∃ pointer, followValue components expected name value = .error (.circular pointer)) ↔
      Endless components expected value) := by
  obtain ⟨pointers, last, hway, hnodup, hstops⟩ := exists_stops components expected name value
  refine ⟨⟨pointers, last, hway, hway.length_le hnodup, hstops⟩, fun called found => ⟨fun h => ?_, ?_⟩,
    fun e => ⟨fun h => ?_, ?_⟩, ⟨?_, fun hendless => ?_⟩⟩
  · rw [h] at hstops
    cases hstops with
    | object => exact ⟨pointers, hway, rfl⟩
  · rintro ⟨pointers', hway', rfl⟩
    exact (Stops.object found).unique hway' hstops hway
  · rw [h] at hstops
    cases hstops with
    | fault herror => exact Or.inl ⟨pointers, _, hway, herror⟩
    | circle hnodup hmem => exact Or.inr ⟨pointers, _, hway, hnodup, hmem, rfl⟩
  · rintro (⟨pointers', pointer, hway', herror⟩ | ⟨pointers', pointer, hway', hnodup', hmem, rfl⟩)
    · exact (Stops.fault herror).unique hway' hstops hway
    · exact (Stops.circle hnodup' hmem).unique hway' hstops hway
  · rintro ⟨pointer, h⟩
    rw [h] at hstops
    cases hstops with
    | fault herror => exact absurd herror (resolve_ne_circular _ _ _ pointer)
    | circle _ hmem => exact hway.endless hmem
  · have hgoes := hendless pointers last hway
    generalize followValue components expected name value = answer at hstops
    cases hstops with
    | object found => exact absurd hgoes (not_goesOn_inline found)
    | fault herror => exact absurd hgoes (not_goesOn_of_error herror)
    | circle => exact ⟨_, rfl⟩

end ApiClient.Pointer
