import ApiClient.Document.Component
import ApiClient.Naming.Case
import ApiClient.Text.Replace

/-!
# Pointers

A pointer such as `#/components/schemas/Team` names a section and a key in it, a slash in the key
written `~1` and a tilde `~0`. `Pointer.resolve` looks it up, one step; `Pointer.follow` goes on
from pointer to pointer until it meets an object, and fails when it meets a pointer again.

The component gives its name to what is found: the class name of its key, of the last key on the
way.
-/

namespace ApiClient.Pointer

/-- Why a pointer leads nowhere. -/
inductive Error where
  /-- It does not point to components. -/
  | outside (pointer : String)
  /-- It is not a section and a key. -/
  | malformed (pointer : String)
  /-- The document has no components. -/
  | noComponents (pointer : String)
  /-- There is no such section. -/
  | unknownSection (pointer key : String)
  /-- The section has no such key. -/
  | unknownKey (pointer area key : String)
  /-- The entry is an object of another section. -/
  | wrongKind (pointer : String) (found : Section)
  /-- The pointer has been met before. -/
  | circular (pointer : String)
  deriving DecidableEq, Repr

/-- The text of an error. -/
def Error.message : Error → String
  | outside pointer =>
    String.join ["Reference '", pointer, "' does not point into '#/components/'"]
  | malformed pointer =>
    String.join ["Reference '", pointer, "' is not of the form '#/components/<section>/<name>'"]
  | noComponents pointer =>
    String.join ["Reference '", pointer, "' cannot be resolved: the document has no components"]
  | unknownSection pointer key =>
    String.join ["Reference '", pointer, "' names unknown components section '", key, "'"]
  | unknownKey pointer area key =>
    String.join [
      "Reference '", pointer, "' cannot be resolved: no '", key, "' in components.", area]
  | wrongKind pointer found =>
    String.join ["Reference '", pointer, "' resolves to a ", found.word, ", not the expected object"]
  | circular pointer => String.join ["Circular reference chain through '", pointer, "'"]

/-! ## Keys -/

/-- The key that a token stands for. -/
def unescape (token : String) : String :=
  Text.replaceAll "~0" "~" (Text.replaceAll "~1" "/" token)

/-- The token for a key. -/
def escape (key : String) : String :=
  Text.replaceAll "/" "~1" (Text.replaceAll "~" "~0" key)

/-- The section and the token of a pointer to a component. -/
def split (pointer : String) : Except Error (String × String) :=
  match Text.after? "#/components/" pointer with
  | none => .error (.outside pointer)
  | some rest =>
    match Text.split '/' rest with
    | [area, token] =>
      if area = "" ∨ token = "" then .error (.malformed pointer) else .ok (area, token)
    | _ => .error (.malformed pointer)

/-! ## One step -/

/-- Whether an object is of one of the sections, of any when none are given. -/
def isExpected (expected : Option (List Section)) (c : Component) : Bool :=
  expected.all (·.contains c.home)

/-- The entry under a pointer, with the class name of its key. An object has to be what is
expected; whether a pointer leads there is not looked at. -/
def resolve (components : Option Components) (expected : Option (List Section))
    (pointer : String) : Except Error (String × RefOr Component) := do
  let (sectionKey, token) ← split pointer
  let key := unescape token
  match components with
  | none => .error (.noComponents pointer)
  | some c =>
    match Section.ofKey? sectionKey with
    | none => .error (.unknownSection pointer sectionKey)
    | some s =>
      match (c.table s).get? key with
      | none => .error (.unknownKey pointer sectionKey key)
      | some entry =>
        match entry with
        | .ref next => .ok (Naming.className key, .ref next)
        | .inline found =>
          if isExpected expected found then .ok (Naming.className key, .inline found)
          else .error (.wrongKind pointer found.home)

theorem mem_all (s : Section) : s ∈ Section.all := by
  cases s <;> decide

/-- A pointer that a step leads to stands in the components. -/
theorem mem_pointers_of_resolve {components : Option Components} {c : Components}
    {expected : Option (List Section)} {pointer name next : String} (hc : components = some c)
    (h : resolve components expected pointer = .ok (name, .ref next)) : next ∈ c.pointers := by
  subst hc
  unfold resolve at h
  cases hs : split pointer with
  | error e => simp [hs, bind, Except.bind] at h
  | ok p =>
    obtain ⟨sectionKey, token⟩ := p
    simp only [hs, bind, Except.bind] at h
    split at h
    · simp at h
    · rename_i s _
      split at h
      · simp at h
      · rename_i entry he
        have hmem : (unescape token, entry) ∈ c.table s := Json.mem_of_lookup he
        cases entry with
        | ref other =>
          simp only [Except.ok.injEq, Prod.mk.injEq, RefOr.ref.injEq] at h
          obtain ⟨rfl, rfl⟩ := h
          exact List.mem_flatMap.2 ⟨s, mem_all s, List.mem_filterMap.2 ⟨_, hmem, rfl⟩⟩
        | inline found =>
          simp only at h
          split at h <;> simp at h

/-! ## Chains -/

/-- The way from a pointer on: the pointers that were resolved, and what it ends in. -/
structure Chain where
  steps : List String
  outcome : Except Error (String × Component)

/-- Puts a step in front of a chain. -/
def Chain.after (step : String) (c : Chain) : Chain :=
  { c with steps := step :: c.steps }

/-- Follows `pointer`, the last of the pointers `visited`. -/
def followFrom (c : Components) (expected : Option (List Section)) (visited : List String)
    (pointer : String) : Chain :=
  match h : resolve (some c) expected pointer with
  | .error e => ⟨[], .error e⟩
  | .ok (name, .inline found) => ⟨[pointer], .ok (name, found)⟩
  | .ok (_, .ref next) =>
    if hv : next ∈ visited then ⟨[pointer], .error (.circular next)⟩
    else
      have : (c.pointers.filter (· ∉ next :: visited)).length <
          (c.pointers.filter (· ∉ visited)).length := by
        have hm : next ∈ c.pointers.filter (· ∉ visited) := by
          simp [mem_pointers_of_resolve rfl h, hv]
        have hs : c.pointers.filter (· ∉ next :: visited) =
            (c.pointers.filter (· ∉ visited)).filter (· ≠ next) := by
          rw [List.filter_filter]
          refine List.filter_congr fun x _ => ?_
          simp [List.mem_cons]
        rw [hs]
        refine Nat.lt_of_le_of_ne (List.length_filter_le _ _) fun he => ?_
        have := List.length_filter_eq_length_iff.1 he next hm
        simp at this
      (followFrom c expected (next :: visited) next).after pointer
  termination_by (c.pointers.filter (· ∉ visited)).length
  decreasing_by exact this

/-- Follows a pointer to an object. -/
def follow (components : Option Components) (expected : Option (List Section))
    (pointer : String) : Chain :=
  match components with
  | some c => followFrom c expected [pointer] pointer
  | none =>
    match resolve none expected pointer with
    | .error e => ⟨[], .error e⟩
    | .ok _ => ⟨[], .error (.noComponents pointer)⟩

/-- The object that a value is or points to, with its name: an object keeps the name it has where it
stands, and what a pointer leads to has the name of the last component on the way. -/
def followValue (components : Option Components) (expected : Option (List Section))
    (name : Option String) : RefOr Component → Except Error (Option String × Component)
  | .inline found => .ok (name, found)
  | .ref pointer => (follow components expected pointer).outcome.map fun e => (some e.1, e.2)

end ApiClient.Pointer
