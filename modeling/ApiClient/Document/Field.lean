import ApiClient.Document.Error
import ApiClient.Document.Schema
import ApiClient.Text.Replace

/-!
# Reading fields

The steps that every object of a document is read with: checks of kinds, required fields, pointers
and tables. `eachItem` and `eachMember` hand every part over together with the fact that it is a
part, so that reading ends; a member of an object, and an item or a member of such a member, is
smaller than the object (`sizeOf_member_lt`, `sizeOf_item_lt`, `sizeOf_entry_lt`).
-/

namespace ApiClient.Document

open Json

/-- What reading yields. -/
abbrev Read (α : Type) := Except Error α

/-! ## Checks -/

/-- An object, or null for an object without members. -/
def checkObject (place : String) : Json → Read Unit
  | .null => .ok ()
  | .obj _ => .ok ()
  | j => .error (.notObject place j.kind)

/-- An array, or null for an array without items. -/
def checkArray (place : String) : Json → Read Unit
  | .null => .ok ()
  | .arr _ => .ok ()
  | j => .error (.notArray place j.kind)

/-- A field that has to be there. -/
def required (place : String) (j : Json) (key : String) : Read Json :=
  match j.member key with
  | .null => .error (.missingField key place)
  | value => .ok value

/-- The pointer that stands in the place of an object. -/
def pointer? (j : Json) : Read (Option String) :=
  match j.member "$ref" with
  | .null => .ok none
  | .str pointer => .ok (some pointer)
  | other => .error (.pointerKind other.kind)

/-- The truth of a flag that is false unless it is given. -/
def flag (j : Json) (key : String) : Bool :=
  (j.member key).truth

/-- The truth of a flag that is true unless it is given. -/
def flagOn (j : Json) (key : String) : Bool :=
  match Table.get? j.members key with
  | none => true
  | some value => value.truth

/-- Whether a key belongs to an extension of the format. -/
def isExtension (key : String) : Bool :=
  Text.startsWith "x-" key

/-- The members of an object that belong to no extension. -/
def fields (j : Json) : Table Json :=
  j.members.filter fun e => !isExtension e.1

/-! ## Lists and tables -/

variable {α β : Type}

/-- Reads the items of a list from the left, with their numbers from `n` on. -/
def eachItem (n : Nat) : (items : List α) → (reader : Nat → ∀ x, x ∈ items → Read β) →
    Read (List β)
  | [], _ => .ok []
  | x :: rest, reader => do
    let y ← reader n x List.mem_cons_self
    let ys ← eachItem (n + 1) rest fun n x h => reader n x (List.mem_cons_of_mem _ h)
    return y :: ys

/-- Reads the entries of a table from the left. -/
def eachMember : (entries : List (String × α)) →
    (reader : ∀ key value, (key, value) ∈ entries → Read β) → Read (List (String × β))
  | [], _ => .ok []
  | (key, value) :: rest, reader => do
    let y ← reader key value List.mem_cons_self
    let ys ← eachMember rest fun k v h => reader k v (List.mem_cons_of_mem _ h)
    return (key, y) :: ys

/-- A field that is read unless it is absent. -/
def optional (value : Json) (reader : value ≠ .null → Read β) : Read (Option β) :=
  if h : value = .null then .ok none else (reader h).map some

/-- An object, or a pointer to a component in its place. -/
def refOr (place : String) (j : Json) (reader : Read β) : Read (RefOr β) := do
  checkObject place j
  match ← pointer? j with
  | some pointer => return .ref pointer
  | none => return .inline (← reader)

/-! ## Sizes -/

theorem sizeOf_item_lt {j v : Json} {key : String} (h : v ∈ (j.member key).items) :
    sizeOf v < sizeOf j := by
  have hn : j.member key ≠ .null := by
    intro hn
    simp [hn, items] at h
  exact Nat.lt_trans (sizeOf_lt_of_mem_items h) (sizeOf_member_lt hn)

theorem sizeOf_entry_lt {j v : Json} {key name : String}
    (h : (name, v) ∈ (j.member key).members) : sizeOf v < sizeOf j := by
  have hn : j.member key ≠ .null := by
    intro hn
    simp [hn, members] at h
  exact Nat.lt_trans (sizeOf_lt_of_mem_members h) (sizeOf_member_lt hn)

theorem mem_members_of_mem_fields {j v : Json} {name : String} (h : (name, v) ∈ fields j) :
    (name, v) ∈ j.members :=
  (List.mem_filter.1 h).1

end ApiClient.Document
