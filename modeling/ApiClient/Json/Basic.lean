import ApiClient.Number.Floating

/-!
# JSON values

A JSON value as the documents and the template values hold it: integers of any size apart from
floating-point numbers, and objects as lists of members in order, each key once. Besides the type
this module has the members of an object (`Table`), the kind of a value and its truth.

`sizeOf_member_lt` and its neighbours say that the parts of a value are smaller than the value,
which is what recursion over a document rests on.
-/

namespace ApiClient

/-- Entries in order, each under a key of its own. -/
abbrev Table (α : Type) := List (String × α)

namespace Table

variable {α : Type}

/-- The entry under `key`. -/
def get? (t : Table α) (key : String) : Option α :=
  List.lookup key t

/-- The keys in order. -/
def keys (t : Table α) : List String :=
  List.map Prod.fst t

/-- Puts `value` under `key`: in the place of the entry that is there, or at the end. -/
def put : Table α → String → α → Table α
  | [], key, value => [(key, value)]
  | (k, v) :: rest, key, value =>
    if k = key then (k, value) :: rest else (k, v) :: put rest key value

/-- Puts the entries of `more` one after another. -/
def putAll (t more : Table α) : Table α :=
  more.foldl (fun t e => t.put e.1 e.2) t

/-- A list of entries as a table: a repeated key keeps its first place and its last value. -/
def ofList (entries : List (String × α)) : Table α :=
  putAll [] entries

/-- No two entries have the same key. -/
def Distinct (t : Table α) : Prop :=
  t.keys.Nodup

end Table

/-- A JSON value. -/
inductive Json where
  | null
  | bool (value : Bool)
  | int (value : Int)
  | float (value : Floating)
  | str (value : String)
  | arr (items : List Json)
  | obj (members : List (String × Json))
  deriving Inhabited

namespace Json

/-! ## Kinds and truth -/

/-- The kinds of values that error messages tell apart. -/
inductive Kind where
  | null | bool | int | float | str | list | dict
  deriving DecidableEq, Repr

/-- The word for a kind in messages. -/
def Kind.word : Kind → String
  | null => "NoneType"
  | bool => "bool"
  | int => "int"
  | float => "float"
  | str => "str"
  | list => "list"
  | dict => "dict"

/-- The kind of a value. -/
def kind : Json → Kind
  | null => .null
  | bool _ => .bool
  | int _ => .int
  | float _ => .float
  | str _ => .str
  | arr _ => .list
  | obj _ => .dict

/-- A value counts as true unless it is null, false, zero or empty. -/
def truth : Json → Bool
  | null => false
  | bool b => b
  | int n => n ≠ 0
  | float x => !x.isZero
  | str s => s ≠ ""
  | arr items => !items.isEmpty
  | obj members => !members.isEmpty

instance : (j : Json) → Decidable (j = null)
  | null => isTrue rfl
  | bool _ | int _ | float _ | str _ | arr _ | obj _ => isFalse nofun

/-- A text, or null for none. -/
def ofText? : Option String → Json
  | none => null
  | some s => str s

/-! ## Parts -/

/-- The members of an object, none of anything else. -/
def members : Json → Table Json
  | obj ms => ms
  | _ => []

/-- The items of an array, none of anything else. -/
def items : Json → List Json
  | arr xs => xs
  | _ => []

/-- The member `key` of an object; null when there is none. -/
def member (j : Json) (key : String) : Json :=
  (j.members.get? key).getD null

theorem mem_of_lookup {α : Type} {key : String} {value : α} {t : List (String × α)}
    (h : t.lookup key = some value) : (key, value) ∈ t := by
  induction t with
  | nil => simp at h
  | cons e rest ih =>
    obtain ⟨k, v⟩ := e
    rw [List.lookup_cons] at h
    split at h
    · simp_all
    · exact List.mem_cons_of_mem _ (ih h)

/-- An entry of a member list is smaller than the object. -/
theorem sizeOf_lt_of_mem_members {j v : Json} {key : String} (h : (key, v) ∈ j.members) :
    sizeOf v < sizeOf j := by
  cases j <;> simp [members] at h
  case obj ms =>
    have := List.sizeOf_lt_of_mem h
    simp only [Prod.mk.sizeOf_spec, obj.sizeOf_spec] at this ⊢
    omega

/-- An item is smaller than its array. -/
theorem sizeOf_lt_of_mem_items {j v : Json} (h : v ∈ j.items) : sizeOf v < sizeOf j := by
  cases j <;> simp [items] at h
  case arr xs =>
    have := List.sizeOf_lt_of_mem h
    simp only [arr.sizeOf_spec] at this ⊢
    omega

/-- A member that is not null is smaller than its object. -/
theorem sizeOf_member_lt {j : Json} {key : String} (h : j.member key ≠ null) :
    sizeOf (j.member key) < sizeOf j := by
  unfold member at *
  cases hg : j.members.get? key with
  | none => simp [hg] at h
  | some v =>
    simp only [Option.getD_some]
    exact sizeOf_lt_of_mem_members (mem_of_lookup hg)

end Json

end ApiClient
