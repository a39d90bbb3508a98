import ApiClient.Types.Registry
import Mathlib

/-!
# What a registry holds

The view of a registry that nothing but registration changes: its `heads`, that is the name, the
qualified name and the schema of every type in order. Registering puts one more head at the end
(`heads_add`), giving a type a field leaves the heads as they are (`heads_addField`), and a look-up
only depends on them (`exists_find_of_isPrefix`).
-/

namespace ApiClient

/-- What registering fixes about a type. -/
structure Head where
  name : String
  qualified : String
  schema : Schema

namespace NamedType

/-- What registering fixed about the type. -/
def head (t : NamedType) : Head :=
  ⟨t.name, t.qualified, t.schema⟩

/-- A type is spelt by its head. -/
theorem spelling_of_head {t u : NamedType} (h : t.head = u.head) : t.spelling = u.spelling := by
  simp only [head, Head.mk.injEq] at h
  simp only [spelling, h.1, h.2.1]

theorem schema_of_head {t u : NamedType} (h : t.head = u.head) : t.schema = u.schema :=
  congrArg Head.schema h

end NamedType

namespace Registry

/-- The heads of the types in order. -/
def heads (r : Registry) : List Head :=
  List.map NamedType.head r

theorem names_eq_heads (r : Registry) : r.names = r.heads.map Head.name := by
  simp [names, heads, NamedType.head]

/-! ## Registering and extending -/

theorem heads_add (r : Registry) (t : NamedType) : (r.add t).heads = r.heads ++ [t.head] := by
  simp [heads, add]

theorem names_add (r : Registry) (t : NamedType) : (r.add t).names = r.names ++ [t.name] := by
  simp [names, add]

theorem heads_addField (r : Registry) (name : String) (f : Field) :
    (r.addField name f).heads = r.heads := by
  simp only [heads, addField, List.map_map]
  refine List.map_congr_left fun t _ => ?_
  simp only [Function.comp_apply]
  split <;> rfl

theorem names_addField (r : Registry) (name : String) (f : Field) :
    (r.addField name f).names = r.names := by
  simp only [names_eq_heads, heads_addField]

theorem addField_of_notMem {r : Registry} {name : String} (h : name ∉ r.names) (f : Field) :
    r.addField name f = r := by
  refine (List.map_congr_left fun t ht => ?_).trans (List.map_id r)
  have hne : t.name ≠ name := fun he => h (he ▸ List.mem_map_of_mem ht)
  simp [hne]

theorem addField_append (p r : Registry) (name : String) (f : Field) :
    Registry.addField (p ++ r) name f = p.addField name f ++ r.addField name f :=
  List.map_append

/-- A field for a type behind a part of the registry leaves the part as it is. -/
theorem prefix_addField {p r : Registry} {name : String} (h : p <+: r) (hname : name ∉ p.names)
    (f : Field) : p <+: r.addField name f := by
  obtain ⟨rest, rfl⟩ := h
  rw [addField_append, addField_of_notMem hname]
  exact List.prefix_append _ _

/-- A field goes to the type of the name. -/
theorem addField_append_cons {front back : Registry} {t : NamedType} (hfront : t.name ∉ front.names)
    (hback : t.name ∉ back.names) (f : Field) :
    Registry.addField (front ++ t :: back) t.name f =
      front ++ { t with fields := t.fields ++ [f] } :: back := by
  have hcons : Registry.addField (t :: back) t.name f =
      { t with fields := t.fields ++ [f] } :: back.addField t.name f := by
    rw [addField, List.map_cons, if_pos rfl]
    rfl
  rw [addField_append, addField_of_notMem hfront, hcons, addField_of_notMem hback]

/-! ## Looking up -/

theorem find_eq_none_iff {r : Registry} {name : String} : r.find name = none ↔ name ∉ r.names := by
  simp [find, names]

theorem name_of_find {r : Registry} {name : String} {t : NamedType} (h : r.find name = some t) :
    t.name = name := by
  simpa using List.find?_some h

theorem mem_of_find {r : Registry} {name : String} {t : NamedType} (h : r.find name = some t) :
    t ∈ r :=
  List.mem_of_find?_eq_some h

theorem find_add_self {r : Registry} {t : NamedType} (h : r.find t.name = none) :
    (r.add t).find t.name = some t := by
  simp only [find, add, List.append_eq, List.find?_append] at h ⊢
  simp [h]

theorem find_add_of_ne {t : NamedType} {name : String} (h : t.name ≠ name) (r : Registry) :
    (r.add t).find name = r.find name := by
  simp [find, add, h]

theorem find_add_of_find {r : Registry} {name : String} {t : NamedType} (h : r.find name = some t)
    (u : NamedType) : (r.add u).find name = some t := by
  simp only [find, add, List.append_eq, List.find?_append] at h ⊢
  simp [h]

theorem find_addField (r : Registry) (name : String) (f : Field) (n : String) :
    (r.addField name f).find n =
      (r.find n).map fun t => if t.name = name then { t with fields := t.fields ++ [f] } else t := by
  rw [find, addField, List.find?_map]
  have hname : ∀ t : NamedType, decide ((if t.name = name then
      { t with fields := t.fields ++ [f] } else t).name = n) = decide (t.name = n) := fun t => by
    split <;> rfl
  simp only [Function.comp_def, hname, find]

theorem find_addField_self {r : Registry} {name : String} {t : NamedType}
    (h : r.find name = some t) (f : Field) :
    (r.addField name f).find name = some { t with fields := t.fields ++ [f] } := by
  simp [find_addField, h, name_of_find h]

theorem find_addField_of_ne {n name : String} (h : n ≠ name) (r : Registry) (f : Field) :
    (r.addField name f).find n = r.find n := by
  rw [find_addField]
  cases hfind : r.find n with
  | none => rfl
  | some t =>
    have hne : t.name ≠ name := name_of_find hfind ▸ h
    simp [hne]

/-- In a registry without repetition, every type is found by its name. -/
theorem find_of_mem {r : Registry} (h : r.names.Nodup) {t : NamedType} (ht : t ∈ r) :
    r.find t.name = some t := by
  cases hfind : r.find t.name with
  | none => exact absurd (List.mem_map_of_mem ht) (find_eq_none_iff.1 hfind)
  | some u =>
    rw [List.inj_on_of_nodup_map h (mem_of_find hfind) ht (name_of_find hfind)]

theorem find_heads (r : Registry) (name : String) :
    (r.find name).map NamedType.head = r.heads.find? (·.name = name) := by
  rw [heads, List.find?_map]
  rfl

/-- A name that is registered stays registered for the same schema. -/
theorem exists_find_of_isPrefix {r r' : Registry} {name : String} {t : NamedType}
    (h : r.heads <+: r'.heads) (ht : r.find name = some t) :
    ∃ t', r'.find name = some t' ∧ t'.head = t.head := by
  have hfind : r.heads.find? (·.name = name) = some t.head := by rw [← find_heads, ht]; rfl
  have hfind' := h.find?_eq_some hfind
  rw [← find_heads, Option.map_eq_some_iff] at hfind'
  exact hfind'

end Registry

end ApiClient
