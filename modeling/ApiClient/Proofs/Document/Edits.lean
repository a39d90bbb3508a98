import ApiClient.Proofs.Document.Congruence
import Mathlib

/-!
# What reading passes over

Edits that add or remove unknown fields and extensions, and that reorder fields, wherever and however
often, are not seen (`alike_of_edited`): the document that is read stays the same, or the fault that is
reported does (`ofJson_eq_of_edited`).
-/

namespace ApiClient.Document

open Json

variable {k : Fixed} {s : Shape} {before after : Table Json} {key : String}

/-- An entry is met under no key but its own. -/
theorem get?_insert_of_ne {other : String} (h : other ≠ key) (value : Json) :
    Table.get? (before ++ (key, value) :: after) other = Table.get? (before ++ after) other := by
  have hbeq : (other == key) = false := beq_false_of_ne h
  rw [Table.get?, Table.get?, List.lookup_append, List.lookup_append, List.lookup_cons, hbeq]

theorem fieldsAlike_of_perm {m m' : Table Json} (hdistinct : m.Distinct) (hperm : List.Perm m m') :
    FieldsAlike k m m' := fun key _ _ => by
  rw [Table.get?_perm hperm hdistinct key]

theorem fieldsAlike_of_unknown (value : Json) (hkey : key ∉ k.fields.keys) :
    FieldsAlike k (before ++ after) (before ++ (key, value) :: after) := fun other s hfield => by
  have hne : other ≠ key := fun heq => hkey (heq ▸ List.mem_map_of_mem hfield)
  rw [get?_insert_of_ne hne]

/-- Tables whose entries are alike in the place of one. -/
theorem map_view_congr {value value' : Json} (h : s.Alike value value') :
    (before ++ (key, value) :: after).map (fun e => (e.1, s.view e.2)) =
      (before ++ (key, value') :: after).map fun e => (e.1, s.view e.2) := by
  rw [List.map_append, List.map_append, List.map_cons, List.map_cons, h]

theorem fieldsAlike_of_field {value value' : Json} (hfield : (key, s) ∈ k.fields)
    (h : s.Alike value value') :
    FieldsAlike k (before ++ (key, value) :: after) (before ++ (key, value') :: after) :=
  fun other s' hfield' => by
    by_cases heq : other = key
    · subst heq
      have hshape := Table.get?_of_mem k.distinct_fields hfield
      rw [Table.get?_of_mem k.distinct_fields hfield'] at hshape
      obtain rfl := Option.some.inj hshape
      exact get?_congr (map_view_congr h) other
    · rw [get?_insert_of_ne heq, get?_insert_of_ne heq]

/-- The fields of a kind are all that is seen of an object. -/
theorem alike_of_fieldsAlike {m m' : Table Json} (h : FieldsAlike k m m') :
    (Shape.object k).Alike (.obj m) (.obj m') :=
  opened_eq_of_parts rfl rfl (k.read_eq_of_fieldsAlike h)

/-- Edits are not seen. -/
theorem alike_of_edited {j j' : Json} (h : Edited s j j') : s.Alike j j' := by
  induction h with
  | refl s j => exact rfl
  | symm _ ih => exact ih.symm
  | trans _ _ ih ih' => exact ih.trans ih'
  | reorder hdistinct hperm => exact alike_of_fieldsAlike (fieldsAlike_of_perm hdistinct hperm)
  | unknown value hkey => exact alike_of_fieldsAlike (fieldsAlike_of_unknown value hkey)
  | extension value hkey =>
    refine opened_eq_of_parts rfl rfl (congrArg (List.map _) ?_)
    rw [fields, fields, members, members, List.filter_append, List.filter_append,
      List.filter_cons_of_neg (by simpa using hkey)]
  | field hfield _ ih => exact alike_of_fieldsAlike (fieldsAlike_of_field hfield ih)
  | item _ ih =>
    refine opened_eq_of_parts rfl rfl ?_
    rw [items, items, List.map_append, List.map_append, List.map_cons, List.map_cons, ih]
  | entry _ ih => exact opened_eq_of_parts rfl rfl (map_view_congr ih)
  | @extensibleEntry s before after key value value' _ ih =>
    refine opened_eq_of_parts rfl rfl ?_
    rw [fields, fields, members, members, List.filter_append, List.filter_append]
    by_cases hkey : isExtension key = true
    · rw [List.filter_cons_of_neg (by simpa using hkey), List.filter_cons_of_neg (by simpa using hkey)]
    · rw [List.filter_cons_of_pos (by simpa using hkey), List.filter_cons_of_pos (by simpa using hkey)]
      exact map_view_congr ih

/-- Two documents that differ in unknown fields, in extensions and in the order of fields, at any places
and depths, are read alike: as equal documents, or with the same fault. -/
theorem ofJson_eq_of_edited {j j' : Json} (h : Edited (.object .root) j j')
    (hversion : "openapi" ∈ j.members.keys) : ofJson j = ofJson j' := by
  have hread : Fixed.root.read j = Fixed.root.read j' := (alike_of_edited h).read_eq
  rw [Fixed.read, Fixed.read, if_pos hversion] at hread
  split at hread
  · exact Option.some.inj hread
  · cases hread

/-- A document with one operation and one response. -/
def bare : Json :=
  .obj [("paths", .obj [("/pets", .obj [("get", .obj [("responses", .obj [("200",
      .obj [("description", .str "d")])])])])]),
    ("info", .obj [("title", .str "T"), ("version", .str "1")]),
    ("openapi", .str "3.0.0")]

/-- The same document with an unknown field, an extension among the paths, another unknown field in the
response, and two fields that have changed places. -/
def annotated : Json :=
  .obj [("note", .int 1),
    ("paths", .obj [("x-note", .null), ("/pets", .obj [("get", .obj [("responses", .obj [("200",
      .obj [("summary", .str "s"), ("description", .str "d")])])])])]),
    ("info", .obj [("version", .str "1"), ("title", .str "T")]),
    ("openapi", .str "3.0.0")]

theorem ofJson_bare_eq_annotated : Edited (.object .root) bare annotated ∧
    "openapi" ∈ bare.members.keys ∧ ofJson bare = ofJson annotated := by
  have hdistinct : Table.Distinct [("title", Json.str "T"), ("version", .str "1")] := by
    rw [Table.Distinct]
    decide
  have hinfo : Edited (.object .info) _ _ := .reorder hdistinct (.swap _ _ [])
  -- from the response to the paths
  have hresponse : Edited (.object .response) (.obj [("description", .str "d")]) _ :=
    @Edited.unknown _ [] [_] "summary" (.str "s") (by decide)
  have hresponses : Edited (.extensible (.object .response)) _ _ :=
    @Edited.extensibleEntry _ [] [] "200" _ _ hresponse
  have hoperation : Edited (.object .operation) _ _ :=
    @Edited.field _ _ [] [] "responses" _ _ (by decide) hresponses
  have hitem : Edited (.object .pathItem) _ _ :=
    @Edited.field _ _ [] [] "get" _ _ (by decide) hoperation
  have hpaths : Edited (.extensible (.object .pathItem)) _ _ :=
    .trans (@Edited.extensibleEntry _ [] [] "/pets" _ _ hitem)
      (@Edited.extension _ [] [_] "x-note" .null (by decide))
  have hedited : Edited (.object .root) bare annotated :=
    .trans (@Edited.field _ _ [] [_, _] "paths" _ _ (by decide) hpaths)
      (.trans (@Edited.field _ _ [_] [_] "info" _ _ (by decide) hinfo)
        (@Edited.unknown _ [] [_, _, _] "note" _ (by decide)))
  have hversion : "openapi" ∈ bare.members.keys := by decide
  exact ⟨hedited, hversion, ofJson_eq_of_edited hedited hversion⟩

end ApiClient.Document
