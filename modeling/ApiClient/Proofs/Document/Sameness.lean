import ApiClient.Document.Schema
import ApiClient.Proofs.Json.Equality
import Mathlib

/-!
# Equality of schemas, field by field

Two schemas are the same when their forms are. `Schema.same_iff_agrees` says what that means for the
schemas themselves: that they agree field by field, lists in order and tables under each of their keys,
where schemas in a field are the same again. A form tells a pointer from a schema, and a schema from what
is absent, so nothing is the same as something of another kind.

Main statement: equality of schemas is an equivalence (`Schema.same_equivalence`).
-/

namespace ApiClient

/-! ## Schemas -/

/-- Two tables have the same keys, and related values under each of them. -/
def Table.Rel {α : Type} (R : α → α → Prop) (t u : Table α) : Prop :=
  ∀ key, Option.Rel R (t.get? key) (u.get? key)

/-- The same pointer, or objects that are related; a pointer is never related to an object. -/
@[mk_iff]
inductive RefOr.Rel {α : Type} (R : α → α → Prop) : RefOr α → RefOr α → Prop where
  | ref (pointer : String) : RefOr.Rel R (.ref pointer) (.ref pointer)
  | inline {a b : α} (h : R a b) : RefOr.Rel R (.inline a) (.inline b)

/-- The same permission, or related schemas. -/
@[mk_iff]
inductive Additional.Rel {α : Type} (R : α → α → Prop) : Additional α → Additional α → Prop where
  | allowed (any : Bool) : Additional.Rel R (.allowed any) (.allowed any)
  | schema {a b : RefOr α} (h : RefOr.Rel R a b) : Additional.Rel R (.schema a) (.schema b)

/-- Two discriminators agree field by field. -/
@[mk_iff]
structure Discriminator.Agrees (a b : Discriminator) : Prop where
  propertyName : a.propertyName.Equal b.propertyName
  mapping : Table.Rel Json.Equal a.mapping b.mapping

namespace Schema

/-- Two schemas agree field by field: values are equal, lists agree in order and tables under each of
their keys, and schemas in them are related by `R`. -/
@[mk_iff]
structure Agrees (R : Schema → Schema → Prop) (a b : Schema) : Prop where
  type : a.type.Equal b.type
  format : a.format.Equal b.format
  title : a.title.Equal b.title
  description : a.description.Equal b.description
  properties : Option.Rel (Table.Rel (RefOr.Rel R)) a.properties b.properties
  required : List.Forall₂ Json.Equal a.required b.required
  items : Option.Rel (RefOr.Rel R) a.items b.items
  additional : Option.Rel (Additional.Rel R) a.additional b.additional
  choices : Option.Rel (List.Forall₂ Json.Equal) a.choices b.choices
  fallback : a.fallback.Equal b.fallback
  sample : a.sample.Equal b.sample
  nullable : a.nullable = b.nullable
  readOnly : a.readOnly = b.readOnly
  writeOnly : a.writeOnly = b.writeOnly
  deprecated : a.deprecated = b.deprecated
  allOf : List.Forall₂ (RefOr.Rel R) a.allOf b.allOf
  oneOf : List.Forall₂ (RefOr.Rel R) a.oneOf b.oneOf
  anyOf : List.Forall₂ (RefOr.Rel R) a.anyOf b.anyOf
  negated : Option.Rel (RefOr.Rel R) a.negated b.negated
  discriminator : Option.Rel Discriminator.Agrees a.discriminator b.discriminator

/-! ## Fields -/

variable {a b : Schema}

/-- The keys of the form of a schema. -/
def formKeys : List String :=
  ["type", "format", "title", "description", "properties", "required", "items",
    "additionalProperties", "enum", "default", "example", "nullable", "readOnly", "writeOnly",
    "deprecated", "allOf", "oneOf", "anyOf", "not", "discriminator"]

/-- The values in the form of a schema. -/
def formValues (s : Schema) : List Json :=
  [s.type, s.format, s.title, s.description, propertiesForm s.properties, .arr s.required,
    optionalForm s.items, additionalForm s.additional, choicesForm s.choices, s.fallback, s.sample,
    .bool s.nullable, .bool s.readOnly, .bool s.writeOnly, .bool s.deprecated,
    .arr (listForm s.allOf), .arr (listForm s.oneOf), .arr (listForm s.anyOf),
    optionalForm s.negated, discriminatorForm s.discriminator]

theorem form_eq (s : Schema) : s.form = .obj (formKeys.zip s.formValues) := by
  cases s
  rfl

theorem same_iff_formValues : a.same b = true ↔
    List.Forall₂ (fun v w => v.same w = true) a.formValues b.formValues := by
  rw [same, form_eq, form_eq, Json.same_zip_iff (by decide) rfl rfl]

theorem exists_refForm_eq (s : RefOr Schema) : ∃ ms, refForm s = .obj ms := by
  cases s with
  | ref pointer => exact ⟨_, rfl⟩
  | inline s => exact ⟨_, form_eq s⟩

theorem refForm_ne_null (s : RefOr Schema) : refForm s ≠ .null := by
  obtain ⟨ms, h⟩ := exists_refForm_eq s
  simp [h]

theorem not_same_bool_refForm (b : Bool) (s : RefOr Schema) :
    ¬(Json.bool b).same (refForm s) = true := by
  obtain ⟨ms, h⟩ := exists_refForm_eq s
  rw [h]
  nofun

/-- The form of a pointer has a key that no form of a schema has. -/
theorem not_same_refForm_ref_inline (pointer : String) (s : Schema) :
    ¬(refForm (.ref pointer)).same (refForm (.inline s)) = true := by
  rw [refForm, refForm, form_eq, Json.same_obj_iff]
  rintro ⟨hkeys, -⟩
  have hnone : (formKeys.zip s.formValues).lookup "$ref" = none :=
    Json.lookup_zip_eq_none (by decide) _
  have hsome := (hkeys "$ref").1 rfl
  rw [hnone] at hsome
  cases hsome

theorem same_refForm_ref_iff {p q : String} :
    (refForm (.ref p)).same (refForm (.ref q)) = true ↔ p = q := by
  constructor
  · intro h
    have hvalue := (Json.same_obj_iff.1 h).2 "$ref" (.str p) (.str q) rfl rfl
    exact (Json.str.inj (Json.eq_str_of_same hvalue)).symm
  · rintro rfl
    exact Json.same_refl _

theorem same_refForm_iff {s t : RefOr Schema} : (refForm s).same (refForm t) = true ↔
    RefOr.Rel (fun a b => a.same b = true) s t := by
  constructor
  · intro h
    cases s with
    | ref p => cases t with
      | ref q =>
        obtain rfl := same_refForm_ref_iff.1 h
        exact .ref p
      | inline b => exact absurd h (not_same_refForm_ref_inline p b)
    | inline a => cases t with
      | ref q => exact absurd (Json.same_symm h) (not_same_refForm_ref_inline q a)
      | inline b => exact .inline h
  · rintro (p | h)
    · exact Json.same_refl _
    · exact h

theorem same_optionalForm_iff {s t : Option (RefOr Schema)} :
    (optionalForm s).same (optionalForm t) = true ↔
      Option.Rel (RefOr.Rel fun a b => a.same b = true) s t :=
  Json.same_option_iff rfl refForm_ne_null fun _ _ => same_refForm_iff

theorem same_additionalForm_iff {s t : Option (Additional Schema)} :
    (additionalForm s).same (additionalForm t) = true ↔
      Option.Rel (Additional.Rel fun a b => a.same b = true) s t := by
  refine Json.same_option_iff rfl (fun a => ?_) fun a b => ?_
  · cases a with
    | allowed => nofun
    | schema s => exact refForm_ne_null s
  · constructor
    · intro h
      cases a with
      | allowed any => cases b with
        | allowed any' =>
          obtain rfl := Json.same_bool_iff.1 h
          exact .allowed any
        | schema t => exact absurd h (not_same_bool_refForm any t)
      | schema s => cases b with
        | allowed any => exact absurd (Json.same_symm h) (not_same_bool_refForm any s)
        | schema t => exact .schema (same_refForm_iff.1 h)
    · rintro (any | h)
      · exact Json.same_refl _
      · exact same_refForm_iff.2 h

theorem listForm_eq (xs : List (RefOr Schema)) : listForm xs = xs.map refForm := by
  induction xs with
  | nil => rfl
  | cons s rest ih => rw [listForm, ih, List.map_cons]

theorem same_listForm_iff {xs ys : List (RefOr Schema)} :
    (Json.arr (listForm xs)).same (.arr (listForm ys)) = true ↔
      List.Forall₂ (RefOr.Rel fun a b => a.same b = true) xs ys := by
  rw [Json.same_arr_iff, listForm_eq, listForm_eq, List.forall₂_map_left_iff,
    List.forall₂_map_right_iff]
  simp only [same_refForm_iff]

theorem lookup_tableForm (key : String) (ps : List (String × RefOr Schema)) :
    (tableForm ps).lookup key = (ps.lookup key).map refForm := by
  induction ps with
  | nil => rfl
  | cons e rest ih =>
    rw [tableForm, List.lookup_cons, List.lookup_cons, ih]
    split <;> rfl

theorem same_propertiesForm_iff {ps qs : Option (List (String × RefOr Schema))} :
    (propertiesForm ps).same (propertiesForm qs) = true ↔
      Option.Rel (Table.Rel (RefOr.Rel fun a b => a.same b = true)) ps qs := by
  refine Json.same_option_iff rfl nofun fun a b => ?_
  rw [propertiesForm, propertiesForm, Json.same_obj_iff_rel]
  refine forall_congr' fun key => ?_
  rw [lookup_tableForm, lookup_tableForm, option_rel_map_iff]
  simp only [same_refForm_iff]
  rfl

theorem same_choicesForm_iff {xs ys : Option (List Json)} :
    (choicesForm xs).same (choicesForm ys) = true ↔
      Option.Rel (List.Forall₂ Json.Equal) xs ys := by
  refine Json.same_option_iff rfl nofun fun a b => ?_
  rw [choicesForm, choicesForm, Json.same_arr_iff]
  simp only [Json.same_iff_equal]

theorem same_discriminatorForm_iff {x y : Option Discriminator} :
    (discriminatorForm x).same (discriminatorForm y) = true ↔
      Option.Rel Discriminator.Agrees x y := by
  refine Json.same_option_iff rfl nofun fun a b => ?_
  have hform : ∀ d : Discriminator, discriminatorForm (some d) =
      .obj (["propertyName", "mapping"].zip [d.propertyName, .obj d.mapping]) := fun _ => rfl
  rw [hform, hform, Json.same_zip_iff (by decide) rfl rfl]
  simp only [List.forall₂_cons, List.Forall₂.nil, and_true, Json.same_obj_iff_rel,
    Discriminator.agrees_iff]
  simp only [Json.same_iff_equal]
  rfl

/-- Two schemas are the same if they agree field by field, schemas in their fields being the same. -/
theorem same_iff_agrees : a.same b = true ↔ Agrees (fun a b => a.same b = true) a b := by
  rw [same_iff_formValues, agrees_iff]
  simp only [formValues, List.forall₂_cons, List.Forall₂.nil, and_true, same_optionalForm_iff,
    same_additionalForm_iff, same_listForm_iff, same_propertiesForm_iff, same_choicesForm_iff,
    same_discriminatorForm_iff, Json.same_bool_iff]
  simp only [Json.same_arr_iff]
  simp only [Json.same_iff_equal]

/-- **Equality of schemas is an equivalence.** It is reflexive, symmetric and transitive, on schemas as on
the values in them. It compares two schemas field by field: a schema in a field is compared likewise, a
pointer only with a pointer, lists in order, and tables by their keys. Values are compared in the same way,
and numbers by what they are worth, whether they are integers, floating-point numbers or truth values. -/
theorem same_equivalence :
    Equivalence (fun a b : Schema => a.same b = true) ∧
    Equivalence (fun a b : Json => a.same b = true) ∧
    (∀ a b : Schema, a.same b = true ↔ Agrees (fun a b => a.same b = true) a b) ∧
    (∀ a b : Json, a.same b = true ↔ a.Equal b) := by
  refine ⟨⟨same_refl, same_symm, same_trans⟩, ⟨Json.same_refl, Json.same_symm, Json.same_trans⟩, ?_, ?_⟩
  · exact fun a b => same_iff_agrees
  · exact fun a b => Json.same_iff_equal

end Schema

end ApiClient
