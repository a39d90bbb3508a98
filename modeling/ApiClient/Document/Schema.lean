import ApiClient.Json.Equality

/-!
# Schemas

A schema of a document, as far as a client depends on it. Values whose kind is not checked when a
document is read are kept as they are, null standing for an absent one. Where a document may point
to a component instead of giving an object, `RefOr` holds either.

Two schemas are the same when their JSON forms are (`Schema.same`): field by field, numbers by
value, properties and other tables in any order.
-/

namespace ApiClient

/-- A pointer to a component, or the object itself. -/
inductive RefOr (α : Type) where
  | ref (pointer : String)
  | inline (value : α)

/-- What tells the alternatives of a schema apart. -/
structure Discriminator where
  propertyName : Json
  mapping : Table Json

/-- What is said about the properties of an object that have no schema of their own: whether there
may be any, or the schema they have. -/
inductive Additional (α : Type) where
  | allowed (any : Bool)
  | schema (schema : RefOr α)

/-- A schema. -/
structure Schema where
  type : Json
  format : Json
  title : Json
  description : Json
  properties : Option (List (String × RefOr Schema))
  required : List Json
  items : Option (RefOr Schema)
  additional : Option (Additional Schema)
  choices : Option (List Json)
  fallback : Json
  sample : Json
  nullable : Bool
  readOnly : Bool
  writeOnly : Bool
  deprecated : Bool
  allOf : List (RefOr Schema)
  oneOf : List (RefOr Schema)
  anyOf : List (RefOr Schema)
  negated : Option (RefOr Schema)
  discriminator : Option Discriminator

namespace Schema

/-! ## JSON form -/

/-- The form of a discriminator. -/
def discriminatorForm : Option Discriminator → Json
  | none => .null
  | some d => .obj [("propertyName", d.propertyName), ("mapping", .obj d.mapping)]

/-- The form of an optional list of values. -/
def choicesForm : Option (List Json) → Json
  | none => .null
  | some values => .arr values

mutual

/-- A schema as an object with one member per field. -/
def form : Schema → Json
  | ⟨type, format, title, description, properties, required, items, additional, choices, fallback,
      sample, nullable, readOnly, writeOnly, deprecated, allOf, oneOf, anyOf, negated,
      discriminator⟩ =>
    .obj
      [("type", type), ("format", format), ("title", title), ("description", description),
        ("properties", propertiesForm properties), ("required", .arr required),
        ("items", optionalForm items), ("additionalProperties", additionalForm additional),
        ("enum", choicesForm choices), ("default", fallback), ("example", sample),
        ("nullable", .bool nullable), ("readOnly", .bool readOnly),
        ("writeOnly", .bool writeOnly), ("deprecated", .bool deprecated),
        ("allOf", .arr (listForm allOf)), ("oneOf", .arr (listForm oneOf)),
        ("anyOf", .arr (listForm anyOf)), ("not", optionalForm negated),
        ("discriminator", discriminatorForm discriminator)]

/-- A pointer as an object with the pointer alone. -/
def refForm : RefOr Schema → Json
  | .ref pointer => .obj [("$ref", .str pointer)]
  | .inline schema => form schema

/-- The form of a schema that may be absent. -/
def optionalForm : Option (RefOr Schema) → Json
  | none => .null
  | some schema => refForm schema

/-- The form of what is said about other properties. -/
def additionalForm : Option (Additional Schema) → Json
  | none => .null
  | some (.allowed any) => .bool any
  | some (.schema schema) => refForm schema

/-- The forms of a list of schemas. -/
def listForm : List (RefOr Schema) → List Json
  | [] => []
  | schema :: rest => refForm schema :: listForm rest

/-- The form of the properties. -/
def propertiesForm : Option (List (String × RefOr Schema)) → Json
  | none => .null
  | some properties => .obj (tableForm properties)

/-- The forms of a table of schemas. -/
def tableForm : List (String × RefOr Schema) → List (String × Json)
  | [] => []
  | (name, schema) :: rest => (name, refForm schema) :: tableForm rest

end

/-- Equality of schemas. -/
def same (a b : Schema) : Bool :=
  a.form.same b.form

end Schema

end ApiClient
