import ApiClient.Json.Display

/-!
# Schemas without a type

Why a schema has no type in a client, with the text of each cause.
-/

namespace ApiClient

/-- Why a schema has no type. -/
inductive Types.Error where
  /-- An object with properties has no name. -/
  | nameless
  /-- Other properties are allowed or forbidden, where their schema was needed. -/
  | booleanAdditional
  /-- The type is none of the scalars. -/
  | unknownPrimitive (type : Json)
  /-- An object says nothing about its properties. -/
  | shapelessObject
  /-- An array says nothing about its items. -/
  | shapelessArray
  /-- A list or a table contains itself without a named type in between. -/
  | endless
  deriving Inhabited

/-- The text of a cause. -/
def Types.Error.message : Types.Error → String
  | nameless =>
    "Object schema with properties needs a name: reference it from components or nest it in a named type"
  | booleanAdditional =>
    "Boolean supplied for 'additionalProperties', where a schema was expected"
  | unknownPrimitive type => String.join ["Unknown primitive type '", type.display, "'"]
  | shapelessObject =>
    "Schema is of type 'object' but no 'properties' or 'additionalProperties' were supplied"
  | shapelessArray => "Schema is of type 'array' but no 'items' were supplied"
  | endless => "Schema contains itself without a named type in between"

end ApiClient
