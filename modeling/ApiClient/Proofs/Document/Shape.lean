import ApiClient.Document.Reading

/-!
# Shapes of values

What is read from a value of a document: the fields of an object of a fixed kind, the items of a list,
the entries of a table. A field that is not listed (`Fixed.fields`) is unknown, and is passed over, and so
is an extension in a table that may have some. `Edited` relates two values that differ in such things, and
in the order of the fields, at any number of places and at any depth.
-/

namespace ApiClient.Document

open Json

/-- The kinds of objects that are read field by field. -/
inductive Fixed where
  | root | info | server | serverVariable | pathItem | operation | parameter | requestBody | response
  | mediaType | encoding | header | sample | link | schema | discriminator | components
  | securityScheme | oauthFlow | tag | externalDocs
  deriving DecidableEq

/-- What is read from a value. -/
inductive Shape where
  /-- All of it, as it is. -/
  | whole
  /-- The fields of an object. -/
  | object (kind : Fixed)
  | list (item : Shape)
  /-- All entries of an object, in order. -/
  | table (entry : Shape)
  /-- The entries of an object that belong to no extension, in order. -/
  | extensible (entry : Shape)
  deriving DecidableEq

namespace Fixed

/-- Fields that are read as they are. -/
def plain (keys : List String) : Table Shape :=
  keys.map (·, .whole)

/-- The fields of an object, with what is read from each. The contact and the license of a document and
the flows of a scheme are there unless they are empty, so what they hold counts. -/
def fields : Fixed → Table Shape
  | root => plain ["openapi", "security"] ++
    [("info", .object info), ("paths", .extensible (.object pathItem)),
      ("servers", .list (.object server)), ("components", .object components),
      ("tags", .list (.object tag)), ("externalDocs", .object externalDocs)]
  | info => plain ["title", "version", "description", "termsOfService", "contact", "license"]
  | server => plain ["url", "description"] ++ [("variables", .table (.object serverVariable))]
  | serverVariable => plain ["default", "enum", "description"]
  | pathItem => plain ["$ref", "summary", "description"] ++
    Method.all.map (fun m => (m.key, .object operation)) ++
    [("servers", .list (.object server)), ("parameters", .list (.object parameter))]
  | operation => plain
      ["tags", "summary", "description", "operationId", "deprecated", "security"] ++
    [("responses", .extensible (.object response)), ("externalDocs", .object externalDocs),
      ("parameters", .list (.object parameter)), ("requestBody", .object requestBody),
      ("callbacks", .extensible (.extensible (.object pathItem))), ("servers", .list (.object server))]
  | parameter => plain
      ["$ref", "name", "in", "description", "required", "deprecated", "allowEmptyValue", "style",
        "explode", "allowReserved", "example"] ++
    [("schema", .object schema), ("content", .table (.object mediaType))]
  | requestBody => plain ["$ref", "description", "required"] ++
    [("content", .table (.object mediaType))]
  | response => plain ["$ref", "description"] ++
    [("headers", .table (.object header)), ("content", .table (.object mediaType)),
      ("links", .table (.object link))]
  | mediaType => plain ["example"] ++
    [("schema", .object schema), ("examples", .table (.object sample)),
      ("encoding", .table (.object encoding))]
  | encoding => plain ["contentType", "style", "explode", "allowReserved"] ++
    [("headers", .table (.object header))]
  | header => plain ["$ref", "description", "required", "deprecated"] ++
    [("schema", .object schema), ("content", .table (.object mediaType))]
  | sample => plain ["$ref", "summary", "description", "value", "externalValue"]
  | link => plain
      ["$ref", "operationRef", "operationId", "parameters", "requestBody", "description"] ++
    [("server", .object server)]
  | schema => plain
      ["$ref", "type", "format", "title", "description", "required", "enum", "default", "example",
        "nullable", "readOnly", "writeOnly", "deprecated"] ++
    [("properties", .table (.object schema)), ("items", .object schema),
      ("additionalProperties", .object schema), ("allOf", .list (.object schema)),
      ("oneOf", .list (.object schema)), ("anyOf", .list (.object schema)), ("not", .object schema),
      ("discriminator", .object discriminator)]
  | discriminator => plain ["propertyName", "mapping"]
  | components =>
    [("schemas", .extensible (.object schema)), ("responses", .extensible (.object response)),
      ("parameters", .extensible (.object parameter)), ("examples", .extensible (.object sample)),
      ("requestBodies", .extensible (.object requestBody)),
      ("headers", .extensible (.object header)),
      ("securitySchemes", .extensible (.object securityScheme)),
      ("links", .extensible (.object link)),
      ("callbacks", .extensible (.extensible (.object pathItem)))]
  | securityScheme => plain
      ["$ref", "type", "description", "name", "in", "scheme", "bearerFormat", "openIdConnectUrl"] ++
    [("flows", .table (.object oauthFlow))]
  | oauthFlow => plain ["scopes", "authorizationUrl", "tokenUrl", "refreshUrl"]
  | tag => plain ["name", "description"] ++ [("externalDocs", .object externalDocs)]
  | externalDocs => plain ["url", "description"]

theorem distinct_fields (k : Fixed) : k.fields.Distinct := by
  rw [Table.Distinct]
  cases k <;> decide

end Fixed

/-- The second value is the first after edits that leave alone what is read from it. -/
inductive Edited : Shape → Json → Json → Prop
  | refl (s : Shape) (j : Json) : Edited s j j
  | symm {s : Shape} {j j' : Json} (h : Edited s j j') : Edited s j' j
  | trans {s : Shape} {j j' j'' : Json} (h : Edited s j j') (h' : Edited s j' j'') : Edited s j j''
  /-- The fields in another order. -/
  | reorder {k : Fixed} {m m' : Table Json} (hdistinct : m.Distinct) (hperm : List.Perm m m') :
      Edited (.object k) (.obj m) (.obj m')
  /-- A field that is unknown. -/
  | unknown {k : Fixed} {before after : Table Json} {key : String} (value : Json)
      (hkey : key ∉ k.fields.keys) :
      Edited (.object k) (.obj (before ++ after)) (.obj (before ++ (key, value) :: after))
  /-- An extension of a table. -/
  | extension {s : Shape} {before after : Table Json} {key : String} (value : Json)
      (hkey : isExtension key = true) :
      Edited (.extensible s) (.obj (before ++ after)) (.obj (before ++ (key, value) :: after))
  /-- Edits within a field. -/
  | field {k : Fixed} {s : Shape} {before after : Table Json} {key : String} {value value' : Json}
      (hfield : (key, s) ∈ k.fields) (h : Edited s value value') :
      Edited (.object k) (.obj (before ++ (key, value) :: after))
        (.obj (before ++ (key, value') :: after))
  /-- Edits within an item. -/
  | item {s : Shape} {before after : List Json} {value value' : Json} (h : Edited s value value') :
      Edited (.list s) (.arr (before ++ value :: after)) (.arr (before ++ value' :: after))
  /-- Edits within an entry. -/
  | entry {s : Shape} {before after : Table Json} {key : String} {value value' : Json}
      (h : Edited s value value') :
      Edited (.table s) (.obj (before ++ (key, value) :: after))
        (.obj (before ++ (key, value') :: after))
  /-- Edits within an entry of a table that may have extensions. -/
  | extensibleEntry {s : Shape} {before after : Table Json} {key : String} {value value' : Json}
      (h : Edited s value value') :
      Edited (.extensible s) (.obj (before ++ (key, value) :: after))
        (.obj (before ++ (key, value') :: after))

end ApiClient.Document
