import ApiClient.Json.Display
import ApiClient.Json.Misfit

/-!
# Faults of a document

Why a JSON value is not a document that a client can be generated from, with the text of each
cause.
-/

namespace ApiClient

/-- Why a value is not a document. -/
inductive Document.Error where
  /-- There is nothing in it. -/
  | empty
  /-- The version is not one that is understood. -/
  | unsupportedVersion (version : String)
  /-- A field that has to be there is absent or null. -/
  | missingField (key place : String)
  /-- Something other than an object. -/
  | notObject (place : String) (kind : Json.Kind)
  /-- Something other than an array. -/
  | notArray (place : String) (kind : Json.Kind)
  /-- A pointer that is no text. -/
  | pointerKind (kind : Json.Kind)
  /-- A path that does not begin with a slash. -/
  | relativePath (url : String)
  /-- Two paths with the same segments. -/
  | sameRoute (first second : String)
  /-- A parameter without a schema. -/
  | parameterSchema (name : Json)
  /-- A value that is not checked and does not fit. -/
  | misfit (misfit : Json.Misfit)

/-- The text of a fault. -/
def Document.Error.message : Document.Error → String
  | empty => "No specification data loaded"
  | unsupportedVersion version =>
    String.join [
      "Unsupported OpenAPI version '", version, "', only 3.0.x documents are supported"]
  | missingField key place => String.join ["Missing required field '", key, "' at ", place]
  | notObject place kind => String.join ["Expected an object at ", place, ", got ", kind.word]
  | notArray place kind => String.join ["Expected an array at ", place, ", got ", kind.word]
  | pointerKind kind => String.join ["Expected a string $ref, got ", kind.word]
  | relativePath url => String.join ["Path '", url, "' must begin with '/'"]
  | sameRoute first second =>
    String.join ["Paths '", first, "' and '", second, "' describe the same route"]
  | parameterSchema name =>
    String.join ["Parameter '", name.display, "' has neither a schema nor a content schema"]
  | misfit _ => ""

end ApiClient
