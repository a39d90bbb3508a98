import ApiClient.Dialect.Basic
import ApiClient.Document.Schema
import ApiClient.Naming.Fresh

/-!
# The registry of types

The named types of a client in the order of their registration. A type is registered before its
fields are known, so that schemas which contain themselves find it, and gets its fields one after
another.
-/

namespace ApiClient

/-- The spelling of a type: next to the named types, anywhere else, and the named types it
mentions. -/
structure Spelling where
  short : String
  qualified : String
  named : List String
  deriving DecidableEq, Repr

/-- What a schema says about its type: its description, or else its title. -/
def Schema.about (s : Schema) : Json :=
  if s.description.truth then s.description else s.title

/-- A type without a name, spelt the same everywhere. -/
def Spelling.plain (type : String) : Spelling := ⟨type, type, []⟩

/-- The same change to both spellings. -/
def Spelling.map (f : String → String) (s : Spelling) : Spelling :=
  { s with short := f s.short, qualified := f s.qualified }

/-- A property of a named type. -/
structure Field where
  name : String
  identifier : String
  type : Spelling
  required : Bool
  description : Json

/-- An object with properties, which has a file of its own. -/
structure NamedType where
  name : String
  qualified : String
  schema : Schema
  fields : List Field

namespace NamedType

/-- The spelling of a named type. -/
def spelling (t : NamedType) : Spelling :=
  ⟨t.name, t.qualified, [t.name]⟩

/-- What the schema says about the type. -/
def description (t : NamedType) : Json :=
  t.schema.about

/-- The other named types that the fields mention, in the order of their first use. -/
def references (t : NamedType) : List String :=
  Naming.firstUses (· = ·) ((t.fields.flatMap (·.type.named)).filter (· ≠ t.name))

end NamedType

/-- The named types in the order of their registration. -/
abbrev Registry := List NamedType

namespace Registry

/-- The type of a name. -/
def find (r : Registry) (name : String) : Option NamedType :=
  List.find? (·.name = name) r

/-- The names of the types. -/
def names (r : Registry) : List String :=
  List.map NamedType.name r

/-- Whether a type has this name. -/
def contains (r : Registry) (name : String) : Bool :=
  (r.find name).isSome

/-- Puts a type at the end. -/
def add (r : Registry) (t : NamedType) : Registry :=
  List.append r [t]

/-- Gives the type of a name one more field. -/
def addField (r : Registry) (name : String) (f : Field) : Registry :=
  List.map (fun t => if t.name = name then { t with fields := t.fields ++ [f] } else t) r

end Registry

end ApiClient
