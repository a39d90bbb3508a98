import ApiClient.Dialect.Kotlin
import ApiClient.Dialect.Python
import ApiClient.Types.Registry

/-!
# Texts of a client

The text of every part of a client in either dialect.
-/

namespace ApiClient

namespace Dialect

/-- A parameter in the signature of a callable. -/
def renderArgument : Dialect → Argument → String
  | python => Python.renderArgument
  | kotlin => Kotlin.renderArgument

/-- The callable of an operation. -/
def renderEndpoint : Dialect → Endpoint → Except Template.Error String
  | python => Python.renderEndpoint
  | kotlin => Kotlin.renderEndpoint

/-- The scope of a segment. -/
def renderScope : Dialect → Scope → Except Template.Error String
  | python => Python.renderScope
  | kotlin => Kotlin.renderScope

/-- The root file. -/
def renderRoot : Dialect → Root → Except Template.Error String
  | python => Python.renderRoot
  | kotlin => Kotlin.renderRoot

/-- The file of a type. -/
def renderType : Dialect → Record → Json → Except Template.Error String
  | python => Python.renderType
  | kotlin => Kotlin.renderType

end Dialect

/-- A field, ready to be written. -/
def Field.property (f : Field) : Property where
  name := .str f.name
  identifier := .str f.identifier
  type := .str f.type.short
  mentioned := .arr (f.type.named.map .str)
  required := f.required
  description := f.description

/-- A named type, ready to be written. -/
def NamedType.record (t : NamedType) : Record where
  name := .str t.name
  description := t.description
  properties := t.fields.map Field.property

/-- The file of a named type in a namespace. -/
def NamedType.render (t : NamedType) (d : Dialect) (namespaceName : String) :
    Except Template.Error String :=
  d.renderType t.record (.str namespaceName)

end ApiClient
