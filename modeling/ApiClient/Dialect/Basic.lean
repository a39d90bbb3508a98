import ApiClient.Json.Misfit
import ApiClient.Naming.Case
import ApiClient.Json.Basic
import ApiClient.Text.Replace

/-!
# Dialects

The two languages a client is written in, and how each spells names and types. A named type is
spelt by its short name next to the other types and by its qualified name everywhere else.
-/

namespace ApiClient

/-- The language of a client. -/
inductive Dialect where
  | python | kotlin
  deriving DecidableEq, Repr

namespace Dialect

/-- The dialects. -/
def all : List Dialect := [python, kotlin]

/-- The name of a dialect. -/
def name : Dialect → String
  | python => "python"
  | kotlin => "kotlin"

/-- The dialect of a name. -/
def ofName? (name : String) : Option Dialect :=
  all.find? (·.name = name)

/-! ## Files -/

/-- The ending of the files of types. -/
def fileExtension : Dialect → String
  | python => "py"
  | kotlin => "kt"

/-- The file with the operations. -/
def rootFile : Dialect → String
  | python => "api.py"
  | kotlin => "API.kt"

/-- The file with the operations, without its ending. -/
def rootModule : Dialect → String
  | python => "api"
  | kotlin => "API"

/-- The directory of the files of types. -/
def typesDir : String := "schemas"

/-- The file of a type. -/
def typeFile (d : Dialect) (name : String) : String :=
  typesDir ++ "/" ++ name ++ "." ++ d.fileExtension

/-! ## Names -/

/-- The name of a type. -/
def typeName : Dialect → String → String
  | python, name => Naming.escapePythonKeyword (Naming.className name)
  | kotlin, name => Naming.className name

/-- The class name of a segment, or `Root` when nothing of it is left. -/
def scopeStem (segment : String) : String :=
  let name := Naming.className segment
  if name = "" then "Root" else name

/-- The name of the scope for a segment of a URL. -/
def scopeName : Dialect → String → String
  | python, segment => Naming.escapePythonKeyword (scopeStem segment)
  | kotlin, segment => scopeStem segment

/-- The identifier of a field or a parameter. -/
def identifier : Dialect → String → String
  | python, name => Naming.pythonIdentifier name
  | kotlin, name => Naming.escapeKotlinKeyword (Naming.parameterName name)

/-- The text of a name as a document holds it: no text when it counts as false, and a misfit when
it is something else than a text. -/
def nameText (name : Json) : Except Json.Misfit String :=
  if name.truth then
    match name with
    | .str s => .ok s
    | _ => .error .kind
  else .ok ""

/-- The name of a type for a name as a document holds it. -/
def typeNameOf (d : Dialect) (name : Json) : Except Json.Misfit String :=
  (nameText name).map d.typeName

/-- The name of a scope for a segment that may be any value. -/
def scopeNameOf (d : Dialect) (segment : Json) : Except Json.Misfit String :=
  (nameText segment).map d.scopeName

/-- The identifier for a name as a document holds it. -/
def identifierOf (d : Dialect) (name : Json) : Except Json.Misfit String :=
  (nameText name).map d.identifier

/-! ## Types -/

/-- The type of an object that is not looked into. -/
def unitType : Dialect → String
  | python => "dict[str, Any]"
  | kotlin => "Unit"

/-- The type of an operation that answers nothing. -/
def noContentType : Dialect → String
  | python => "None"
  | kotlin => "Unit"

/-- Whether a format is the one named. -/
def isFormat (format : Json) (name : String) : Bool :=
  match format with
  | .str s => s = name
  | _ => false

/-- The type of a scalar. -/
def scalarType : Dialect → String → Json → Option String
  | python, "string", format => some (if isFormat format "binary" then "bytes" else "str")
  | python, "integer", _ => some "int"
  | python, "number", _ => some "float"
  | python, "boolean", _ => some "bool"
  | kotlin, "string", format =>
    some (if isFormat format "binary" then "ByteArray" else "String")
  | kotlin, "integer", format => some (if isFormat format "int64" then "Long" else "Int")
  | kotlin, "number", format => some (if isFormat format "float" then "Float" else "Double")
  | kotlin, "boolean", _ => some "Boolean"
  | _, _, _ => none

/-- The type of a scalar for a value that may be no text. Python clients look scalars up, which
takes no array and no object. -/
def scalarTypeOf (d : Dialect) (type format : Json) : Except Json.Misfit (Option String) :=
  match d, type with
  | _, .str type => .ok (d.scalarType type format)
  | python, .arr _ | python, .obj _ => .error .kind
  | _, _ => .ok none

/-- The type of a list. -/
def sequenceType : Dialect → String → String
  | python, item => "list[" ++ item ++ "]"
  | kotlin, item => "List<" ++ item ++ ">"

/-- The type of a table with texts for keys. -/
def mapType : Dialect → String → String
  | python, value => "dict[str, " ++ value ++ "]"
  | kotlin, value => "Map<String, " ++ value ++ ">"

/-- The type of a value that may be absent. -/
def optionalType : Dialect → String → String
  | python, type =>
    if type = "None" || Text.startsWith "Optional[" type then type
    else "Optional[" ++ type ++ "]"
  | kotlin, type => if Text.endsWith "?" type then type else type ++ "?"

/-- The type of a value that may be absent, for a type that may be any value. -/
def optionalTypeOf (d : Dialect) : Json → Except Json.Misfit String
  | .str type => .ok (d.optionalType type)
  | _ => .error .operation

/-- The name of a type outside the directory of types. -/
def qualify (namespaceName name : String) : String :=
  namespaceName ++ "." ++ typesDir ++ "." ++ name

end Dialect

end ApiClient
