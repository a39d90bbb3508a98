import ApiClient.Dialect.Url
import ApiClient.Json.Element
import ApiClient.Naming.Fresh
import ApiClient.Template.Basic

/-!
# Parts of a client

What the text of a client is made of: parameters, endpoints, scopes, the root, and types with their
properties. Values that nothing has checked are kept as JSON values; the templates check them.
-/

namespace ApiClient

/-- A parameter of a callable. The type says already whether the value may be left out. -/
structure Argument where
  name : Json
  identifier : Json
  location : Json
  type : String
  required : Bool

/-- The location of the body of a request. -/
def Argument.bodyLocation : String := "body"

/-- Whether an argument is sent in a place. -/
def Argument.isIn (a : Argument) (location : String) : Bool :=
  a.location.same (.str location)

/-- An operation, ready to be written as a callable. -/
structure Endpoint where
  verb : String
  url : String
  urlExpression : Json
  returnType : Json
  arguments : List Argument := []
  summary : Json := .null
  deprecated : Bool := false

namespace Endpoint

/-- The name of the callable. -/
def name (e : Endpoint) : String :=
  Text.toLower e.verb

/-- The arguments that are sent in a place. -/
def located (e : Endpoint) (location : String) : List Argument :=
  e.arguments.filter (·.isIn location)

/-- The body of the request. -/
def body (e : Endpoint) : Option Argument :=
  (e.located Argument.bodyLocation).head?

/-- The summary, with a word behind it when the operation is deprecated. -/
def doc (e : Endpoint) (word : String) : Json :=
  if e.deprecated then
    .str (if e.summary.truth then e.summary.display ++ "\n\n" ++ word else word)
  else e.summary

end Endpoint

/-- A segment of a URL with its callables and the scopes below it, both written already. -/
structure Scope where
  name : Json
  url : Json := .null
  functions : Json := .arr []
  children : Json := .arr []

/-- The conditions that the templates of scopes ask for. -/
def Scope.conditions (s : Scope) : Table Json :=
  let isEndpoint := s.functions.truth
  let hasChildren := s.children.truth
  [("has_url", .bool (s.url ≠ .null)),
    ("is_endpoint", .bool isEndpoint),
    ("space", .bool (isEndpoint && hasChildren)),
    ("has_children", .bool hasChildren),
    ("is_empty", .bool (!isEndpoint && !hasChildren))]

/-- What the root file says about the document. -/
structure Root where
  namespaceName : Json
  title : Json
  version : Json
  description : Json
  servers : Json
  scope : Scope
  hasTypes : Json

/-- The URL of the first server, empty when there is none. -/
def Root.baseUrl (r : Root) : Except Json.Misfit Json :=
  if r.servers.truth then
    match r.servers with
    | .arr items => .ok (items.head?.getD .null)
    | .str s => .ok (.str (String.ofList (s.toList.take 1)))
    | .obj _ => .error .noEntry
    | _ => .error .kind
  else .ok (.str "")

/-- A property of a type, ready to be written: the spelling of its type next to the other types,
and the types that the spelling mentions. -/
structure Property where
  name : Json
  identifier : Json
  type : Json
  mentioned : Json
  required : Bool
  description : Json := .null

/-- A type with a name, ready to be written. -/
structure Record where
  name : Json
  description : Json
  properties : List Property

namespace Record

/-- What the properties mention, one after another. -/
def mentions : List Property → Except Json.Misfit (List Json)
  | [] => .ok []
  | p :: rest => do
    let mentioned ← p.mentioned.elements
    let more ← mentions rest
    return mentioned ++ more

/-- The other types that the properties mention, in the order of their first use. -/
def references (r : Record) : Except Json.Misfit (List Json) := do
  let others := (← mentions r.properties).filter fun name => !name.same r.name
  if others.all Json.isKey then return Naming.firstUses Json.same others else throw .kind

end Record

/-! ## Declarations of templates -/

namespace Template

/-- A formatter for texts. -/
def ofText (f : String → Except Json.Misfit String) : Json → Except Json.Misfit String
  | .str s => f s
  | _ => .error .operation

/-- A placeholder for a list of texts with `separator` between them. -/
def linesDeclaration (name separator : String) : Declaration :=
  { name, type := some (.one .list), format := joined separator }

/-- A placeholder for a text that takes its line along when it is absent. -/
def docDeclaration (name : String) (format : Json → Except Json.Misfit String) : Declaration :=
  { name, format, nullable := true, wholeLine := true }

end Template

end ApiClient
