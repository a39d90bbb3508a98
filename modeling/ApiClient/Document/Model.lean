import ApiClient.Document.Schema

/-!
# Documents

The parts of a document that describes an interface: its paths with their operations, and the
components that operations point to. Values whose kind is not checked are kept as they are, null
standing for an absent one.
-/

namespace ApiClient

/-! ## Metadata -/

/-- Whom to ask. -/
structure Contact where
  name : Json
  url : Json
  email : Json

/-- The terms of use. -/
structure License where
  name : Json
  url : Json

/-- What a document says about itself. -/
structure Info where
  title : String
  version : String
  description : Json
  termsOfService : Json
  contact : Option Contact
  license : Option License

/-- A variable in the URL of a server. -/
structure ServerVariable where
  fallback : String
  choices : List String
  description : Json

/-- A server of the interface. -/
structure Server where
  url : Json
  description : Json
  substitutions : Table ServerVariable

/-- Documentation elsewhere. -/
structure ExternalDocs where
  url : Json
  description : Json

/-- A tag for operations. -/
structure Tag where
  name : Json
  description : Json
  externalDocs : Option ExternalDocs

/-- Schemes that are needed together, with the scopes of each. -/
abbrev SecurityRequirement := Table (List Json)

/-! ## Contents -/

/-- An example of a value. -/
structure Example where
  summary : Json
  description : Json
  value : Json
  externalValue : Json

mutual

/-- A header of a response or of a part. -/
structure Header where
  description : Json
  required : Bool
  deprecated : Bool
  schema : Option (RefOr Schema)
  content : List (String × MediaType)

/-- A body of one media type. -/
structure MediaType where
  schema : Option (RefOr Schema)
  sample : Json
  examples : List (String × RefOr Example)
  encoding : List (String × Encoding)

/-- How one property of a body is sent. -/
structure Encoding where
  contentType : Json
  headers : List (String × RefOr Header)
  style : Json
  explode : Bool
  allowReserved : Bool

end

/-- A parameter of an operation. -/
structure Parameter where
  name : Json
  location : Json
  description : Json
  required : Bool
  deprecated : Bool
  allowEmptyValue : Bool
  style : Json
  explode : Bool
  allowReserved : Bool
  schema : Option (RefOr Schema)
  content : Table MediaType
  sample : Json

/-- The body of a request. -/
structure RequestBody where
  content : Table MediaType
  description : Json
  required : Bool

/-- A way from a response to another operation. -/
structure Link where
  operationRef : Json
  operationId : Json
  parameters : Table Json
  requestBody : Json
  description : Json
  server : Option Server

/-- A response. -/
structure Response where
  description : Json
  headers : Table (RefOr Header)
  content : Table MediaType
  links : Table (RefOr Link)

/-- The responses of an operation: the one for every other code apart from those with a code. -/
structure Responses where
  fallback : Option (RefOr Response)
  byCode : Table (RefOr Response)

/-! ## Security -/

/-- A way to get a token. -/
structure OAuthFlow where
  scopes : Table Json
  authorizationUrl : Json
  tokenUrl : Json
  refreshUrl : Json

/-- The ways to get a token. -/
structure OAuthFlows where
  implicit : Option OAuthFlow
  password : Option OAuthFlow
  clientCredentials : Option OAuthFlow
  authorizationCode : Option OAuthFlow

/-- A security scheme. -/
structure SecurityScheme where
  type : Json
  description : Json
  name : Json
  location : Json
  scheme : Json
  bearerFormat : Json
  flows : Option OAuthFlows
  openIdConnectUrl : Json

/-! ## Paths -/

/-- The methods of HTTP, in the order in which the operations of a path are visited. -/
inductive Method where
  | get | put | post | delete | options | head | patch | trace
  deriving DecidableEq, Repr

namespace Method

/-- The methods in order. -/
def all : List Method :=
  [get, put, post, delete, options, head, patch, trace]

/-- The key of a method in a document. -/
def key : Method → String
  | get => "get"
  | put => "put"
  | post => "post"
  | delete => "delete"
  | options => "options"
  | head => "head"
  | patch => "patch"
  | trace => "trace"

/-- The method as it is sent. -/
def verb : Method → String
  | get => "GET"
  | put => "PUT"
  | post => "POST"
  | delete => "DELETE"
  | options => "OPTIONS"
  | head => "HEAD"
  | patch => "PATCH"
  | trace => "TRACE"

end Method

mutual

/-- An operation. -/
structure Operation where
  responses : Responses
  tags : List Json
  summary : Json
  description : Json
  externalDocs : Option ExternalDocs
  operationId : Json
  parameters : List (RefOr Parameter)
  requestBody : Option (RefOr RequestBody)
  callbacks : List (String × RefOr Callback)
  deprecated : Bool
  security : Option (List SecurityRequirement)
  servers : List Server

/-- A path with its operations, in the order of the methods. -/
structure PathItem where
  ref : Json
  summary : Json
  description : Json
  operations : List (Method × Operation)
  servers : List Server
  parameters : List (RefOr Parameter)

/-- The requests that an operation makes in turn, by the expression that names their URL. -/
structure Callback where
  expressions : List (String × PathItem)

end

/-! ## The document -/

/-- What operations may point to. -/
structure Components where
  schemas : Table (RefOr Schema) := []
  responses : Table (RefOr Response) := []
  parameters : Table (RefOr Parameter) := []
  examples : Table (RefOr Example) := []
  requestBodies : Table (RefOr RequestBody) := []
  headers : Table (RefOr Header) := []
  securitySchemes : Table (RefOr SecurityScheme) := []
  links : Table (RefOr Link) := []
  callbacks : Table (RefOr Callback) := []

/-- A document. -/
structure Document where
  version : String
  info : Info
  paths : Table PathItem
  servers : List Server
  components : Components
  tags : List Tag
  externalDocs : Option ExternalDocs
  security : List SecurityRequirement

/-- The number of operations under the paths. -/
def Document.operationCount (d : Document) : Nat :=
  (d.paths.flatMap fun e => e.2.operations).length

end ApiClient
