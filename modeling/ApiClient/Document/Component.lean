import ApiClient.Document.Model

/-!
# Components

The nine sections of the components of a document, and a component of any of them as one type.
-/

namespace ApiClient

/-- The sections of components. -/
inductive Section where
  | schemas | responses | parameters | examples | requestBodies | headers | securitySchemes
  | links | callbacks
  deriving DecidableEq, Repr

namespace Section

/-- All sections. -/
def all : List Section :=
  [schemas, responses, parameters, examples, requestBodies, headers, securitySchemes, links,
    callbacks]

/-- The key of a section in a document. -/
def key : Section → String
  | schemas => "schemas"
  | responses => "responses"
  | parameters => "parameters"
  | examples => "examples"
  | requestBodies => "requestBodies"
  | headers => "headers"
  | securitySchemes => "securitySchemes"
  | links => "links"
  | callbacks => "callbacks"

/-- The word for an object of a section. -/
def word : Section → String
  | schemas => "Schema"
  | responses => "Response"
  | parameters => "Parameter"
  | examples => "Example"
  | requestBodies => "RequestBody"
  | headers => "Header"
  | securitySchemes => "SecurityScheme"
  | links => "Link"
  | callbacks => "Callback"

/-- The section under a key. -/
def ofKey? (key : String) : Option Section :=
  all.find? (·.key = key)

end Section

/-- An object of one of the sections. -/
inductive Component where
  | schema (value : Schema)
  | response (value : Response)
  | parameter (value : Parameter)
  | sample (value : Example)
  | requestBody (value : RequestBody)
  | header (value : Header)
  | securityScheme (value : SecurityScheme)
  | link (value : Link)
  | callback (value : Callback)

/-- The section that objects of this type are listed in. -/
def Component.home : Component → Section
  | schema _ => .schemas
  | response _ => .responses
  | parameter _ => .parameters
  | sample _ => .examples
  | requestBody _ => .requestBodies
  | header _ => .headers
  | securityScheme _ => .securitySchemes
  | link _ => .links
  | callback _ => .callbacks

/-- What holds of an object holds of it in place of a pointer. -/
def RefOr.map {α β : Type} (f : α → β) : RefOr α → RefOr β
  | ref pointer => ref pointer
  | inline value => inline (f value)

/-- The pointer, if it is one. -/
def RefOr.pointer? {α : Type} : RefOr α → Option String
  | ref pointer => some pointer
  | inline _ => none

/-- The entries of a table as components. -/
def Components.entries {α : Type} (make : α → Component) (t : Table (RefOr α)) :
    Table (RefOr Component) :=
  List.map (fun e => (e.1, e.2.map make)) t

/-- The table of a section. -/
def Components.table (c : Components) : Section → Table (RefOr Component)
  | .schemas => entries .schema c.schemas
  | .responses => entries .response c.responses
  | .parameters => entries .parameter c.parameters
  | .examples => entries .sample c.examples
  | .requestBodies => entries .requestBody c.requestBodies
  | .headers => entries .header c.headers
  | .securitySchemes => entries .securityScheme c.securitySchemes
  | .links => entries .link c.links
  | .callbacks => entries .callback c.callbacks

/-- The pointers that stand in the place of components. -/
def Components.pointers (c : Components) : List String :=
  Section.all.flatMap fun s => (c.table s).filterMap fun e => e.2.pointer?

end ApiClient
