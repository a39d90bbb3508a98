import ApiClient.Document.Field
import ApiClient.Document.Model
import ApiClient.Text.Blank

/-!
# Reading a document

A JSON value as a document. Fields that are not known are passed over; fields that the format
demands have to be there, and what holds other things has to be of the right kind. The first fault
met is reported, and objects are read field by field in a fixed order.
-/

namespace ApiClient.Document

open Json

/-! ## Schemas -/

/-- A discriminator; anything but an object stands for none. -/
def readDiscriminator (place : String) (j : Json) : Read (Option Discriminator) :=
  match j with
  | .obj _ => do
    let propertyName ← required place j "propertyName"
    checkObject (place ++ ".mapping") (j.member "mapping")
    return some { propertyName, mapping := (j.member "mapping").members }
  | _ => .ok none

/-- A schema or a pointer to one. -/
def readSchema (place : String) (j : Json) : Read (RefOr Schema) :=
  refOr place j do
    let properties ← optional (j.member "properties") fun _ => do
      checkObject (place ++ ".properties") (j.member "properties")
      eachMember (j.member "properties").members fun name value h =>
        have := sizeOf_entry_lt h
        readSchema (place ++ ".properties." ++ name) value
    checkArray (place ++ ".required") (j.member "required")
    let items ← optional (j.member "items") fun h =>
      have := sizeOf_member_lt h
      readSchema (place ++ ".items") (j.member "items")
    let additional ← optional (j.member "additionalProperties") fun h =>
      match j.member "additionalProperties" with
      | .bool any => pure (.allowed any)
      | _ => do
        have := sizeOf_member_lt h
        return .schema
          (← readSchema (place ++ ".additionalProperties") (j.member "additionalProperties"))
    checkArray (place ++ ".enum") (j.member "enum")
    let choices :=
      match j.member "enum" with
      | .arr values => some values
      | _ => none
    checkArray (place ++ ".allOf") (j.member "allOf")
    let allOf ← eachItem 0 (j.member "allOf").items fun n value h =>
      have := sizeOf_item_lt h
      readSchema (place ++ ".allOf[" ++ toString n ++ "]") value
    checkArray (place ++ ".oneOf") (j.member "oneOf")
    let oneOf ← eachItem 0 (j.member "oneOf").items fun n value h =>
      have := sizeOf_item_lt h
      readSchema (place ++ ".oneOf[" ++ toString n ++ "]") value
    checkArray (place ++ ".anyOf") (j.member "anyOf")
    let anyOf ← eachItem 0 (j.member "anyOf").items fun n value h =>
      have := sizeOf_item_lt h
      readSchema (place ++ ".anyOf[" ++ toString n ++ "]") value
    let negated ← optional (j.member "not") fun h =>
      have := sizeOf_member_lt h
      readSchema (place ++ ".not") (j.member "not")
    let discriminator ← readDiscriminator (place ++ ".discriminator") (j.member "discriminator")
    return {
      type := j.member "type"
      format := j.member "format"
      title := j.member "title"
      description := j.member "description"
      properties, items, additional, choices, allOf, oneOf, anyOf, negated, discriminator
      required := (j.member "required").items
      fallback := j.member "default"
      sample := j.member "example"
      nullable := flag j "nullable"
      readOnly := flag j "readOnly"
      writeOnly := flag j "writeOnly"
      deprecated := flag j "deprecated" }
  termination_by sizeOf j

/-- The schema of an object that may have one. -/
def schemaField (place : String) (j : Json) : Read (Option (RefOr Schema)) :=
  optional (j.member "schema") fun _ => readSchema (place ++ ".schema") (j.member "schema")

/-! ## Metadata -/

/-- The part of a document that is about the document. -/
def readInfo (j : Json) : Read Info := do
  let contact := j.member "contact"
  let license := j.member "license"
  checkObject "info.contact" contact
  checkObject "info.license" license
  let title ← required "info" j "title"
  let version ← required "info" j "version"
  let license ←
    if license.truth then do
      let name ← required "info.license" license "name"
      pure (some { name, url := license.member "url" })
    else pure none
  return {
    title := title.display
    version := version.display
    description := j.member "description"
    termsOfService := j.member "termsOfService"
    contact :=
      if contact.truth then
        some {
          name := contact.member "name"
          url := contact.member "url"
          email := contact.member "email" }
      else none
    license }

/-- A variable of a server. -/
def readServerVariable (name : String) (j : Json) : Read ServerVariable := do
  let place := "server variable '" ++ name ++ "'"
  checkObject place j
  let fallback ← required name j "default"
  checkArray (place ++ ".enum") (j.member "enum")
  return {
    fallback := fallback.display
    choices := (j.member "enum").items.map display
    description := j.member "description" }

/-- A server. -/
def readServer (j : Json) : Read Server := do
  checkObject "server" j
  checkObject "server.variables" (j.member "variables")
  let substitutions ← eachMember (j.member "variables").members fun name value _ =>
    readServerVariable name value
  let url ← required "server" j "url"
  return { url, description := j.member "description", substitutions }

/-- The servers of an object. -/
def readServers (place : String) (j : Json) : Read (List Server) := do
  checkArray place j
  eachItem 0 j.items fun _ server _ => readServer server

/-- Documentation elsewhere, if there is any. -/
def readExternalDocs (j : Json) : Read (Option ExternalDocs) :=
  optional j fun _ => do
    checkObject "externalDocs" j
    let url ← required "externalDocs" j "url"
    return { url, description := j.member "description" }

/-- A tag. -/
def readTag (j : Json) : Read Tag := do
  checkObject "tag" j
  let name ← required "tag" j "name"
  let externalDocs ← readExternalDocs (j.member "externalDocs")
  return { name, description := j.member "description", externalDocs }

/-- The parts of a value that is gone through: the items of an array, the characters of a text,
the keys of an object. -/
def parts : Json → Except Misfit (List Json)
  | .arr items => .ok items
  | .str s => .ok (s.toList.map fun c => .str (String.singleton c))
  | .obj members => .ok (members.map fun e => .str e.1)
  | _ => .error .kind

/-- Alternatives of schemes, if any are given. -/
def readSecurity (place : String) (j : Json) : Read (Option (List SecurityRequirement)) :=
  optional j fun _ => do
    checkArray place j
    eachItem 0 j.items fun _ requirement _ => do
      checkObject place requirement
      eachMember requirement.members fun _ scopes _ =>
        match parts scopes with
        | .ok scopes => .ok scopes
        | .error misfit => .error (.misfit misfit)

/-! ## Contents -/

/-- An example or a pointer to one. -/
def readExample (place : String) (j : Json) : Read (RefOr Example) :=
  refOr place j <| return {
    summary := j.member "summary"
    description := j.member "description"
    value := j.member "value"
    externalValue := j.member "externalValue" }

/-- A table of bodies by media type. -/
def eachMedia (place : String) (content : Json)
    (read : String → ∀ type media, (type, media) ∈ content.members → Read MediaType) :
    Read (List (String × MediaType)) := do
  checkObject (place ++ ".content") content
  eachMember content.members fun type media h => do
    let place := place ++ " '" ++ type ++ "'"
    checkObject place media
    read place type media h

mutual

/-- A body of one media type. -/
def readMediaType (place : String) (j : Json) : Read MediaType := do
  let schema ← schemaField place j
  checkObject (place ++ ".examples") (j.member "examples")
  let examples ← eachMember (j.member "examples").members fun name value _ =>
    readExample (place ++ ".examples." ++ name) value
  checkObject (place ++ ".encoding") (j.member "encoding")
  let encoding ← eachMember (j.member "encoding").members fun name value h =>
    if value.kind = .dict then do
      checkObject (place ++ ".encoding") (value.member "headers")
      let headers ← eachMember (value.member "headers").members fun header contents hh =>
        have := sizeOf_entry_lt h
        have := sizeOf_entry_lt hh
        readHeader (place ++ ".encoding." ++ name ++ ".headers." ++ header) contents
      return {
        contentType := value.member "contentType"
        headers
        style := value.member "style"
        explode := flagOn value "explode"
        allowReserved := flag value "allowReserved" }
    else .error (.misfit .operation)
  return { schema, sample := j.member "example", examples, encoding }
  termination_by sizeOf j

/-- A header or a pointer to one. -/
def readHeader (place : String) (j : Json) : Read (RefOr Header) :=
  refOr place j do
    let schema ← schemaField place j
    let content ← eachMedia place (j.member "content") fun place _ media h =>
      have := sizeOf_entry_lt h
      readMediaType place media
    return {
      description := j.member "description"
      required := flag j "required"
      deprecated := flag j "deprecated"
      schema, content }
  termination_by sizeOf j

end

/-- A table of bodies by media type. -/
def readContent (place : String) (content : Json) : Read (Table MediaType) :=
  eachMedia place content fun place _ media _ => readMediaType place media

/-- A parameter or a pointer to one. -/
def readParameter (place : String) (j : Json) : Read (RefOr Parameter) :=
  refOr place j do
    let name ← required place j "name"
    let location ← required place j "in"
    let schema ← schemaField place j
    let content ← readContent place (j.member "content")
    return {
      name, location
      description := j.member "description"
      required := flag j "required"
      deprecated := flag j "deprecated"
      allowEmptyValue := flag j "allowEmptyValue"
      style := j.member "style"
      explode := flagOn j "explode"
      allowReserved := flag j "allowReserved"
      schema, content
      sample := j.member "example" }

/-- The parameters of a path or an operation. -/
def readParameters (place : String) (j : Json) : Read (List (RefOr Parameter)) := do
  checkArray (place ++ ".parameters") j
  eachItem 0 j.items fun n value _ =>
    readParameter (place ++ ".parameters[" ++ toString n ++ "]") value

/-- The body of a request or a pointer to one. -/
def readRequestBody (place : String) (j : Json) : Read (RefOr RequestBody) :=
  refOr place j do
    let content ← readContent place (← required place j "content")
    return { content, description := j.member "description", required := flag j "required" }

/-- A link or a pointer to one. -/
def readLink (place : String) (j : Json) : Read (RefOr Link) :=
  refOr place j do
    checkObject (place ++ ".parameters") (j.member "parameters")
    let server ← optional (j.member "server") fun _ => readServer (j.member "server")
    return {
      operationRef := j.member "operationRef"
      operationId := j.member "operationId"
      parameters := (j.member "parameters").members
      requestBody := j.member "requestBody"
      description := j.member "description"
      server }

/-- A response or a pointer to one. -/
def readResponse (place : String) (j : Json) : Read (RefOr Response) :=
  refOr place j do
    checkObject (place ++ ".headers") (j.member "headers")
    let headers ← eachMember (j.member "headers").members fun name value _ =>
      readHeader (place ++ ".headers." ++ name) value
    let content ← readContent place (j.member "content")
    checkObject (place ++ ".links") (j.member "links")
    let links ← eachMember (j.member "links").members fun name value _ =>
      readLink (place ++ ".links." ++ name) value
    return {
      description := (Table.get? j.members "description").getD (.str "")
      headers, content, links }

/-- The responses of an operation. -/
def readResponses (place : String) (j : Json) : Read Responses := do
  let fallback ← optional (j.member "default") fun _ =>
    readResponse (place ++ " default response") (j.member "default")
  let byCode ← eachMember ((fields j).filter (·.1 ≠ "default")) fun code value _ =>
    readResponse (place ++ " response " ++ code) value
  return { fallback, byCode }

/-! ## Paths -/

mutual

/-- The item of a path: an operation per method that has one. -/
def readPathItem (place : String) (j : Json) : Read PathItem := do
  let operations ← readOperations place j Method.all
  let servers ← readServers (place ++ ".servers") (j.member "servers")
  let parameters ← readParameters place (j.member "parameters")
  return {
    ref := j.member "$ref"
    summary := j.member "summary"
    description := j.member "description"
    operations, servers, parameters }
  termination_by (sizeOf j, 1, 0)

/-- The operations of a path for some methods. -/
def readOperations (place : String) (j : Json) (methods : List Method) :
    Read (List (Method × Operation)) :=
  match methods with
  | [] => .ok []
  | m :: rest => do
    let operation ← optional (j.member m.key) fun h => do
      have := sizeOf_member_lt h
      checkObject (m.verb ++ " " ++ place) (j.member m.key)
      readOperation (m.verb ++ " " ++ place) (j.member m.key)
    let more ← readOperations place j rest
    return operation.toList.map (m, ·) ++ more
  termination_by (sizeOf j, 0, methods.length)

/-- An operation. -/
def readOperation (place : String) (j : Json) : Read Operation := do
  let responses ← required place j "responses"
  checkObject (place ++ ".responses") responses
  let responses ← readResponses place responses
  checkArray (place ++ ".tags") (j.member "tags")
  let externalDocs ← readExternalDocs (j.member "externalDocs")
  let parameters ← readParameters place (j.member "parameters")
  let requestBody ← optional (j.member "requestBody") fun _ =>
    readRequestBody (place ++ ".requestBody") (j.member "requestBody")
  checkObject (place ++ ".callbacks") (j.member "callbacks")
  let callbacks ← eachMember (fields (j.member "callbacks")) fun name value h =>
    have := sizeOf_entry_lt (mem_members_of_mem_fields h)
    readCallback (place ++ ".callbacks." ++ name) value
  let security ← readSecurity (place ++ ".security") (j.member "security")
  let servers ← readServers (place ++ ".servers") (j.member "servers")
  return {
    responses
    tags := (j.member "tags").items
    summary := j.member "summary"
    description := j.member "description"
    externalDocs
    operationId := j.member "operationId"
    parameters, requestBody, callbacks
    deprecated := flag j "deprecated"
    security, servers }
  termination_by (sizeOf j, 0, 0)

/-- A callback or a pointer to one. -/
def readCallback (place : String) (j : Json) : Read (RefOr Callback) :=
  refOr place j do
    let expressions ← eachMember (fields j) fun expression value h => do
      have := sizeOf_lt_of_mem_members (mem_members_of_mem_fields h)
      checkObject (place ++ "['" ++ expression ++ "']") value
      readPathItem expression value
    return { expressions }
  termination_by (sizeOf j, 0, 0)

end

/-- The paths of a document, each of which has to begin with a slash. -/
def readPaths (j : Json) : Read (Table PathItem) :=
  eachMember (fields j) fun url value _ =>
    if Text.startsWith "/" url then do
      checkObject ("paths['" ++ url ++ "']") value
      readPathItem url value
    else .error (.relativePath url)

/-! ## Components -/

/-- A flow of tokens, if it is given. -/
def readOAuthFlow (place : String) (j : Json) : Read (Option OAuthFlow) :=
  optional j fun _ => do
    checkObject place j
    let scopes ← required place j "scopes"
    checkObject (place ++ ".scopes") scopes
    return {
      scopes := scopes.members
      authorizationUrl := j.member "authorizationUrl"
      tokenUrl := j.member "tokenUrl"
      refreshUrl := j.member "refreshUrl" }

/-- The flows of a scheme; an object without members stands for none. -/
def readOAuthFlows (place : String) (j : Json) : Read (Option OAuthFlows) :=
  if j.truth then do
    let implicit ← readOAuthFlow (place ++ ".implicit") (j.member "implicit")
    let password ← readOAuthFlow (place ++ ".password") (j.member "password")
    let clientCredentials ←
      readOAuthFlow (place ++ ".clientCredentials") (j.member "clientCredentials")
    let authorizationCode ←
      readOAuthFlow (place ++ ".authorizationCode") (j.member "authorizationCode")
    return some { implicit, password, clientCredentials, authorizationCode }
  else return none

/-- A security scheme or a pointer to one. -/
def readSecurityScheme (place : String) (j : Json) : Read (RefOr SecurityScheme) :=
  refOr place j do
    checkObject (place ++ ".flows") (j.member "flows")
    let type ← required place j "type"
    let flows ← readOAuthFlows (place ++ ".flows") (j.member "flows")
    return {
      type
      description := j.member "description"
      name := j.member "name"
      location := j.member "in"
      scheme := j.member "scheme"
      bearerFormat := j.member "bearerFormat"
      flows
      openIdConnectUrl := j.member "openIdConnectUrl" }

/-- One table of components. -/
def readSection {α : Type} (j : Json) (key : String) (read : String → Json → Read (RefOr α)) :
    Read (Table (RefOr α)) := do
  let place := "components." ++ key
  checkObject place (j.member key)
  eachMember (fields (j.member key)) fun name value _ => read (place ++ "." ++ name) value

/-- The components of a document. -/
def readComponents (j : Json) : Read Components := do
  let schemas ← readSection j "schemas" readSchema
  let responses ← readSection j "responses" readResponse
  let parameters ← readSection j "parameters" readParameter
  let examples ← readSection j "examples" readExample
  let requestBodies ← readSection j "requestBodies" readRequestBody
  let headers ← readSection j "headers" readHeader
  let securitySchemes ← readSection j "securitySchemes" readSecurityScheme
  let links ← readSection j "links" readLink
  let callbacks ← readSection j "callbacks" readCallback
  return {
    schemas, responses, parameters, examples, requestBodies, headers, securitySchemes, links,
    callbacks }

/-! ## The document -/

/-- The place of the outermost object in messages. -/
def rootPlace : String := "the document root"

/-- A value with members. -/
def nonEmptyObject : Json → Bool
  | .obj members => !members.isEmpty
  | _ => false

/-- The document that a value holds. -/
def ofJson (j : Json) : Read Document :=
  if nonEmptyObject j then do
    let version := (← required rootPlace j "openapi").display
    if Text.startsWith "3.0." version then pure () else throw (.unsupportedVersion version)
    let info ← required rootPlace j "info"
    checkObject "info" info
    let info ← readInfo info
    let paths ← required rootPlace j "paths"
    checkObject "paths" paths
    let paths ← readPaths paths
    let servers ← readServers "servers" (j.member "servers")
    checkObject "components" (j.member "components")
    let components ← readComponents (j.member "components")
    checkArray "tags" (j.member "tags")
    let tags ← eachItem 0 (j.member "tags").items fun _ tag _ => readTag tag
    let externalDocs ← readExternalDocs (j.member "externalDocs")
    let security ← readSecurity "security" (j.member "security")
    return {
      version, info, paths, servers, components, tags, externalDocs
      security := security.getD [] }
  else .error .empty

end ApiClient.Document
