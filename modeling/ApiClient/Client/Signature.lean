import ApiClient.Client.Draft

/-!
# Signatures

The endpoint of an operation: its parameters, those of its path first unless the operation gives
one of the same name and place, then the body; the expression for its URL; and the type of its
first response that reports success. Required parameters come first, and every parameter has an
identifier of its own.
-/

namespace ApiClient.Signature

open Drafting

/-- The media type that is preferred. -/
def jsonMedia : String := "application/json"

/-- The body that is chosen among several: that in JSON, or else the first. -/
def preferredMedia (content : Table MediaType) : Option MediaType :=
  match content.get? jsonMedia with
  | some media => some media
  | none => content.head?.map Prod.snd

/-- The object that `value` is or points to, which is to be one of a section. -/
def followed {α : Type} (r : Resolver) (home : Section) (take : Component → Option α) :
    RefOr α → Resolving α
  | .inline value => return value
  | .ref pointer => do
    let chain := Pointer.follow r.components (some [home]) pointer
    Resolver.record (chain.steps.map fun step => ⟨.debug, .pointers, "Resolved " ++ step⟩)
    match chain.outcome with
    | .error e => Resolver.fail (.pointer e)
    | .ok (_, found) =>
      match take found with
      | some value => return value
      | none => Resolver.fail (.pointer (.wrongKind pointer found.home))

/-! ## Parameters -/

/-- Whether two parameters have the same name and place. -/
def sameKey (p q : Parameter) : Bool :=
  p.name.same q.name && p.location.same q.location

/-- Puts a parameter in the place of one with the same name and place, or at the end. -/
def putParameter (p : Parameter) : List Parameter → List Parameter
  | [] => [p]
  | q :: rest => if sameKey q p then p :: rest else q :: putParameter p rest

/-- The parameters of a list after those that are merged already. -/
def mergeParameters (r : Resolver) (merged : List Parameter) :
    List (RefOr Parameter) → Resolving (List Parameter)
  | [] => return merged
  | value :: rest => do
    let p ← followed r .parameters
      (fun | .parameter p => some p
           | _ => none)
      value
    if p.name.isKey && p.location.isKey then mergeParameters r (putParameter p merged) rest
    else Resolver.fail (.misfit .kind)

/-- The spelling of a type where the value may be left out unless it is required. -/
def spelled (r : Resolver) (type : Spelling) (required : Bool) : String :=
  if required then type.qualified else r.dialect.optionalType type.qualified

/-- The schema of a parameter: its own, or that of the body it is sent as. -/
def parameterSchema (p : Parameter) : Option (RefOr Schema) :=
  match p.schema with
  | some schema => some schema
  | none => (preferredMedia p.content).bind (·.schema)

/-- A parameter of a callable. -/
def argument (r : Resolver) (base : String) (p : Parameter) : Resolving Argument :=
  match parameterSchema p with
  | none => Resolver.fail (.document (.parameterSchema p.name))
  | some schema => do
    let type ← Resolver.within ("parameter '" ++ p.name.display ++ "'")
      (r.resolve schema none (some base) p.name)
    let required := p.required || p.location.same (.str "path")
    match r.dialect.identifierOf p.name with
    | .error e => Resolver.fail (.misfit e)
    | .ok identifier =>
      return {
        name := p.name
        identifier := .str identifier
        location := p.location
        type := spelled r type required
        required }

/-- The parameters of a callable in order. -/
def eachArgument (r : Resolver) (base : String) : List Parameter → Resolving (List Argument)
  | [] => return []
  | p :: rest => do
    let a ← argument r base p
    let more ← eachArgument r base rest
    return a :: more

/-- The name of the body among the parameters. -/
def bodyName : String := "body"

/-- The body of the request as a parameter, if there is one with content. -/
def bodyArgument (r : Resolver) (base : String) (o : Operation) : Resolving (Option Argument) :=
  match o.requestBody with
  | none => return none
  | some value => do
    let body ← followed r .requestBodies
      (fun | .requestBody b => some b
           | _ => none)
      value
    match preferredMedia body.content with
    | none => return none
    | some media =>
      let type ←
        match media.schema with
        | none => pure (Spelling.plain r.dialect.unitType)
        | some schema =>
          Resolver.within "request body" (r.resolve schema (some (base ++ "Request")))
      return some {
        name := .str bodyName
        identifier := .str bodyName
        location := .str Argument.bodyLocation
        type := spelled r type body.required
        required := body.required }

/-! ## Identifiers -/

/-- The identifier that is tried for an argument after `n` others: its own, then those of its name
with the numbers from two on. -/
def triedIdentifier (d : Dialect) (a : Argument) : Nat → String
  | 0 => a.identifier.display
  | n + 1 => d.identifier (a.name.display ++ toString (n + 2))

/-- Gives every argument an identifier that no earlier one has. -/
def distinctFrom (d : Dialect) (taken : List String) : List Argument → List Argument
  | [] => []
  | a :: rest =>
    let n := Naming.firstIndex (fun n => !taken.contains (triedIdentifier d a n))
      (taken.length + 2)
    let identifier := triedIdentifier d a n
    { a with identifier := .str identifier } :: distinctFrom d (identifier :: taken) rest

/-- The arguments with identifiers of their own, the required ones first. -/
def arranged (d : Dialect) (arguments : List Argument) : List Argument :=
  let distinct := distinctFrom d [] arguments
  distinct.filter (·.required) ++ distinct.filter (!·.required)

/-- The identifiers of the parameters in the path. -/
def pathIdentifiers (arguments : List Argument) : Dialect.Identifiers :=
  (arguments.filter (·.isIn "path")).map fun a => (a.name, a.identifier.display)

/-! ## Responses -/

/-- Whether a code reports success. -/
def isSuccess (code : String) : Bool :=
  Text.startsWith "2" code

/-- The type of the first response that reports success. -/
def responseType (r : Resolver) (base : String) (o : Operation) : Resolving String :=
  match o.responses.byCode.find? fun e => isSuccess e.1 with
  | none => return r.dialect.noContentType
  | some (_, value) => do
    let response ← followed r .responses
      (fun | .response x => some x
           | _ => none)
      value
    match response.content.head?.bind (·.2.schema) with
    | none => return r.dialect.noContentType
    | some schema => do
      let type ← Resolver.within "response" (r.resolve schema (some (base ++ "Response")))
      return type.qualified

/-! ## Endpoints -/

/-- The name that the types of an operation are named after: its own, or that of its scopes and its
method. -/
def baseName (o : Operation) (method : Method) (scopes : List String) :
    Except Json.Misfit String :=
  if o.operationId.truth then (Dialect.nameText o.operationId).map Naming.className
  else .ok (String.join scopes ++ Naming.className method.key)

/-- The endpoint of an operation. -/
def endpoint (r : Resolver) (item : PathItem) (url : String) (method : Method) (o : Operation)
    (scopes : List String) : Resolving Endpoint := do
  match baseName o method scopes with
  | .error e => Resolver.fail (.misfit e)
  | .ok base =>
    let parameters ← mergeParameters r [] (item.parameters ++ o.parameters)
    let arguments ← eachArgument r base parameters
    let body ← bodyArgument r base o
    let arguments := arranged r.dialect (arguments ++ body.toList)
    let type ← responseType r base o
    return {
      verb := method.key
      url
      urlExpression := .str (r.dialect.urlExpression url (pathIdentifiers arguments))
      returnType := .str (r.dialect.optionalType type)
      arguments
      summary := if o.summary.truth then o.summary else o.description
      deprecated := o.deprecated }

end ApiClient.Signature
