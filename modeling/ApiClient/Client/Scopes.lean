import ApiClient.Client.Signature
import ApiClient.Route

/-!
# Scopes

Every node of the tree of routes becomes a scope with a callable per operation and the scopes of
the segments below it. Within a scope no two scopes have the same name.
-/

namespace ApiClient.Client

open Drafting

/-- The name of the outermost scope. -/
def rootScope : String := "API"

/-- The text of the return type of an endpoint. -/
def returnText (e : Endpoint) : String :=
  e.returnType.display

/-- Writes the callable of an operation, and lists the call. -/
def writeEndpoint (r : Resolver) (item : PathItem) (url : String) (scopes : List String)
    (method : Method) (o : Operation) : Drafting Json := do
  let (endpoint, text) ← within (method.verb ++ " " ++ url) do
    let endpoint ← ofResolving (Signature.endpoint r item url method o scopes)
    let text ← ofTemplate (r.dialect.renderEndpoint endpoint)
    return (endpoint, text)
  addCall {
    verb := method.verb
    url
    path := Text.join "." (rootScope :: scopes ++ [endpoint.name])
    summary := o.summary
    returnType := returnText endpoint }
  return .str text

/-- Writes the callables of a path. -/
def writeEndpoints (r : Resolver) (item : PathItem) (url : String) (scopes : List String) :
    List (Method × Operation) → Drafting (List Json)
  | [] => return []
  | (method, o) :: rest => do
    let text ← writeEndpoint r item url scopes method o
    let more ← writeEndpoints r item url scopes rest
    return text :: more

/-- The name of the scope of a segment among names that are taken. -/
def claimScope (r : Resolver) (taken : List String) (segment : String) : Drafting String := do
  let preferred := r.dialect.scopeName segment
  let name := Naming.fresh taken preferred
  if name ≠ preferred then
    note .warning
      ("Scope of segment '" ++ segment ++ "' is named '" ++ name ++ "', '" ++ preferred ++
        "' is taken")
  return name

mutual

/-- The scope of a node under the scopes on the way to it. -/
def buildScope (r : Resolver) (scopes : List String) : Route PathItem → Drafting Scope
  | ⟨url, item, children⟩ => do
    let functions ←
      match item with
      | none => pure []
      | some item => writeEndpoints r item (url.getD "/") scopes item.operations
    let children ← buildChildren r scopes [] children
    return {
      name := .str (scopes.getLast?.getD rootScope)
      url := .ofText? url
      functions := .arr functions
      children := .arr children }

/-- The texts of the scopes below a node, with names that are not taken. -/
def buildChildren (r : Resolver) (scopes taken : List String) :
    List (String × Route PathItem) → Drafting (List Json)
  | [] => return []
  | (segment, child) :: rest => do
    let name ← claimScope r taken segment
    let scope ← buildScope r (scopes ++ [name]) child
    let text ← ofTemplate (r.dialect.renderScope scope)
    let more ← buildChildren r scopes (name :: taken) rest
    return .str text :: more

end

end ApiClient.Client
