import ApiClient.Dialect.Comment
import ApiClient.Dialect.Parts

/-!
# Kotlin clients

An object with nested objects for the segments of URLs and suspending functions for operations, and
one file per named type with a serialisable data class.
-/

namespace ApiClient.Dialect.Kotlin

open Template

/-! ## Templates -/

def endpointSource : String :=
  Text.join "\n" [
    "%doc%",
    "suspend fun %name%(%parameters%): %return_type% = API.client.request(%url%) \x7b",
    "    method = %method%",
    "    %~has_query -> \"%query%\"~%",
    "    %~has_headers -> \"%headers%\"~%",
    "    %~has_body -> \"contentType(ContentType.Application.Json)\"~%",
    "    %~has_body -> \"setBody(%body%)\"~%",
    "\x7d.body()"]

def scopeSource : String :=
  Text.join "\n" [
    "%doc%",
    "object %name% \x7b",
    "    %~is_endpoint -> \"%functions%\"~%",
    "%~space -> \"\"~%",
    "    %~has_children -> \"%children%\"~%",
    "\x7d"]

def rootSource : String :=
  Text.join "\n" [
    "package %namespace%",
    "",
    "import io.ktor.client.HttpClient",
    "import io.ktor.client.call.body",
    "import io.ktor.client.plugins.defaultRequest",
    "import io.ktor.client.request.header",
    "import io.ktor.client.request.parameter",
    "import io.ktor.client.request.request",
    "import io.ktor.client.request.setBody",
    "import io.ktor.http.ContentType",
    "import io.ktor.http.HttpMethod",
    "import io.ktor.http.contentType",
    "",
    "/**",
    " * %title% %version%",
    " * %description%",
    " */",
    "object API \x7b",
    "    const val BASE_URL: String = %base_url%",
    "",
    "    var client: HttpClient = HttpClient \x7b",
    "        defaultRequest \x7b url(BASE_URL) \x7d",
    "    \x7d",
    "",
    "    %~is_endpoint -> \"%functions%\"~%",
    "%~space -> \"\"~%",
    "    %~has_children -> \"%children%\"~%",
    "\x7d",
    ""]

def typeSource : String :=
  Text.join "\n" [
    "package %namespace%.schemas",
    "",
    "import kotlinx.serialization.SerialName",
    "import kotlinx.serialization.Serializable",
    "",
    "%doc%",
    "@Serializable",
    "data class %name%(",
    "    %fields%",
    ")",
    ""]

/-- The placeholder for a comment. -/
def commentDeclaration : Declaration :=
  docDeclaration "doc" (ofText fun s => .ok (docComment s))

def endpointTemplate : Except Error Template :=
  ofSource
    [linesDeclaration "parameters" ", ", commentDeclaration, linesDeclaration "query" "\n",
      linesDeclaration "headers" "\n"]
    endpointSource 0

/-- The placeholders that all scopes share. -/
def scopeDeclarations : List Declaration :=
  [linesDeclaration "functions" "\n\n", linesDeclaration "children" "\n\n", commentDeclaration]

def scopeTemplate : Except Error Template :=
  ofSource scopeDeclarations scopeSource 0

def rootTemplate : Except Error Template :=
  ofSource
    (scopeDeclarations ++
      [docDeclaration "description" (ofText fun s => .ok (headComment s)),
        { name := "base_url", format := ofText fun s => .ok (kotlinString s) }])
    rootSource 0

def typeTemplate : Except Error Template :=
  ofSource [commentDeclaration, linesDeclaration "fields" "\n    "] typeSource 0

/-! ## Callables and scopes -/

/-- A parameter in a signature. -/
def renderArgument (a : Argument) : String :=
  a.identifier.display ++ ": " ++ a.type ++ if a.required then "" else " = null"

/-- A call that sets the value of an argument. -/
def setter (call : String) (a : Argument) : Except Json.Misfit Json :=
  match a.name with
  | .str name =>
    .ok (.str (call ++ "(" ++ kotlinString name ++ ", " ++ a.identifier.display ++ ")"))
  | _ => .error .operation

/-- The calls that set the values of arguments. -/
def setters (call : String) : List Argument → Except Json.Misfit (List Json)
  | [] => .ok []
  | a :: rest => do
    let line ← setter call a
    let more ← setters call rest
    return line :: more

/-- The expression for a method. -/
def methodExpression (verb : String) : String :=
  match verb with
  | "get" => "HttpMethod.Get"
  | "put" => "HttpMethod.Put"
  | "post" => "HttpMethod.Post"
  | "delete" => "HttpMethod.Delete"
  | "options" => "HttpMethod.Options"
  | "head" => "HttpMethod.Head"
  | "patch" => "HttpMethod.Patch"
  | other => "HttpMethod(" ++ kotlinString (Text.toUpper other) ++ ")"

/-- The text of an endpoint. -/
def renderEndpoint (e : Endpoint) : Except Error String := do
  let query ← (setters "parameter" (e.located "query")).mapError .format
  let headers ← (setters "header" (e.located "header")).mapError .format
  (← endpointTemplate).build
    [("name", .str e.name),
      ("parameters", .arr (e.arguments.map fun a => .str (renderArgument a))),
      ("return_type", e.returnType),
      ("doc", e.doc "@deprecated"),
      ("url", e.urlExpression),
      ("method", .str (methodExpression e.verb)),
      ("has_query", .bool !query.isEmpty),
      ("query", .arr query),
      ("has_headers", .bool !headers.isEmpty),
      ("headers", .arr headers),
      ("has_body", .bool e.body.isSome),
      ("body", (e.body.map Argument.identifier).getD .null)]

/-- The comment of a scope. -/
def scopeDoc (url : Json) : Json :=
  if url = .null then .null else .str ("Endpoint: " ++ url.display)

/-- The text of a scope. -/
def renderScope (s : Scope) : Except Error String := do
  (← scopeTemplate).build <|
    [("name", s.name), ("doc", scopeDoc s.url), ("functions", s.functions),
      ("children", s.children)] ++ s.conditions

/-- The text of the root file. -/
def renderRoot (r : Root) : Except Error String := do
  let baseUrl ← r.baseUrl.mapError .format
  (← rootTemplate).build <|
    [("namespace", r.namespaceName), ("title", r.title), ("version", r.version),
      ("description", r.description), ("base_url", baseUrl),
      ("functions", r.scope.functions), ("children", r.scope.children)] ++ r.scope.conditions

/-! ## Types -/

/-- The type of a property in a data class, with a value for one that is left out. -/
def propertyType (p : Property) : Except Json.Misfit String :=
  match p.type with
  | .str type => .ok (if p.required then type else optionalType kotlin type ++ " = null")
  | _ => .error (if p.required then .kind else .operation)

/-- A property of a data class. -/
def propertyLine (p : Property) : Except Json.Misfit String :=
  match p.name with
  | .str name => do
    let type ← propertyType p
    return String.join [
      "@SerialName(", kotlinString name, ") val ", p.identifier.display, ": ", type, ","]
  | _ => .error .operation

/-- The properties of a data class. -/
def propertyLines : List Property → Except Json.Misfit (List Json)
  | [] => .ok []
  | p :: rest => do
    let line ← propertyLine p
    let more ← propertyLines rest
    return .str line :: more

/-- The text of the file of a type. -/
def renderType (r : Record) (namespaceName : Json) : Except Error String := do
  let fields ← (propertyLines r.properties).mapError .format
  (← typeTemplate).build
    [("namespace", namespaceName),
      ("name", r.name),
      ("doc", r.description),
      ("fields", .arr fields)]

end ApiClient.Dialect.Kotlin
