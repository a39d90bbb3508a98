import ApiClient.Dialect.Comment
import ApiClient.Dialect.Parts

/-!
# Python clients

A module with nested classes for the segments of URLs and static methods for operations, and one
module per named type with a typed dictionary: a class when all properties are identifiers, a call
otherwise.
-/

namespace ApiClient.Dialect.Python

open Template

/-! ## Templates -/

def endpointSource : String :=
  Text.join "\n" [
    "@staticmethod",
    "def %name%(%parameters%) -> %return_type%:",
    "    %doc%",
    "    return _request(",
    "        \"%method%\",",
    "        %url%,",
    "        params=%query%,",
    "        headers=%headers%,",
    "        %~has_body -> \"json=%body%,\"~%",
    "    )"]

def scopeSource : String :=
  Text.join "\n" [
    "class %name%:",
    "    %doc%",
    "    %~is_endpoint -> \"%functions%\"~%",
    "%~space -> \"\"~%",
    "    %~has_children -> \"%children%\"~%",
    "    %~is_empty -> \"pass\"~%"]

def rootSource : String :=
  Text.join "\n" [
    "\"\"\"",
    "%title% %version%",
    "",
    "%description%",
    "\"\"\"",
    "",
    "from __future__ import annotations",
    "",
    "from typing import TYPE_CHECKING, Any, Optional",
    "",
    "import httpx",
    "",
    "%~has_schemas -> \"if TYPE_CHECKING:\\n    import %namespace%.schemas\\n\"~%",
    "BASE_URL = %base_url%",
    "",
    "_client = httpx.Client(base_url=BASE_URL)",
    "",
    "",
    "def configure(base_url: str = BASE_URL, **client_options: Any) -> None:",
    "    \"\"\"Replace the HTTP client every endpoint uses.\"\"\"",
    "    global _client  # noqa: PLW0603",
    "    _client.close()",
    "    _client = httpx.Client(base_url=base_url, **client_options)",
    "",
    "",
    "def _present(values: Optional[dict[str, Any]]) -> dict[str, Any]:",
    "    return \x7bkey: value for key, value in (values or \x7b\x7d).items() if value is not None\x7d",
    "",
    "",
    "def _request(",
    "    method: str,",
    "    url: str,",
    "    *,",
    "    params: Optional[dict[str, Any]] = None,",
    "    headers: Optional[dict[str, Any]] = None,",
    "    json: Any = None,",
    ") -> Any:",
    "    response = _client.request(",
    "        method,",
    "        url,",
    "        params=_present(params),",
    "        headers=\x7bkey: str(value) for key, value in _present(headers).items()\x7d,",
    "        json=json,",
    "    )",
    "    response.raise_for_status()",
    "    if not response.content:",
    "        return None",
    "    return response.json()",
    "",
    "",
    "class API:",
    "    \"\"\"Entry point of the %title% client; nested classes mirror the URL tree.\"\"\"",
    "",
    "    %~is_endpoint -> \"%functions%\"~%",
    "%~space -> \"\"~%",
    "    %~has_children -> \"%children%\"~%",
    ""]

/-- The head of a module with a type. -/
def typeHead : List String := [
    "%module_doc%",
    "",
    "from __future__ import annotations",
    "",
    "from typing import %typing_names%",
    "%~has_references -> \"\\nif TYPE_CHECKING:\\n%references%\"~%",
    ""]

def typeClassSource : String :=
  Text.join "\n" (typeHead ++ [
    "",
    "class %name%(TypedDict):",
    "    %doc%",
    "    %fields%",
    ""])

def typeCallSource : String :=
  Text.join "\n" (typeHead ++ [
    "%name% = TypedDict(",
    "    \"%name%\",",
    "    \x7b",
    "        %fields%",
    "    \x7d,",
    ")",
    ""])

def endpointTemplate : Except Error Template :=
  ofSource
    [linesDeclaration "parameters" ", ", docDeclaration "doc" (ofText (docstring 4)),
      { name := "query", nullable := true, wholeLine := true },
      { name := "headers", nullable := true, wholeLine := true }]
    endpointSource 0

/-- The placeholders that all scopes share. -/
def scopeDeclarations : List Declaration :=
  [linesDeclaration "functions" "\n\n", linesDeclaration "children" "\n\n",
    docDeclaration "doc" shown]

def scopeTemplate : Except Error Template :=
  ofSource scopeDeclarations scopeSource 0

def rootTemplate : Except Error Template :=
  ofSource
    (scopeDeclarations ++
      [docDeclaration "description" (ofText fun s => .ok (headDoc s)),
        { name := "base_url", format := ofText fun s => .ok (pythonString s) }])
    rootSource 0

/-- The placeholders that both forms of a type share. -/
def typeDeclarations : List Declaration :=
  [{ name := "module_doc", format := ofText (docstring 0) },
    linesDeclaration "typing_names" ", ", linesDeclaration "references" "\n",
    docDeclaration "doc" (ofText (docstring 4))]

def typeClassTemplate : Except Error Template :=
  ofSource (typeDeclarations ++ [linesDeclaration "fields" "\n    "]) typeClassSource 0

def typeCallTemplate : Except Error Template :=
  ofSource (typeDeclarations ++ [linesDeclaration "fields" "\n        "]) typeCallSource 0

/-! ## Callables and scopes -/

/-- A parameter in a signature. -/
def renderArgument (a : Argument) : String :=
  a.identifier.display ++ ": " ++ a.type ++ if a.required then "" else " = None"

/-- A value as a literal; for a text it is a string literal. -/
def literal (value : Json) : String :=
  value.spaced

/-- A dictionary with the values of arguments; nothing for none. -/
def dictionary (arguments : List Argument) : Json :=
  if arguments.isEmpty then .null
  else
    .str ("\x7b" ++
      Text.join ", " (arguments.map fun a => literal a.name ++ ": " ++ a.identifier.display) ++
      "\x7d")

/-- The values of the template of an endpoint. -/
def endpointValues (e : Endpoint) : Table Json :=
  [("name", .str e.name),
    ("parameters", .arr (e.arguments.map fun a => .str (renderArgument a))),
    ("return_type", e.returnType),
    ("doc", e.doc "Deprecated."),
    ("method", .str (Text.toUpper e.verb)),
    ("url", e.urlExpression),
    ("query", dictionary (e.located "query")),
    ("headers", dictionary (e.located "header")),
    ("has_body", .bool e.body.isSome),
    ("body", (e.body.map Argument.identifier).getD .null)]

/-- The text of an endpoint. -/
def renderEndpoint (e : Endpoint) : Except Error String := do
  (← endpointTemplate).build (endpointValues e)

/-- The docstring of a scope. -/
def scopeDoc (url : Json) : Except Json.Misfit Json :=
  if url = .null then .ok .null
  else (docstring 4 ("Endpoint: " ++ url.display)).map .str

/-- The text of a scope. -/
def renderScope (s : Scope) : Except Error String := do
  let doc ← (scopeDoc s.url).mapError .format
  (← scopeTemplate).build <|
    [("name", s.name), ("doc", doc), ("functions", s.functions), ("children", s.children)] ++
      s.conditions

/-- The text of the root file. -/
def renderRoot (r : Root) : Except Error String := do
  let baseUrl ← r.baseUrl.mapError .format
  (← rootTemplate).build <|
    [("title", r.title), ("version", r.version), ("description", r.description),
      ("namespace", r.namespaceName), ("base_url", baseUrl), ("has_schemas", r.hasTypes),
      ("functions", r.scope.functions), ("children", r.scope.children)] ++ r.scope.conditions

/-! ## Types -/

/-- Whether the names of all properties are identifiers. The names after one that is none are not
looked at. -/
def areIdentifiers : List Property → Except Json.Misfit Bool
  | [] => .ok true
  | p :: rest =>
    match p.name with
    | .str name => if Naming.isPythonIdentifier name then areIdentifiers rest else .ok false
    | _ => .error .operation

/-- The type of a property in a typed dictionary. -/
def propertyType (p : Property) : Json :=
  if p.required then p.type else .str ("NotRequired[" ++ p.type.display ++ "]")

/-- A property in the call form. -/
def callLine (p : Property) : String :=
  literal p.name ++ ": " ++ literal (propertyType p) ++ ","

/-- A property in the class form, with its description above it. -/
def classLines (p : Property) : Except Json.Misfit (List String) :=
  let line := p.name.display ++ ": " ++ (propertyType p).display
  if p.description.truth then
    match p.description with
    | .str s => .ok ["#: " ++ collapse s, line]
    | _ => .error .operation
  else .ok [line]

/-- The properties in the class form. -/
def classBody : List Property → Except Json.Misfit (List String)
  | [] => .ok []
  | p :: rest => do
    let lines ← classLines p
    let more ← classBody rest
    return lines ++ more

/-- Whether `name` stands as a word in `cs`, which follows the character `before`. -/
def hasWord (name : List Char) (before : Option Char) : List Char → Bool
  | [] => false
  | c :: rest =>
    (!before.any Text.isWordChar &&
      match Text.dropFront? name (c :: rest) with
      | some after => !after.head?.any Text.isWordChar
      | none => false) ||
    hasWord name (some c) rest

/-- The names that a type takes from the typing module, those in capitals first. -/
def typingNames (hasReferences allRequired : Bool) (spellings : List String) : List String :=
  let spelt := (Text.join " " spellings).toList
  (if hasReferences then ["TYPE_CHECKING"] else []) ++
    (if hasWord "Any".toList none spelt then ["Any"] else []) ++
    (if allRequired then [] else ["NotRequired"]) ++
    (if hasWord "Optional".toList none spelt then ["Optional"] else []) ++
    ["TypedDict"]

/-- Texts as an array. -/
def lines (xs : List String) : Json :=
  .arr (xs.map .str)

/-- The import of a type that is mentioned. -/
def importLine (name : Json) : String :=
  "    from ." ++ name.display ++ " import " ++ name.display

/-- The values of the templates of types, in the class form or the call form. -/
def typeValues (r : Record) (namespaceName : Json) (isClass : Bool) :
    Except Json.Misfit (Table Json) := do
  let fields ← if isClass then classBody r.properties else .ok (r.properties.map callLine)
  let references ← r.references
  let spellings ← texts (r.properties.map (·.type))
  let typing := typingNames (!references.isEmpty) (r.properties.all (·.required)) spellings
  return [
    ("module_doc",
      .str (r.name.display ++ " schema of the " ++ namespaceName.display ++ " client.")),
    ("typing_names", lines typing),
    ("has_references", .bool !references.isEmpty),
    ("references", lines (references.map importLine)),
    ("name", r.name),
    ("doc", r.description),
    ("fields", lines fields)]

/-- The text of the module of a type. -/
def renderType (r : Record) (namespaceName : Json) : Except Error String := do
  let isClass ← (areIdentifiers r.properties).mapError .format
  let values ← (typeValues r namespaceName isClass).mapError .format
  let template ← if isClass then typeClassTemplate else typeCallTemplate
  template.build values

end ApiClient.Dialect.Python
