import ApiClient.Json.Element
import ApiClient.Json.Printer
import ApiClient.Page.Filter

/-!
# Pages of a client

The files of a client that hold no code of operations or types: the description of the client, and
the files that make its directories packages. Each is a list of lines filled in with named values.
-/

namespace ApiClient.Page

/-- The values of a page by their names. -/
abbrev Values := Table Json

/-- A value of a page. -/
def value (values : Values) (name : String) : Json :=
  (values.get? name).getD .null

/-- A value of a page as text. -/
def shown (values : Values) (name : String) : String :=
  (value values name).display

/-- Lines, each with its line feed. -/
def unlines : List String → String
  | [] => ""
  | line :: rest => line ++ "\n" ++ unlines rest

/-- The lines with the first line of the description, if there is one. -/
def descriptionLines (values : Values) : Except Json.Misfit (List String) :=
  let description := value values "description"
  if description.truth then do return [← firstLine description, ""] else return []

/-- A text in backticks. -/
def code (s : String) : String :=
  "`" ++ s ++ "`"

/-- The text after the last dot. -/
def extension : Json → Except Json.Misfit String
  | .str fileName =>
    match (Text.split '.' fileName).reverse with
    | last :: _ :: _ => .ok last
    | _ => .error .absent
  | _ => .error .absent

/-! ## The description of the client -/

/-- The servers of the client. -/
def serverLines (values : Values) : Except Json.Misfit (List String) :=
  let servers := value values "servers"
  if servers.truth then do
    let lines := (← servers.elements).map fun server => "- " ++ code server.display
    return ["", "## Servers", ""] ++ lines
  else return []

/-- A member of an operation as text. -/
def cell (endpoint : Json) (name : String) : Except Json.Misfit String :=
  match Table.get? endpoint.members name with
  | some value => .ok value.display
  | none => .error .absent

/-- A row of the table of operations. -/
def endpointRow (endpoint : Json) : Except Json.Misfit String := do
  let verb ← cell endpoint "verb"
  let url ← cell endpoint "url"
  let call ← cell endpoint "call"
  let returnType ← cell endpoint "return_type"
  return "| " ++ verb ++ " | " ++ code url ++ " | " ++ code call ++ " | " ++ code returnType ++ " |"

/-- The table of operations. -/
def endpointLines (values : Values) : Except Json.Misfit (List String) :=
  let endpoints := value values "endpoints"
  if endpoints.truth then do
    let rows ← (← endpoints.elements).mapM endpointRow
    return ["| Method | Path | Call | Returns |", "|--------|------|------|---------|"] ++ rows
  else return ["The document declares no operations."]

/-- A type with a link to its file. -/
def typeLine (values : Values) (type : Json) : Except Json.Misfit String := do
  let extension ← extension (value values "root_file")
  return "- [" ++ code type.display ++ "](" ++ shown values "schemas_dir" ++ "/" ++
    type.display ++ "." ++ extension ++ ")"

/-- The types of the client. -/
def typeLines (values : Values) : Except Json.Misfit (List String) :=
  let types := value values "schemas"
  if types.truth then do (← types.elements).mapM (typeLine values)
  else return ["The document declares no named schemas."]

/-- The description of the client. -/
def readme (values : Values) : Except Json.Misfit String := do
  let title := shown values "title"
  let description ← descriptionLines values
  let servers ← serverLines values
  let endpoints ← endpointLines values
  let types ← typeLines values
  return unlines <|
    ["# " ++ title, ""] ++ description ++
    ["Client for version " ++ shown values "version" ++ " of the " ++ title ++
      " API, generated as a " ++ shown values "dialect" ++ " client in " ++
      code (shown values "namespace") ++ "."] ++
    servers ++
    ["", "## Endpoints", ""] ++ endpoints ++
    ["", "## Schemas", ""] ++ types ++
    ["", "## Route tree", "", "```", shown values "route_tree", "```"]

/-! ## Packages -/

/-- The file that makes the client a package. -/
def package (values : Values) : Except Json.Misfit String := do
  let description ← descriptionLines values
  return unlines <|
    ["\"\"\"", shown values "title" ++ " client.", ""] ++ description ++
    ["Generated for API version " ++ shown values "version" ++ ".", "\"\"\"", "",
      "from ." ++ shown values "root_module" ++ " import API, configure", "",
      "__version__ = " ++ (value values "version").markupSafe, "",
      "__all__ = [", "    \"API\",", "    \"configure\",", "]"]

/-- The file that makes the types a package. -/
def typesPackage (values : Values) : Except Json.Misfit String := do
  let types := (← (value values "schemas").elements).map Json.display
  return unlines <|
    ["\"\"\"Schemas of the " ++ shown values "title" ++ " client.\"\"\""] ++
    (if types = [] then []
      else "" :: types.map fun t => "from ." ++ t ++ " import " ++ t) ++
    ["", "__all__ = ["] ++ types.map (fun t => "    \"" ++ t ++ "\",") ++ ["]"]

/-- The page of a template's name. -/
def bundled (template : String) (values : Values) : Except Json.Misfit (Option String) :=
  match template with
  | "README.md.j2" => (readme values).map some
  | "python/__init__.py.j2" => (package values).map some
  | "python/schemas_init.py.j2" => (typesPackage values).map some
  | _ => .ok none

end ApiClient.Page
