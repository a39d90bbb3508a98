import ApiClient.Naming.Keyword
import ApiClient.Text.Blank
import ApiClient.Text.CaseMap

/-!
# Names out of document names

The names that documents give (schema keys, properties, path segments, parameters) in the case
conventions of generated code: `snakeCase`, `className`, `parameterName`. `normalize` makes any
text an identifier of ASCII characters.
-/

namespace ApiClient.Naming

/-! ## Snake case -/

/-- A character that separates the words of a document name. -/
def isDelimiter (c : Char) : Bool :=
  c = '-' || c = '.' || Text.isBlank c

/-- A lower-case ASCII letter or a digit. -/
def isLowerOrDigit (c : Char) : Bool :=
  c.isLower || c.isDigit

/-- Parts a run of capitals from the capitalised word after it: `HTTPServer` is `HTTP_Server`. -/
def partAcronyms : List Char → List Char
  | a :: b :: c :: rest =>
    if a.isUpper && b.isUpper && c.isLower then a :: '_' :: partAcronyms (b :: c :: rest)
    else a :: partAcronyms (b :: c :: rest)
  | cs => cs

/-- Parts a small letter or a digit from the capital after it: `teamId` is `team_Id`. -/
def partWords : List Char → List Char
  | a :: b :: rest =>
    if isLowerOrDigit a && b.isUpper then a :: '_' :: partWords (b :: rest)
    else a :: partWords (b :: rest)
  | cs => cs

/-- A document name in snake case: separators become underscores, a change of case begins a word,
and a run of capitals is one word. -/
def snakeCase (name : String) : String :=
  let delimited := name.toList.map fun c => if isDelimiter c then '_' else c
  Text.toLower (String.ofList (partWords (partAcronyms delimited)))

/-! ## Class names -/

/-- An ASCII letter or digit. -/
def isAsciiAlphanumeric (c : Char) : Bool :=
  c.isUpper || c.isLower || c.isDigit

/-- Drops what is no ASCII letter or digit and capitalises the first character of every piece that
is left. `fresh` says that a piece begins. -/
def capitalise : Bool → List Char → List Char
  | _, [] => []
  | fresh, c :: rest =>
    if isAsciiAlphanumeric c then (if fresh then c.toUpper else c) :: capitalise false rest
    else capitalise true rest

/-- An underscore in front of a leading digit. -/
def guardDigit : List Char → List Char
  | [] => []
  | c :: rest => if c.isDigit then '_' :: c :: rest else c :: rest

/-- A document name as the name of a class: its alphanumeric pieces, each with a capital. -/
def className (name : String) : String :=
  String.ofList (guardDigit (capitalise true name.toList))

/-- The class name with a small first letter, unless an underscore guards a digit. -/
def parameterName (name : String) : String :=
  match (className name).toList with
  | [] => ""
  | c :: rest => String.ofList (if c = '_' then c :: rest else c.toLower :: rest)

/-! ## Identifiers -/

/-- Underscores in place of what is no ASCII letter, digit or underscore, and one more in front of
a leading digit. -/
def normalize (name : String) : String :=
  String.ofList <| guardDigit <|
    name.toList.map fun c => if isAsciiAlphanumeric c || c = '_' then c else '_'

/-- A document name as a Python identifier. -/
def pythonIdentifier (name : String) : String :=
  escapePythonKeyword (normalize (snakeCase name))

/-- The namespace for a document without one of its own: the words of its title, joined by single
underscores. -/
def namespaceOfTitle (title : String) : String :=
  let words := (Text.split '_' (normalize (snakeCase (Text.strip title)))).filter (· ≠ "")
  let name := normalize (Text.join "_" words)
  if name = "" then "api_client" else name

end ApiClient.Naming
