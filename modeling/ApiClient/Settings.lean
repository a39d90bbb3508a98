import ApiClient.Files.Path
import ApiClient.Json.Basic
import ApiClient.Json.Misfit
import ApiClient.Text.CharClass

/-!
# Settings of a run

Where a client is written, its namespace, its dialect, and where templates of the user's own lie.
`Settings.make` checks the namespace and the paths; the dialect is looked up when a client is
generated, and may be any value until then.
-/

namespace ApiClient

/-- What one run is asked for. -/
structure Settings where
  outputDir : Path
  namespaceName : String
  dialect : Json
  templateDir : Option Path

namespace Settings

/-- Why settings are refused. -/
inductive Refusal where
  | emptyNamespace
  | badNamespace (name : String)
  /-- A value is of another kind than it is used as. -/
  | misfit (e : Json.Misfit)
  deriving DecidableEq, Repr

/-- The text of a refusal. -/
def Refusal.message : Refusal → String
  | emptyNamespace => "The base namespace must not be empty"
  | badNamespace name =>
    String.join ["The base namespace '", name, "' is not a dotted identifier"]
  | misfit _ => ""

/-- The namespace of a client that is given none. -/
def defaultNamespace : String := "api_client"

/-- The dialect of a client that is given none. -/
def defaultDialect : String := "python"

/-- Whether a namespace is a sequence of identifiers with dots between them. -/
def isDottedIdentifier (name : String) : Bool :=
  (Text.split '.' name).all Text.isIdentifier

/-- A namespace that has been checked. -/
def checkNamespace : Json → Except Refusal String
  | .str name =>
    if Text.allBlank name then .error .emptyNamespace
    else if isDottedIdentifier name then .ok name
    else .error (.badNamespace name)
  | value => .error (if value.truth then .misfit .operation else .emptyNamespace)

/-- A value as a path. -/
def checkPath : Json → Except Refusal Path
  | .str s => .ok (.ofString s)
  | _ => .error (.misfit .kind)

/-- A value as a path, none for null. -/
def checkOptionalPath (value : Json) : Except Refusal (Option Path) :=
  if value = .null then .ok none else (checkPath value).map some

/-- Settings whose namespace and paths have been checked, in this order. -/
def make (outputDir : Json) (namespaceName : Json := .str defaultNamespace)
    (dialect : Json := .str defaultDialect) (templateDir : Json := .null) :
    Except Refusal Settings := do
  let namespaceName ← checkNamespace namespaceName
  let outputDir ← checkPath outputDir
  let templateDir ← checkOptionalPath templateDir
  return { outputDir, namespaceName, dialect, templateDir }

end Settings

end ApiClient
