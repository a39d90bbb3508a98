import ApiClient.Client.Scopes
import ApiClient.Page.Layout

/-!
# Generating a client

`Client.generate` makes the files of the client of a document: the root file with all scopes, a
file per named type, and the pages. Components get their names before any other schema. Nothing is
written to disk.
-/

namespace ApiClient.Client

open Drafting

/-- Files by their paths below the output directory. -/
abbrev Files := Table String

/-- Where the templates of pages come from: the library, or a directory, with the texts of the
files that are there. -/
inductive PageSource where
  | bundled
  | directory (dir : Path) (text : String → Option String)

/-- The pages of a dialect: the path of each and the name of its template. -/
def pages : Dialect → List (String × String)
  | .python =>
    [("__init__.py", "python/__init__.py.j2"),
      ("schemas/__init__.py", "python/schemas_init.py.j2"),
      ("README.md", "README.md.j2")]
  | .kotlin => [("README.md", "README.md.j2")]

/-- The text of a page. -/
def renderPage (source : PageSource) (template : String) (values : Page.Values) :
    Except Cause String :=
  match source with
  | .bundled =>
    match Page.bundled template values with
    | .ok (some text) => .ok text
    | .ok none => .error (.pageMissing template (Path.ofString "."))
    | .error e => .error (.misfit e)
  | .directory dir text =>
    match text template with
    | some layout => (Page.Layout.ofText layout).render values
    | none => .error (.pageMissing template dir)

/-- An operation as a value of a page. -/
def callValue (c : Call) : Json :=
  .obj [("verb", .str c.verb), ("url", .str c.url), ("call", .str c.path),
    ("summary", c.summary), ("return_type", .str c.returnType)]

/-- The values of the pages. -/
def pageValues (r : Resolver) (d : Document) (tree : String) (types : Registry)
    (calls : List Call) : Page.Values :=
  [("title", .str d.info.title),
    ("version", .str d.info.version),
    ("description", d.info.description),
    ("namespace", .str r.namespaceName),
    ("dialect", .str r.dialect.name),
    ("root_file", .str r.dialect.rootFile),
    ("root_module", .str r.dialect.rootModule),
    ("servers", .arr (d.servers.map Server.url)),
    ("schemas", .arr (types.names.map .str)),
    ("schemas_dir", .str Dialect.typesDir),
    ("endpoints", .arr (calls.map callValue)),
    ("route_tree", .str tree)]

/-! ## Files -/

/-- The root file. -/
def rootText (r : Resolver) (d : Document) (scope : Scope) (types : Registry) :
    Except Template.Error String :=
  r.dialect.renderRoot {
    namespaceName := .str r.namespaceName
    title := .str d.info.title
    version := .str d.info.version
    description := d.info.description
    servers := .arr (d.servers.map Server.url)
    scope
    hasTypes := .bool !types.isEmpty }

/-- The files of types. -/
def typeFiles (r : Resolver) : Registry → Drafting (List (String × String))
  | [] => return []
  | t :: rest => do
    let text ← within ("schema " ++ t.name) (ofTemplate (t.render r.dialect r.namespaceName))
    let more ← typeFiles r rest
    return (r.dialect.typeFile t.name, text) :: more

/-- The files of pages. -/
def pageFiles (source : PageSource) (values : Page.Values) :
    List (String × String) → Drafting (List (String × String))
  | [] => return []
  | (path, template) :: rest => do
    let text ←
      match renderPage source template values with
      | .ok text => pure text
      | .error e => fail e
    let more ← pageFiles source values rest
    return (path, text) :: more

/-- Whether a path has operations. -/
def hasOperations (item : PathItem) : Bool :=
  !item.operations.isEmpty

/-- The dialect of the settings, which is looked up by its name. -/
def dialectOf (s : Settings) : Drafting Dialect :=
  match Dialect.find s.dialect with
  | .ok d => pure d
  | .error e => fail e

/-- The tree of the paths of a document. -/
def routes (d : Document) : Drafting (Route PathItem) :=
  match Route.ofPaths d.paths with
  | .ok tree => pure tree
  | .error e => fail (.document (.sameRoute e.first e.second))

/-- Makes the files of the client of a document. -/
def draft (s : Settings) (source : PageSource) (d : Document) : Drafting Files := do
  let dialect ← dialectOf s
  let r : Resolver := ⟨some d.components, dialect, s.namespaceName⟩
  note .info
    ("Generating " ++ dialect.name ++ " client '" ++ s.namespaceName ++ "' in " ++
      s.outputDir.text)
  let tree ← routes d
  let drawn := tree.format hasOperations
  note .debug ("Route tree:\n" ++ drawn)
  ofResolving r.resolveComponents
  let scope ← buildScope r [] tree
  let state ← get
  let types := state.types.types
  let root ← ofTemplate (rootText r d scope types)
  let typed ← typeFiles r types
  let paged ← pageFiles source (pageValues r d drawn types state.calls) (pages dialect)
  let files : Files := Table.ofList ((dialect.rootFile, root) :: typed ++ paged)
  note .info
    ("Generated " ++ toString files.length ++ " files: " ++ toString state.calls.length ++
      " operations, " ++ toString types.length ++ " schemas")
  return files

/-- The files of the client of a document or a failure, and the journal. -/
def generate (s : Settings) (source : PageSource) (d : Document) :
    Except Failure Files × Journal :=
  let (result, d) := (draft s source d).run {}
  (result, d.types.journal)

/-- The namespace of a client: the one asked for, or else that of the title. -/
def namespaceFor (asked : Option String) (d : Document) : String :=
  match asked with
  | none | some "" => Naming.namespaceOfTitle d.info.title
  | some name => name

end ApiClient.Client
