import ApiClient.Dialect.Rendering
import ApiClient.Proofs.Template.Filling
import ApiClient.Proofs.Template.Source
import Mathlib

/-!
# The templates of root files

The root file of either dialect is made of a template whose branches hold the callables and the scopes of
the outermost scope. It is filled in with every root that has texts for a title and a version, and a text
or nothing for a description (`Supplies`), and what its pieces give is known for these three, which stand
as they are or formatted (`exists_pieces`). For either dialect `exists_fill_rootPieces` lists the texts of
all pieces before the marked lines are taken away.
-/

namespace ApiClient

namespace Dialect

open Template

/-! ## Branches -/

/-- The branch with the texts of a list. -/
def listBranch (name : String) : Template where
  parts := [.slot name]
  inputs := [{ linesDeclaration name "\n\n" with form := .plain }]
  indent := 4

/-- The branch with nothing in it. -/
def emptyBranch : Template where
  parts := []
  inputs := []
  indent := 0

/-- The texts of a list with a separator between them, as a template of its own. -/
def listing (name separator : String) : Template where
  parts := [.slot name]
  inputs := [{ linesDeclaration name separator with form := .plain }]
  indent := 4

theorem ofSource_listing {declarations : List Declaration} {name separator source : String}
    (hscan : scan source = .ok [.placeholder name ⟨1, 0⟩])
    (h : declared declarations name = linesDeclaration name separator) :
    ofSource declarations source 4 = .ok (listing name separator) := by
  rw [ofSource_eq, hscan]
  simp [ofScan, assemble, register, h, linesDeclaration, listing, bind, Except.bind, pure, Except.pure]

theorem scan_functions : scan "%functions%" = .ok [.placeholder "functions" ⟨1, 0⟩] :=
  scan_of_agrees (by decide +kernel)

theorem scan_children : scan "%children%" = .ok [.placeholder "children" ⟨1, 0⟩] :=
  scan_of_agrees (by decide +kernel)

/-- The branches for the members of a scope. -/
theorem ofSource_members {declarations : List Declaration}
    (hfunctions : declared declarations "functions" = linesDeclaration "functions" "\n\n")
    (hchildren : declared declarations "children" = linesDeclaration "children" "\n\n") :
    ofSource declarations "%functions%" 4 = .ok (listBranch "functions") ∧
      ofSource declarations "%children%" 4 = .ok (listBranch "children") :=
  ⟨ofSource_listing scan_functions hfunctions, ofSource_listing scan_children hchildren⟩

theorem ofSource_empty (declarations : List Declaration) :
    ofSource declarations "" 0 = .ok emptyBranch := by
  have hscan : scan "" = .ok [] := scan_of_agrees (by decide +kernel)
  rw [ofSource_eq, hscan]
  rfl

/-! ## Values -/

/-- A value that may be missing, as a document holds it. -/
def orNull (text : Option String) : Json :=
  (text.map .str).getD .null

/-- Values for a root file, with these texts. -/
structure Supplies (values : Table Json) (title version : String) (description : Option String) :
    Prop where
  title_eq : values.get? "title" = some (.str title)
  version_eq : values.get? "version" = some (.str version)
  description_eq : values.get? "description" = some (orNull description)
  namespace_eq : ∃ s, values.get? "namespace" = some (.str s)
  base_url_eq : ∃ s, values.get? "base_url" = some (.str s)
  functions_eq : ∃ xs : List String, values.get? "functions" = some (.arr (xs.map .str))
  children_eq : ∃ xs : List String, values.get? "children" = some (.arr (xs.map .str))
  is_endpoint_eq : ∃ b, values.get? "is_endpoint" = some (.bool b)
  space_eq : ∃ b, values.get? "space" = some (.bool b)
  has_children_eq : ∃ b, values.get? "has_children" = some (.bool b)

variable {values : Table Json}

theorem exists_lookup_condition {name : String} {b : Bool} (h : values.get? name = some (.bool b)) :
    ∃ x, ({ name, form := .wholeLine } : Variable).lookup values = .ok x :=
  ⟨_, lookup_of_fits h (by simp) rfl⟩

theorem lookup_list {name separator : String} {xs : List String}
    (h : values.get? name = some (.arr (xs.map .str))) :
    Variable.lookup ⟨linesDeclaration name separator, .plain⟩ values = .ok (some (.arr (xs.map .str))) :=
  lookup_of_fits h (by simp) rfl

theorem fill_listing {name separator : String} {xs : List String}
    (h : values.get? name = some (.arr (xs.map .str))) :
    (listing name separator).fill values none = .ok (finish 4 (Text.join separator xs).toList) := by
  have hinput : (listing name separator).inputs.find? (·.name = name) =
      some ⟨linesDeclaration name separator, .plain⟩ := List.find?_cons_of_pos (by simp [linesDeclaration])
  have hinputs : ∀ v ∈ (listing name separator).inputs, ∃ x, v.lookup values = .ok x :=
    List.forall_mem_singleton.2 ⟨_, lookup_list h⟩
  obtain ⟨found, hfound⟩ := exists_resolve hinputs
  have hpiece := fillPart_slot hfound hinput (lookup_list h) (joined_map_str separator xs)
  have hfill := fill_of_pieces hfound (.cons hpiece .nil)
  rwa [List.flatten_cons, List.flatten_nil, List.append_nil] at hfill

theorem fill_listBranch {name : String} {xs : List String}
    (h : values.get? name = some (.arr (xs.map .str))) :
    (listBranch name).fill values none = .ok (finish 4 (Text.join "\n\n" xs).toList) :=
  fill_listing h

/-- The placeholder for the description. -/
def descriptionVariable (format : String → String) : Variable :=
  ⟨docDeclaration "description" (ofText fun s => .ok (format s)), .plain⟩

/-- What stands in the place of the description before the lines that are to go are gone. -/
def described (format : String → String) : Option String → List Char
  | none => dropMarker
  | some s => (format s).toList

theorem exists_lookup_description {description : Option String}
    (h : values.get? "description" = some (orNull description)) (format : String → String) :
    ∃ x, (descriptionVariable format).lookup values = .ok x := by
  cases description with
  | none => exact ⟨_, lookup_of_null h rfl⟩
  | some s => exact ⟨_, lookup_of_fits h (by simp [orNull]) rfl⟩

theorem fillPart_description {description : Option String} {inputs : List Variable}
    {found : List (Variable × Option Json)} (hfound : resolve values inputs = .ok found)
    {format : String → String}
    (hinput : inputs.find? (·.name = "description") = some (descriptionVariable format))
    (h : values.get? "description" = some (orNull description)) :
    fillPart values found (.slot "description") = .ok (described format description) := by
  cases description with
  | none => exact fillPart_absent hfound hinput (lookup_of_null h rfl)
  | some s =>
    exact fillPart_slot hfound hinput (lookup_of_fits h (by simp [orNull]) rfl) rfl

theorem exists_fill_emptyBranch (values : Table Json) :
    ∃ piece, emptyBranch.fill values none = .ok piece :=
  ⟨_, rfl⟩

/-! ## Pieces -/

/-- The placeholder for the address of the server. -/
def urlVariable (literal : String → String) : Variable :=
  { name := "base_url", format := ofText fun s => .ok (literal s) }

/-- The placeholders of a root file for texts, by the way a description and an address are written. -/
structure IsRoot (inputs : List Variable) (format literal : String → String) : Prop where
  title_eq : inputs.find? (·.name = "title") = some { name := "title" }
  version_eq : inputs.find? (·.name = "version") = some { name := "version" }
  description_eq : inputs.find? (·.name = "description") = some (descriptionVariable format)
  base_url_eq : inputs.find? (·.name = "base_url") = some (urlVariable literal)

theorem lookup_url {url : String} (h : values.get? "base_url" = some (.str url))
    (literal : String → String) : (urlVariable literal).lookup values = .ok (some (.str url)) :=
  lookup_of_fits h (by simp) rfl

/-- What the pieces of a root file give. -/
structure Pieces (values : Table Json) (found : List (Variable × Option Json))
    (title version : String) (description url functions space children : List Char) : Prop where
  title_eq : fillPart values found (.slot "title") = .ok title.toList
  version_eq : fillPart values found (.slot "version") = .ok version.toList
  description_eq : fillPart values found (.slot "description") = .ok description
  base_url_eq : fillPart values found (.slot "base_url") = .ok url
  functions_eq : fillPart values found (.branch "is_endpoint" true (listBranch "functions")) =
    .ok functions
  space_eq : fillPart values found (.branch "space" true emptyBranch) = .ok space
  children_eq : fillPart values found (.branch "has_children" true (listBranch "children")) =
    .ok children

variable {title version : String} {description : Option String} {inputs : List Variable}
  {found : List (Variable × Option Json)} {format literal : String → String}

theorem exists_pieces (h : Supplies values title version description)
    (hroot : IsRoot inputs format literal) (hfound : resolve values inputs = .ok found) :
    ∃ url functions space children,
      Pieces values found title version (described format description) url functions space children := by
  obtain ⟨url, hurl⟩ := h.base_url_eq
  obtain ⟨xs, hxs⟩ := h.functions_eq
  obtain ⟨ys, hys⟩ := h.children_eq
  obtain ⟨functions, hfunctions⟩ :=
    exists_fillPart_branch ⟨_, fill_listBranch hxs⟩ found "is_endpoint" true
  obtain ⟨space, hspace⟩ := exists_fillPart_branch (exists_fill_emptyBranch values) found "space" true
  obtain ⟨children, hchildren⟩ :=
    exists_fillPart_branch ⟨_, fill_listBranch hys⟩ found "has_children" true
  exact ⟨(literal url).toList, functions, space, children,
    { title_eq := fillPart_text hfound hroot.title_eq h.title_eq
      version_eq := fillPart_text hfound hroot.version_eq h.version_eq
      description_eq := fillPart_description hfound hroot.description_eq h.description_eq
      base_url_eq := fillPart_slot hfound hroot.base_url_eq (lookup_url hurl literal) rfl
      functions_eq := hfunctions
      space_eq := hspace
      children_eq := hchildren }⟩

namespace Python

/-- The import of the types, as a template. -/
def typesSource : String :=
  "if TYPE_CHECKING:\n    import %namespace%.schemas\n"

/-- The lines between the docstring of a root file and the import of the types. -/
def rootImports : String :=
  Text.join "\n" [
    "",
    "from __future__ import annotations",
    "",
    "from typing import TYPE_CHECKING, Any, Optional",
    "",
    "import httpx",
    ""]

/-- The lines between the address of the server and the class with the operations. -/
def rootSetup : String :=
  Text.join "\n" [
    "",
    "_client = httpx.Client(base_url=BASE_URL)",
    "",
    "",
    "def configure(base_url: str = BASE_URL, **client_options: Any) -> None:",
    "    \"\"\"Replace the HTTP client every endpoint uses.\"\"\"",
    "    global _client  # noqa: PLW0603",
    "    _client.close()",
    "    _client = httpx.Client(base_url=base_url, **client_options)",
    "",
    "",
    "def _present(values: Optional[dict[str, Any]]) -> dict[str, Any]:",
    "    return \x7bkey: value for key, value in (values or \x7b\x7d).items() if value is not None\x7d",
    "",
    "",
    "def _request(",
    "    method: str,",
    "    url: str,",
    "    *,",
    "    params: Optional[dict[str, Any]] = None,",
    "    headers: Optional[dict[str, Any]] = None,",
    "    json: Any = None,",
    ") -> Any:",
    "    response = _client.request(",
    "        method,",
    "        url,",
    "        params=_present(params),",
    "        headers=\x7bkey: str(value) for key, value in _present(headers).items()\x7d,",
    "        json=json,",
    "    )",
    "    response.raise_for_status()",
    "    if not response.content:",
    "        return None",
    "    return response.json()",
    "",
    "",
    "class API:"]

theorem scan_typesSource : scan typesSource = .ok [
    .text "if TYPE_CHECKING:\n    import ", .placeholder "namespace" ⟨2, 11⟩,
    .text ".schemas\n"] := by
  rw [scan_eq]
  exact ok_of_toOption (by decide +kernel)

theorem scan_rootSource : scan rootSource = .ok [
    .text "\"\"\"\n", .placeholder "title" ⟨2, 0⟩, .text " ", .placeholder "version" ⟨2, 8⟩,
    .text "\n\n", .placeholder "description" ⟨4, 0⟩, .text ("\n\"\"\"\n" ++ rootImports ++ "\n"),
    .conditional "has_schemas" typesSource true ⟨13, 0⟩, .text "\nBASE_URL = ",
    .placeholder "base_url" ⟨14, 11⟩,
    .text ("\n" ++ rootSetup ++ "\n    \"\"\"Entry point of the "), .placeholder "title" ⟨52, 26⟩,
    .text " client; nested classes mirror the URL tree.\"\"\"\n\n    ",
    .conditional "is_endpoint" "%functions%" true ⟨54, 4⟩, .text "\n",
    .conditional "space" "" true ⟨55, 0⟩, .text "\n    ",
    .conditional "has_children" "%children%" true ⟨56, 4⟩, .text "\n"] :=
  scan_of_agrees (by decide +kernel)

/-- The branch with the import of the types. -/
def typesBranch : Template where
  parts := [.text "if TYPE_CHECKING:\n    import ", .slot "namespace", .text ".schemas\n"]
  inputs := [{ name := "namespace" }]
  indent := 0

/-- The template of the root file. -/
def rootPieces : Template where
  parts := [.text "\"\"\"\n", .slot "title", .text " ", .slot "version", .text "\n\n",
    .slot "description", .text ("\n\"\"\"\n" ++ rootImports ++ "\n"),
    .branch "has_schemas" true typesBranch, .text "\nBASE_URL = ", .slot "base_url",
    .text ("\n" ++ rootSetup ++ "\n    \"\"\"Entry point of the "), .slot "title",
    .text " client; nested classes mirror the URL tree.\"\"\"\n\n    ",
    .branch "is_endpoint" true (listBranch "functions"), .text "\n",
    .branch "space" true emptyBranch, .text "\n    ",
    .branch "has_children" true (listBranch "children"), .text "\n"]
  inputs := [{ name := "title" }, { name := "version" },
    { docDeclaration "description" (ofText fun s => .ok (headDoc s)) with form := .plain },
    { name := "has_schemas", form := .wholeLine },
    { name := "base_url", format := ofText fun s => .ok (pythonString s) },
    { name := "is_endpoint", form := .wholeLine }, { name := "space", form := .wholeLine },
    { name := "has_children", form := .wholeLine }]
  indent := 0

/-- What is declared for the root file. -/
def rootDeclarations : List Declaration :=
  scopeDeclarations ++
    [docDeclaration "description" (ofText fun s => .ok (headDoc s)),
      { name := "base_url", format := ofText fun s => .ok (pythonString s) }]

theorem ofSource_typesSource : ofSource rootDeclarations typesSource 0 = .ok typesBranch := by
  rw [ofSource_eq, scan_typesSource]
  rfl

theorem rootTemplate_eq : rootTemplate = .ok rootPieces := by
  have hroot : rootTemplate = ofSource rootDeclarations rootSource 0 := rfl
  have hmembers : ofSource rootDeclarations "%functions%" 4 = .ok (listBranch "functions") ∧
      ofSource rootDeclarations "%children%" 4 = .ok (listBranch "children") := ofSource_members rfl rfl
  have hfour : ((4 : Nat) : Int) = 4 := rfl
  rw [hroot, ofSource_eq, scan_rootSource]
  simp only [ofScan, assemble, Int.ofNat_zero, hfour, ofSource_typesSource, hmembers,
    ofSource_empty]
  rfl

theorem exists_fill_typesBranch {values : Table Json} {namespaceName : String}
    (h : values.get? "namespace" = some (.str namespaceName)) :
    ∃ piece, typesBranch.fill values none = .ok piece := by
  have hinputs : ∀ v ∈ typesBranch.inputs, ∃ x, v.lookup values = .ok x :=
    List.forall_mem_singleton.2 ⟨_, lookup_text h⟩
  obtain ⟨found, hfound⟩ := exists_resolve hinputs
  have hname : fillPart values found (.slot "namespace") = .ok namespaceName.toList :=
    fillPart_text hfound rfl h
  exact ⟨_, fill_of_pieces hfound (.cons rfl (.cons hname (.cons rfl .nil)))⟩

theorem isRoot_rootPieces : IsRoot rootPieces.inputs headDoc pythonString :=
  ⟨rfl, rfl, rfl, rfl⟩

/-- The texts of the pieces of a root file. -/
def rootText (title version : String) (description types url functions space children : List Char) :
    List (List Char) :=
  ["\"\"\"\n".toList, title.toList, " ".toList, version.toList, "\n\n".toList, description,
    ("\n\"\"\"\n" ++ rootImports ++ "\n").toList, types, "\nBASE_URL = ".toList, url,
    ("\n" ++ rootSetup ++ "\n    \"\"\"Entry point of the ").toList, title.toList,
    " client; nested classes mirror the URL tree.\"\"\"\n\n    ".toList, functions, "\n".toList, space,
    "\n    ".toList, children, "\n".toList]

/-- The root file before the lines that are to go are gone. -/
theorem exists_fill_rootPieces {values : Table Json} {title version : String}
    {description : Option String} (h : Supplies values title version description) {hasTypes : Bool}
    (htypes : values.get? "has_schemas" = some (.bool hasTypes)) :
    ∃ types url functions space children : List Char, rootPieces.fill values none =
      .ok (finish 0 (rootText title version (described headDoc description) types url functions space
        children).flatten) := by
  obtain ⟨namespaceName, hnamespace⟩ := h.namespace_eq
  obtain ⟨url, hurl⟩ := h.base_url_eq
  obtain ⟨isEndpoint, hisEndpoint⟩ := h.is_endpoint_eq
  obtain ⟨hasSpace, hhasSpace⟩ := h.space_eq
  obtain ⟨hasChildren, hhasChildren⟩ := h.has_children_eq
  have hinputs : ∀ v ∈ rootPieces.inputs, ∃ x, v.lookup values = .ok x := by
    simp only [rootPieces, List.forall_mem_cons]
    exact ⟨⟨_, lookup_text h.title_eq⟩, ⟨_, lookup_text h.version_eq⟩,
      exists_lookup_description h.description_eq headDoc, exists_lookup_condition htypes,
      ⟨_, lookup_url hurl pythonString⟩, exists_lookup_condition hisEndpoint,
      exists_lookup_condition hhasSpace, exists_lookup_condition hhasChildren, List.forall_mem_nil _⟩
  obtain ⟨found, hfound⟩ := exists_resolve hinputs
  obtain ⟨types, htypes⟩ :=
    exists_fillPart_branch (exists_fill_typesBranch hnamespace) found "has_schemas" true
  obtain ⟨url, functions, space, children, hpieces⟩ := exists_pieces h isRoot_rootPieces hfound
  refine ⟨types, url, functions, space, children, fill_of_pieces hfound ?_⟩
  exact .cons rfl (.cons hpieces.title_eq (.cons rfl (.cons hpieces.version_eq (.cons rfl
    (.cons hpieces.description_eq (.cons rfl (.cons htypes (.cons rfl (.cons hpieces.base_url_eq
    (.cons rfl (.cons hpieces.title_eq (.cons rfl (.cons hpieces.functions_eq (.cons rfl
    (.cons hpieces.space_eq (.cons rfl (.cons hpieces.children_eq (.cons rfl .nil))))))))))))))))))

end Python

namespace Kotlin

/-- The lines between the package of a root file and its comment. -/
def rootImports : String :=
  Text.join "\n" [
    "",
    "import io.ktor.client.HttpClient",
    "import io.ktor.client.call.body",
    "import io.ktor.client.plugins.defaultRequest",
    "import io.ktor.client.request.header",
    "import io.ktor.client.request.parameter",
    "import io.ktor.client.request.request",
    "import io.ktor.client.request.setBody",
    "import io.ktor.http.ContentType",
    "import io.ktor.http.HttpMethod",
    "import io.ktor.http.contentType",
    ""]

/-- The lines between the address of the server and the operations. -/
def rootSetup : String :=
  Text.join "\n" [
    "",
    "    var client: HttpClient = HttpClient \x7b",
    "        defaultRequest \x7b url(BASE_URL) \x7d",
    "    \x7d",
    ""]

theorem scan_rootSource : scan rootSource = .ok [
    .text "package ", .placeholder "namespace" ⟨1, 8⟩, .text ("\n" ++ rootImports ++ "\n/**\n * "),
    .placeholder "title" ⟨15, 3⟩, .text " ", .placeholder "version" ⟨15, 11⟩, .text "\n * ",
    .placeholder "description" ⟨16, 3⟩,
    .text "\n */\nobject API \x7b\n    const val BASE_URL: String = ",
    .placeholder "base_url" ⟨19, 33⟩, .text ("\n" ++ rootSetup ++ "\n    "),
    .conditional "is_endpoint" "%functions%" true ⟨25, 4⟩, .text "\n",
    .conditional "space" "" true ⟨26, 0⟩, .text "\n    ",
    .conditional "has_children" "%children%" true ⟨27, 4⟩, .text "\n\x7d\n"] :=
  scan_of_agrees (by decide +kernel)

/-- The template of the root file. -/
def rootPieces : Template where
  parts := [.text "package ", .slot "namespace", .text ("\n" ++ rootImports ++ "\n/**\n * "),
    .slot "title", .text " ", .slot "version", .text "\n * ", .slot "description",
    .text "\n */\nobject API \x7b\n    const val BASE_URL: String = ", .slot "base_url",
    .text ("\n" ++ rootSetup ++ "\n    "), .branch "is_endpoint" true (listBranch "functions"),
    .text "\n", .branch "space" true emptyBranch, .text "\n    ",
    .branch "has_children" true (listBranch "children"), .text "\n\x7d\n"]
  inputs := [{ name := "namespace" }, { name := "title" }, { name := "version" },
    { docDeclaration "description" (ofText fun s => .ok (headComment s)) with form := .plain },
    { name := "base_url", format := ofText fun s => .ok (kotlinString s) },
    { name := "is_endpoint", form := .wholeLine }, { name := "space", form := .wholeLine },
    { name := "has_children", form := .wholeLine }]
  indent := 0

/-- What is declared for the root file. -/
def rootDeclarations : List Declaration :=
  scopeDeclarations ++
    [docDeclaration "description" (ofText fun s => .ok (headComment s)),
      { name := "base_url", format := ofText fun s => .ok (kotlinString s) }]

theorem rootTemplate_eq : rootTemplate = .ok rootPieces := by
  have hroot : rootTemplate = ofSource rootDeclarations rootSource 0 := rfl
  have hmembers : ofSource rootDeclarations "%functions%" 4 = .ok (listBranch "functions") ∧
      ofSource rootDeclarations "%children%" 4 = .ok (listBranch "children") := ofSource_members rfl rfl
  have hfour : ((4 : Nat) : Int) = 4 := rfl
  rw [hroot, ofSource_eq, scan_rootSource]
  simp only [ofScan, assemble, Int.ofNat_zero, hfour, hmembers, ofSource_empty]
  rfl

theorem isRoot_rootPieces : IsRoot rootPieces.inputs headComment kotlinString :=
  ⟨rfl, rfl, rfl, rfl⟩

/-- The texts of the pieces of a root file. -/
def rootText (package : List Char) (title version : String)
    (description url functions space children : List Char) : List (List Char) :=
  ["package ".toList, package, ("\n" ++ rootImports ++ "\n/**\n * ").toList, title.toList, " ".toList,
    version.toList, "\n * ".toList, description,
    "\n */\nobject API \x7b\n    const val BASE_URL: String = ".toList, url,
    ("\n" ++ rootSetup ++ "\n    ").toList, functions, "\n".toList, space, "\n    ".toList, children,
    "\n\x7d\n".toList]

/-- The root file before the lines that are to go are gone. -/
theorem exists_fill_rootPieces {values : Table Json} {title version : String}
    {description : Option String} (h : Supplies values title version description) :
    ∃ package url functions space children : List Char, rootPieces.fill values none =
      .ok (finish 0 (rootText package title version (described headComment description) url functions
        space children).flatten) := by
  obtain ⟨namespaceName, hnamespace⟩ := h.namespace_eq
  obtain ⟨url, hurl⟩ := h.base_url_eq
  obtain ⟨isEndpoint, hisEndpoint⟩ := h.is_endpoint_eq
  obtain ⟨hasSpace, hhasSpace⟩ := h.space_eq
  obtain ⟨hasChildren, hhasChildren⟩ := h.has_children_eq
  have hinputs : ∀ v ∈ rootPieces.inputs, ∃ x, v.lookup values = .ok x := by
    simp only [rootPieces, List.forall_mem_cons]
    exact ⟨⟨_, lookup_text hnamespace⟩, ⟨_, lookup_text h.title_eq⟩, ⟨_, lookup_text h.version_eq⟩,
      exists_lookup_description h.description_eq headComment, ⟨_, lookup_url hurl kotlinString⟩,
      exists_lookup_condition hisEndpoint, exists_lookup_condition hhasSpace,
      exists_lookup_condition hhasChildren, List.forall_mem_nil _⟩
  obtain ⟨found, hfound⟩ := exists_resolve hinputs
  have hpackage : fillPart values found (.slot "namespace") = .ok namespaceName.toList :=
    fillPart_text hfound rfl hnamespace
  obtain ⟨url, functions, space, children, hpieces⟩ := exists_pieces h isRoot_rootPieces hfound
  refine ⟨namespaceName.toList, url, functions, space, children, fill_of_pieces hfound ?_⟩
  exact .cons rfl (.cons hpackage (.cons rfl (.cons hpieces.title_eq (.cons rfl
    (.cons hpieces.version_eq (.cons rfl (.cons hpieces.description_eq (.cons rfl
    (.cons hpieces.base_url_eq (.cons rfl (.cons hpieces.functions_eq (.cons rfl
    (.cons hpieces.space_eq (.cons rfl (.cons hpieces.children_eq (.cons rfl .nil))))))))))))))))

end Kotlin

end Dialect

end ApiClient
