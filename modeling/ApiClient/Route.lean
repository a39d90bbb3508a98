import ApiClient.Json.Basic
import ApiClient.Text.Blank

/-!
# The tree of routes

The URLs of a document as a tree with one node per segment. `Route.ofPaths` puts every URL with
its item on the node that its segments lead to, and fails when two URLs lead to the same node;
`Route.walk` visits the nodes depth first; `Route.format` draws the tree.
-/

namespace ApiClient

/-- A node of the tree: the URL and the item that end here, if any do, and the nodes below by
their segments, in the order of their first use. -/
structure Route (α : Type) where
  url : Option String
  item : Option α
  children : List (String × Route α)

namespace Route

variable {α : Type}

/-- Two URLs that lead to the same node. -/
structure Conflict where
  first : String
  second : String
  deriving DecidableEq, Repr

/-- The segments of a URL; empty ones do not count. -/
def segments (url : String) : List String :=
  (Text.split '/' url).filter (· ≠ "")

/-- The parameter that a segment binds: the name between its braces. -/
def parameterOf (segment : String) : Option String :=
  match segment.toList with
  | '\x7b' :: rest =>
    match rest.getLast? with
    | some '\x7d' =>
      let name := rest.dropLast
      if name = [] then none else some (String.ofList name)
    | _ => none
  | _ => none

/-- A node without anything. -/
def empty : Route α := ⟨none, none, []⟩

/-- The root of a tree without paths. -/
def root : Route α := ⟨some "/", none, []⟩

/-- Puts `item` at the node that `path` leads to, and makes the nodes on the way. -/
def insert (url : String) (item : α) : List String → Route α → Except Conflict (Route α)
  | [], node =>
    match node.item with
    | some _ => .error ⟨node.url.getD "", url⟩
    | none => .ok { node with url := some url, item := some item }
  | segment :: path, node => do
    let child ← insert url item path ((Table.get? node.children segment).getD empty)
    return { node with children := Table.put node.children segment child }

/-- Adds paths to a tree one after another. -/
def insertAll : List (String × α) → Route α → Except Conflict (Route α)
  | [], node => .ok node
  | (url, item) :: rest, node => do
    let node ← insert url item (segments url) node
    insertAll rest node

/-- The tree of the paths of a document. -/
def ofPaths (paths : Table α) : Except Conflict (Route α) :=
  insertAll paths root

mutual

/-- A node and all nodes below it, depth first. -/
def walk : Route α → List (Route α)
  | ⟨url, item, children⟩ => ⟨url, item, children⟩ :: walkAll children

/-- The nodes of a list of subtrees, depth first. -/
def walkAll : List (String × Route α) → List (Route α)
  | [] => []
  | (_, child) :: rest => walk child ++ walkAll rest

end

/-- The line of a node: its segment, the parameters bound above it, and a star if it is marked. -/
def line (depth : Nat) (segment : String) (inherited : List String) (marked : Bool) : String :=
  String.ofList (List.replicate depth '\t') ++ segment ++ "/" ++
    (if inherited = [] then "" else " [" ++ Text.join ", " inherited ++ "]") ++
    (if marked then " *" else "")

mutual

/-- The lines of a node and of those below it. -/
def formatLines (marked : α → Bool) (depth : Nat) (segment : String) (inherited : List String) :
    Route α → List String
  | ⟨_, item, children⟩ =>
    line depth segment inherited (item.any marked) ::
      formatChildren marked (depth + 1) (inherited ++ (parameterOf segment).toList) children

/-- The lines of a list of subtrees. -/
def formatChildren (marked : α → Bool) (depth : Nat) (inherited : List String) :
    List (String × Route α) → List String
  | [] => []
  | (segment, child) :: rest =>
    formatLines marked depth segment inherited child ++
      formatChildren marked depth inherited rest

end

/-- The tree with one node per line, indented by depth; `marked` says which items get a star. -/
def format (marked : α → Bool) (tree : Route α) : String :=
  Text.join "\n" (formatLines marked 0 "" [] tree)

end Route

end ApiClient
