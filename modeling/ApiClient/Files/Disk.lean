import ApiClient.Files.Path

/-!
# Disks

A disk is a tree of directories and files, seen from a working directory. What lies in a place is
`Disk.find?`; the places of a tree are the lists of names that begin with the place of its top.

Looking up leaves a disk as it is and is a function on it (`locate`, `lookup`, `isFile`). What
changes a disk and can fail is an `Action`: it leaves behind the disk as far as it came.
-/

namespace ApiClient

/-- What lies in a place of a disk. -/
inductive Item where
  | file (text : String)
  | directory
  deriving DecidableEq, Repr

/-- The names on the way down from the root. -/
abbrev Place := List String

/-- The items of a disk by their places, and the directory from which relative paths start. The
root is a directory without an entry. -/
structure Disk where
  items : List (Place × Item)
  workingDir : Place
  deriving Repr

namespace Disk

/-- Why the disk refuses something. -/
inductive Error where
  | missing (path : Path)
  | notDirectory
  | isDirectory
  | alreadyExists
  | nameTooLong
  | nulCharacter
  deriving DecidableEq, Repr

/-- Whether the refusal only says that nothing is there. -/
def Error.isAbsence : Error → Bool
  | missing _ | notDirectory | nulCharacter => true
  | isDirectory | alreadyExists | nameTooLong => false

/-! ## Places -/

/-- What lies in a place. -/
def find? (d : Disk) (place : Place) : Option Item :=
  if place = [] then some .directory else d.items.lookup place

/-- Puts an item into a place. -/
def put (d : Disk) (place : Place) (item : Item) : Disk :=
  { d with items := (place, item) :: d.items.filter (·.1 ≠ place) }

/-- Whether a place lies in the tree below `top`. -/
def isBelow (top place : Place) : Bool :=
  top.isPrefixOf place && place ≠ top

/-- Takes away what lies below a place. -/
def clear (d : Disk) (top : Place) : Disk :=
  { d with items := d.items.filter fun e => !isBelow top e.1 }

/-- Takes away what lies in a place and below it. -/
def prune (d : Disk) (top : Place) : Disk :=
  { d with items := d.items.filter fun e => !top.isPrefixOf e.1 }

/-- What lies below a place, by the names on the way down from there. -/
def below (d : Disk) (top : Place) : List (Place × Item) :=
  (d.items.filter fun e => isBelow top e.1).map fun e => (e.1.drop top.length, e.2)

/-- Puts items below a place. -/
def graft (d : Disk) (top : Place) (items : List (Place × Item)) : Disk :=
  items.foldr (fun e d => d.put (top ++ e.1) e.2) d

/-! ## Looking up paths -/

/-- The greatest number of bytes in a name. -/
def maxNameBytes : Nat := 255

/-- The greatest number of bytes in a path. -/
def maxPathBytes : Nat := 4095

/-- The place that `names` lead to. On the way there are only directories. -/
def descend (d : Disk) (path : Path) : Place → List String → Except Error Place
  | place, [] => .ok place
  | place, name :: rest =>
    match d.find? place with
    | none => .error (.missing path)
    | some (.file _) => .error .notDirectory
    | some .directory =>
      if name = ".." then d.descend path place.dropLast rest
      else if maxNameBytes < name.utf8ByteSize then .error .nameTooLong
      else d.descend path (place ++ [name]) rest

/-- The place that a path leads to, whether or not something lies there. -/
def locate (d : Disk) (path : Path) : Except Error Place :=
  if path.parts.any fun name => '\x00' ∈ name.toList then .error .nulCharacter
  else if maxPathBytes < path.text.utf8ByteSize then .error .nameTooLong
  else d.descend path (if path.root = "" then d.workingDir else []) path.parts

/-- What a path leads to. -/
def lookup (d : Disk) (path : Path) : Except Error Item :=
  match d.locate path with
  | .error e => .error e
  | .ok place =>
    match d.find? place with
    | some item => .ok item
    | none => .error (.missing path)

/-- Whether a path leads to an item that `accept` accepts. -/
def leadsTo (d : Disk) (accept : Item → Bool) (path : Path) : Except Error Bool :=
  match d.lookup path with
  | .ok item => .ok (accept item)
  | .error e => if e.isAbsence then .ok false else .error e

/-- Whether a path leads to a file. -/
def isFile (d : Disk) (path : Path) : Except Error Bool :=
  d.leadsTo (· ≠ .directory) path

/-- Whether a path leads to a directory. -/
def isDirectory (d : Disk) (path : Path) : Except Error Bool :=
  d.leadsTo (· = .directory) path

/-- Whether a path leads to something. -/
def leadsAnywhere (d : Disk) (path : Path) : Bool :=
  match d.lookup path with
  | .ok _ => true
  | .error _ => false

/-- The text of the file that a path leads to. -/
def read (d : Disk) (path : Path) : Except Error String :=
  match d.lookup path with
  | .ok (.file text) => .ok text
  | .ok .directory => .error .isDirectory
  | .error e => .error e

/-- What lies below the place a path leads to. -/
def contents (d : Disk) (path : Path) : List (Place × Item) :=
  match d.locate path with
  | .ok place => d.below place
  | .error _ => []

/-! ## Changes -/

/-- Takes away the directory that a path leads to with all that is in it. A path that ends in no
name of its own keeps its directory and loses what is in it; other items stay. -/
def removeTree (path : Path) (d : Disk) : Disk :=
  match d.locate path with
  | .error _ => d
  | .ok place =>
    match d.find? place with
    | some .directory => if path.endsInName then d.prune place else d.clear place
    | _ => d

/-- A change of a disk. If it fails, what was done before stays done. -/
abbrev Action := ExceptT Error (StateM Disk)

/-- Makes a directory in one that is there. -/
def makeDirectory (path : Path) : Action Unit := do
  let d ← get
  let place ← d.locate path
  match d.find? place with
  | some _ => throw .alreadyExists
  | none => set (d.put place .directory)

/-- Puts up with a refusal to make a directory that is there. -/
def settleFor (path : Path) (e : Error) : Action Unit := do
  if ← (← get).isDirectory path then pure () else throw e

/-- Makes a directory in one that is there, unless it is there itself. -/
def makeDirectoryOnce (path : Path) : Action Unit :=
  tryCatch (makeDirectory path) fun
    | .missing missing => throw (.missing missing)
    | e => settleFor path e

/-- Makes a directory, and those on the way to it, as far as they are not there. -/
def makeDirectories (path : Path) : Action Unit :=
  tryCatch (makeDirectory path) fun
    | .missing missing =>
      if _ : path.parts = [] then throw (.missing missing)
      else do
        makeDirectories path.parent
        makeDirectoryOnce path
    | e => settleFor path e
  termination_by path.parts.length
  decreasing_by exact Path.length_parent_lt ‹_›

/-- Makes a directory that is not there yet, and those on the way to it. -/
def makeNewDirectory (path : Path) : Action Unit :=
  if path.parts.length ≤ 1 then makeDirectory path
  else do
    if (← get).leadsAnywhere path.parent then pure ()
    else
      tryCatch (makeNewDirectory path.parent) fun
        | .alreadyExists => pure ()
        | e => throw e
    makeDirectory path
  termination_by path.parts.length
  decreasing_by
    apply Path.length_parent_lt
    rintro h
    simp_all

/-- Writes a file, in a directory that is made if it is not there. -/
def write (path : Path) (text : String) : Action Unit := do
  makeDirectories path.parent
  let d ← get
  let place ← d.locate path
  match d.find? place with
  | some .directory => throw .isDirectory
  | _ => set (d.put place (.file text))

/-- Writes files below a directory. -/
def writeAll (top : Path) : List (String × String) → Action Unit
  | [] => pure ()
  | (path, text) :: rest => do
    write (top.append (.ofString path)) text
    writeAll top rest

/-- Empties a directory, which is made if it is not there. -/
def makeEmpty (path : Path) : Action Unit := do
  modify (removeTree path)
  makeDirectories path

/-- Gives a directory the content that it had. -/
def restore (path : Path) (items : List (Place × Item)) : Action Unit := do
  modify (removeTree path)
  makeNewDirectory path
  let d ← get
  let place ← d.locate path
  set (d.graft place items)

/-! ## Disks of files -/

/-- A disk with an empty working directory. -/
def empty : Disk :=
  { items := [(["work"], .directory)], workingDir := ["work"] }

/-- A disk with files in its working directory. -/
def ofFiles (files : List (String × String)) : Disk :=
  ((writeAll (.ofString "") files).run.run empty).2

/-- The files below the working directory, by their relative paths. -/
def files (d : Disk) : List (String × String) :=
  (d.below d.workingDir).filterMap fun e =>
    match e.2 with
    | .file text => some (Text.join "/" e.1, text)
    | .directory => none

/-- The directories below the working directory in which nothing lies. -/
def emptyDirectories (d : Disk) : List String :=
  let items := d.below d.workingDir
  (items.filter fun e => e.2 = .directory && !items.any fun f => isBelow e.1 f.1).map
    fun e => Text.join "/" e.1

end Disk

end ApiClient
