import ApiClient.Command.Run

/-!
# The program

A run is worked out on a disk that holds what the run reads: the document, the templates and what
is in the output directory. The directory itself is touched when the run has succeeded, and then
holds the files that the run left there.
-/

namespace ApiClient.Command

/-- How the program is called. -/
def usage : String :=
  String.join [
    "usage: api-client [-h] [-o DIRECTORY] [-n NAMESPACE] [-l LANGUAGE] [-t DIRECTORY] [-v] ",
    "SPEC_FILE\n"]

/-- The text of a file, if it can be read. -/
def readText? (path : Path) : IO (Option String) := do
  try return some (← IO.FS.readFile path.text) catch _ => return none

/-- What a directory is before a run, told apart as far as a run can see. -/
def present (path : Path) : IO (Disk.Action Unit) := do
  match ← readText? path with
  | some text => return Disk.write path text
  | none =>
    try
      IO.FS.removeDir path.text
      IO.FS.createDir path.text
      return Disk.makeDirectories path
    catch
    | .noFileOrDirectory .. => return pure ()
    | _ => return Disk.write (path.append (.ofString "previous")) ""

/-- The files that a run may read. -/
def inputs (r : Request) : List Path :=
  let templates := (Dialect.all.flatMap Client.pages).map fun page => Path.ofString page.2
  r.spec :: (r.templateDir.join.map fun dir => templates.map dir.append).getD []

/-- The disk that a run is worked out on. -/
def load (r : Request) : IO Disk := do
  let mut d := Disk.empty
  if let some top := r.output then
    d := ((← present top).run.run d).2
  for path in inputs r do
    if let some text ← readText? path then
      d := ((Disk.write path text).run.run d).2
  return d

/-- Writes what a run left in the output directory. -/
def store (top : Path) (d : Disk) : IO Unit := do
  try IO.FS.removeDirAll top.text catch _ => pure ()
  IO.FS.createDirAll top.text
  for (place, item) in d.contents top do
    let path := top.append { root := "", parts := place }
    match item with
    | .directory => IO.FS.createDirAll path.text
    | .file text =>
      IO.FS.createDirAll path.parent.text
      IO.FS.writeFile path.text text

/-- Carries out a request. -/
def perform (r : Request) : IO UInt32 := do
  let (report, d) := r.run (← load r)
  IO.eprint report.errors
  match report.exit with
  | .code 0 =>
    if let some top := r.output then store top d
    IO.print report.output
    return 0
  | .code n =>
    IO.print report.output
    return n.toUInt32
  | .crash _ =>
    IO.print report.output
    IO.eprint "The run was given up.\n"
    return 1

end ApiClient.Command

/-- The program. -/
def main (arguments : List String) : IO UInt32 := do
  match ApiClient.Command.Request.ofArguments arguments with
  | .error .help =>
    IO.print ApiClient.Command.usage
    return 0
  | .error .misuse =>
    IO.eprint ApiClient.Command.usage
    return 2
  | .ok r => ApiClient.Command.perform r
