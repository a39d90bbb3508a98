import ApiClient.Client.Generation
import ApiClient.Command.Arguments
import ApiClient.Document.Reading
import ApiClient.Files.Disk
import ApiClient.Json.Reader

/-!
# Runs of the command line

A run empties the output directory, makes a client of the document and writes its files. When that
fails, the output directory gets back what was in it. `Command.run` is a run from its arguments to
its report, and the disk after it.

The document and the templates are read after the output directory has been emptied, so a run that
finds them in there fails.
-/

namespace ApiClient.Command

/-! ## Troubles -/

/-- Why a run does not write a client. -/
inductive Trouble where
  /-- No file is where the document should be. -/
  | noDocument (path : Path)
  | disk (e : Disk.Error)
  | notJson (path : Path)
  /-- The document has an integer of so many digits. -/
  | hugeNumber (digits : Nat)
  | failed (f : Failure)

/-- What ends a run that nothing foresees. -/
inductive Crash where
  | disk (e : Disk.Error)
  | cause (c : Cause)

/-- How a run ends: with an exit code, or with a crash. -/
inductive Exit where
  | code (code : Nat)
  | crash (crash : Crash)

namespace Trouble

/-- How a run with a trouble ends. -/
def exit : Trouble → Exit
  | noDocument _ => .code 1
  | disk (.missing _) => .code 1
  | disk .nulCharacter => .code 3
  | disk e => .crash (.disk e)
  | notJson _ => .code 2
  | hugeNumber _ => .code 3
  | failed f => if f.cause.isForeseen then .code 3 else .crash (.cause f.cause)

/-- The text of a trouble. -/
def message : Trouble → String
  | noDocument path => String.join ["Specification file not found: ", path.text]
  | disk (.missing path) => String.join ["File not found: ", path.text]
  | disk .nulCharacter => "embedded null byte"
  | disk _ => ""
  | notJson path => path.text ++ " is not valid JSON: ..."
  | hugeNumber digits =>
    String.join [
      "Exceeds the limit (", toString Json.maxDigits,
      " digits) for integer string conversion: value has ", toString digits,
      " digits; use sys.set_int_max_str_digits() to increase the limit"]
  | failed f => f.message

/-- A line about an error. -/
def errorLine (message : String) : String :=
  String.join ["Error: ", message, "\n"]

/-- The lines about a trouble; a crash has none. -/
def lines (t : Trouble) : String :=
  match t.exit with
  | .code _ => errorLine t.message
  | .crash _ => ""

end Trouble

/-! ## Making a client -/

/-- What came of making a client: its files or a trouble, the document as far as it was read, and
the journal. -/
structure Attempt where
  files : Except Trouble Client.Files
  document : Option Document
  journal : Journal

namespace Request

/-- The templates of a request. -/
def templates (r : Request) (d : Disk) : Client.PageSource :=
  match r.templateDir with
  | none | some none => .bundled
  | some (some dir) => .directory dir fun name => (d.read (dir.append (.ofString name))).toOption

/-- The document that a file holds. -/
def readDocument (r : Request) (d : Disk) : Except Trouble Document :=
  match d.read r.spec with
  | .error e => .error (.disk e)
  | .ok text =>
    match Json.read text with
    | .error .malformed => .error (.notJson r.spec)
    | .error (.tooManyDigits digits) => .error (.hugeNumber digits)
    | .ok value => (Document.ofJson value).mapError fun e => .failed { cause := .ofDocument e }

/-- The value of an option as settings take it, an empty array for none. -/
def settingOf : Value String → Json
  | some s => .str s
  | none => .arr []

/-- The settings of a request for a document and an output directory. -/
def settings (r : Request) (top : Path) (document : Document) :
    Except Settings.Refusal Settings :=
  Settings.make (.str top.text) (.str (Client.namespaceFor r.namespaceName document))
    (settingOf (r.dialect.map Dialect.name))
    ((r.templateDir.map fun dir => settingOf (dir.map Path.text)).getD .null)

/-- The entry about reading that starts. -/
def startEntry (r : Request) : Entry :=
  ⟨.info, .reading,
    "Parsing " ++ r.spec.text ++ " into an object per the OpenAPI 3.0.3 specification"⟩

/-- The entry about a document that has been read. -/
def readEntry (d : Document) : Entry :=
  ⟨.info, .reading,
    "Parsed '" ++ d.info.title ++ "' v" ++ d.info.version ++ ": " ++ toString d.paths.length ++
      " paths, " ++ toString d.operationCount ++ " operations, " ++
      toString d.components.schemas.length ++ " schemas"⟩

/-- Makes a client of the document that lies on a disk. -/
def attempt (r : Request) (top : Path) (d : Disk) : Attempt :=
  match r.readDocument d with
  | .error t => { files := .error t, document := none, journal := [r.startEntry] }
  | .ok document =>
    let journal := [r.startEntry, readEntry document]
    match r.settings top document with
    | .error e =>
      { files := .error (.failed { cause := .ofSettings e }), document := some document, journal }
    | .ok settings =>
      let (files, more) := Client.generate settings (r.templates d) document
      { files := files.mapError .failed, document := some document, journal := journal ++ more }

end Request

/-! ## Reports -/

/-- What a run leaves besides the disk: how it ended and what it wrote to the two outputs. -/
structure Report where
  exit : Exit
  output : String := ""
  errors : String := ""

/-- Lines as one text. -/
def lines (ls : List String) : String :=
  String.join (ls.map (· ++ "\n"))

/-- What is said about a document that has been read. -/
def documentLines (d : Document) : String :=
  lines [
    d.info.title ++ " " ++ d.info.version ++ ": " ++ toString d.paths.length ++ " paths",
    "Parsed " ++ toString d.operationCount ++ " operations",
    "Found " ++ toString d.components.schemas.length ++ " component schemas"]

/-- What is said about the files of a client: their paths, sorted by their parts. -/
def fileLines (top : Path) (files : Client.Files) : String :=
  let paths := (files.keys.map fun key => Path.ofString key).mergeSort fun a b => ¬ b.parts < a.parts
  lines (("Generated " ++ toString files.length ++ " files:") ::
    paths.map fun path => "  " ++ (top.append path).text)

namespace Attempt

/-- The part of the journal that is written. -/
def journalText (a : Attempt) (verbose : Bool) : String :=
  String.join ((a.journal.filter fun e => verbose || e.level.isWarning).map Entry.line)

/-- What is said about the document. -/
def documentText (a : Attempt) (verbose : Bool) : String :=
  match a.document with
  | some d => if verbose then documentLines d else ""
  | none => ""

end Attempt

/-! ## Runs -/

namespace Request

/-- The report of a run that wrote a client. -/
def success (r : Request) (top : Path) (a : Attempt) (files : Client.Files) : Report :=
  { exit := .code 0
    output :=
      a.documentText r.verbose ++ (if r.verbose then fileLines top files else "") ++
        "Client generated successfully in " ++ top.text ++ "\n"
    errors := a.journalText r.verbose }

/-- Puts back what was in the output directory, or takes it away if nothing was. -/
def undo (top : Path) (saved : List (Place × Item)) : Disk.Action Unit :=
  if saved = [] then modify (Disk.removeTree top) else Disk.restore top saved

/-- The line about putting back what was in the output directory. -/
def undoLine (top : Path) (saved : List (Place × Item)) : String :=
  if saved = [] then ""
  else
    Trouble.errorLine
      ("Generation failed, restoring the previous content of " ++ top.text)

/-- The report of a run that failed with `trouble`, or while it put things back. -/
def failure (r : Request) (top : Path) (a : Attempt) (saved : List (Place × Item))
    (trouble : Trouble) (undone : Except Disk.Error Unit) : Report :=
  let last :=
    match undone with
    | .ok _ => trouble
    | .error e => .disk e
  { exit := last.exit
    output := a.documentText r.verbose
    errors := a.journalText r.verbose ++ undoLine top saved ++ last.lines }

/-- Writes the files of an attempt. -/
def writeFiles (top : Path) (files : Except Trouble Client.Files) (d : Disk) :
    Except Trouble Client.Files × Disk :=
  match files with
  | .error t => (.error t, d)
  | .ok files =>
    match (Disk.writeAll top files).run.run d with
    | (.ok _, d) => (.ok files, d)
    | (.error e, d) => (.error (.disk e), d)

/-- Makes a client in an output directory that is empty; `saved` was in it before. -/
def fill (r : Request) (top : Path) (saved : List (Place × Item)) (d : Disk) : Report × Disk :=
  let a := r.attempt top d
  match writeFiles top a.files d with
  | (.ok files, d) => (r.success top a files, d)
  | (.error trouble, d) =>
    let (undone, d) := (undo top saved).run.run d
    (r.failure top a saved trouble undone, d)

/-- The report of a run that ended before it began to read. -/
def refusal (t : Trouble) : Report :=
  { exit := t.exit, errors := t.lines }

/-- What is in the output directory before a run. -/
def saved (top : Path) (d : Disk) : Except Disk.Error (List (Place × Item)) :=
  match d.isDirectory top with
  | .ok true => .ok (d.contents top)
  | .ok false => .ok []
  | .error e => .error e

/-- Carries out a request in an output directory. -/
def runIn (r : Request) (top : Path) (d : Disk) : Report × Disk :=
  match saved top d with
  | .error e => (refusal (.disk e), d)
  | .ok saved =>
    match (Disk.makeEmpty top).run.run d with
    | (.error e, d) => (refusal (.disk e), d)
    | (.ok _, d) => r.fill top saved d

/-- Carries out a request. -/
def run (r : Request) (d : Disk) : Report × Disk :=
  match d.isFile r.spec, r.output with
  | .error e, _ => (refusal (.disk e), d)
  | .ok false, _ => (refusal (.noDocument r.spec), d)
  | .ok true, none => (refusal (.failed { cause := .misfit .operation }), d)
  | .ok true, some top => r.runIn top d

end Request

/-- A run of the command line: its report, unless the arguments stop it, and the disk after it. -/
def run (arguments : List String) (d : Disk) : Except Stop Report × Disk :=
  match Request.ofArguments arguments with
  | .error stop => (.error stop, d)
  | .ok r =>
    let (report, d) := r.run d
    (.ok report, d)

end ApiClient.Command
