import ApiClient.Dialect.Basic
import ApiClient.Files.Path
import ApiClient.Text.CharClass

/-!
# The arguments of the command line

A command line names one document and sets options. `Word.ofString?` says what an argument is on
its own: a text, the separator after which everything is a text, or options. `Request.ofArguments`
takes the words in order; what a line asks for in the end is a `Request`.

Long options may be shortened as far as one option is meant. Short options may share a word, and
the last of them may have its value in the same word. A value that is the separator is taken off
again, which leaves its option without one.
-/

namespace ApiClient.Command

/-- The options. -/
inductive Flag where
  | help | output | namespaceName | language | templateDir | verbose
  deriving DecidableEq, Repr

namespace Flag

/-- The options in order. -/
def all : List Flag := [help, output, namespaceName, language, templateDir, verbose]

/-- The letter of an option. -/
def letter : Flag → Char
  | help => 'h'
  | output => 'o'
  | namespaceName => 'n'
  | language => 'l'
  | templateDir => 't'
  | verbose => 'v'

/-- The long name of an option. -/
def name : Flag → String
  | help => "help"
  | output => "output"
  | namespaceName => "namespace"
  | language => "language"
  | templateDir => "template-dir"
  | verbose => "verbose"

/-- Whether an option has a value. -/
def takesValue : Flag → Bool
  | help | verbose => false
  | output | namespaceName | language | templateDir => true

/-- The option of a letter. -/
def ofLetter? (c : Char) : Option Flag :=
  all.find? (·.letter = c)

/-- The options whose long names begin with a text. -/
def startingWith (front : List Char) : List Flag :=
  all.filter fun f => front.isPrefixOf f.name.toList

end Flag

/-- Why a command line asks for no run: it asks for help, or it is not understood. -/
inductive Stop where
  | help | misuse
  deriving DecidableEq, Repr

/-! ## Words -/

/-- What an argument is on its own. -/
inductive Word where
  | text (text : String)
  | separator
  /-- The option of a letter, and what follows the letter, without an equals sign after it. -/
  | letters (flag : Flag) (rest : Option String)
  /-- An option by its long name, and the value after an equals sign. -/
  | long (flag : Flag) (value : Option String)
  /-- Something that looks like an option but is none. -/
  | unknown
  deriving DecidableEq, Repr

namespace Word

/-- Whether a character is a decimal digit. -/
def isDigit (c : Char) : Bool :=
  Text.inRanges Text.decimalDigits c

/-- Whether what follows a dash makes it a negative number. A line feed at the end does not
count. -/
def isNumber (cs : List Char) : Bool :=
  let cs := if cs.getLast? = some '\n' then cs.dropLast else cs
  match cs.dropWhile isDigit with
  | [] => !cs.isEmpty
  | '.' :: decimals => !decimals.isEmpty && decimals.all isDigit
  | _ => false

/-- A word that begins with a dash and holds no option. -/
def withoutOption (s : String) : Word :=
  if isNumber (s.toList.drop 1) || s.toList.contains ' ' then text s else unknown

/-- What follows the letter of an option in a word. -/
def afterLetter : List Char → Option String
  | [] => none
  | '=' :: rest => some (String.ofList rest)
  | rest => some (String.ofList rest)

/-- What an argument is on its own, unless it may mean several options. -/
def ofString? (s : String) : Option Word :=
  match s.toList with
  | ['-', '-'] => some separator
  | '-' :: '-' :: rest =>
    let value :=
      match rest.dropWhile (· ≠ '=') with
      | [] => none
      | _ :: value => some (String.ofList value)
    match Flag.startingWith (rest.takeWhile (· ≠ '=')) with
    | [] => some (withoutOption s)
    | [flag] => some (long flag value)
    | _ => none
  | '-' :: c :: rest =>
    match Flag.ofLetter? c with
    | some flag => some (letters flag (afterLetter rest))
    | none => some (withoutOption s)
  | _ => some (text s)

/-- What arguments are, in order. Behind a separator everything is a text. -/
def ofArguments? : List String → Option (List Word)
  | [] => some []
  | s :: rest =>
    match ofString? s with
    | none => none
    | some separator => some (separator :: rest.map text)
    | some word => (ofArguments? rest).map (word :: ·)

end Word

/-- How the options of a word end. -/
inductive Ending where
  /-- With an option that has no value. -/
  | complete
  /-- With an option and its value. -/
  | value (flag : Flag) (value : String)
  /-- With an option whose value is the next word. -/
  | wanting (flag : Flag)
  /-- The word is no option. -/
  | unknown
  deriving DecidableEq, Repr

/-- The options without values at the front of a letter word, and how it ends. Behind an option
without a value there has to be the letter of another. -/
def ofLetters (flag : Flag) : List Char → Except Stop (List Flag × Ending)
  | [] => .ok (if flag.takesValue then ([], .wanting flag) else ([flag], .complete))
  | c :: rest =>
    if flag.takesValue then .ok ([], .value flag (String.ofList (c :: rest)))
    else
      match Flag.ofLetter? c with
      | none => .error .misuse
      | some next => (ofLetters next rest).map fun (flags, ending) => (flag :: flags, ending)

/-- The options without values at the front of a word, and how it ends. -/
def Word.options : Word → Except Stop (List Flag × Ending)
  | text _ | separator | unknown => .ok ([], .unknown)
  | letters flag none | long flag none => ofLetters flag []
  | letters flag (some rest) =>
    if flag.takesValue then .ok ([], .value flag rest)
    else if rest = "" then .error .misuse
    else ofLetters flag rest.toList
  | long flag (some value) =>
    if flag.takesValue then .ok ([], .value flag value) else .error .misuse

/-! ## Requests -/

/-- The value of an option, none when it was taken off. -/
abbrev Value (α : Type) := Option α

/-- A command line as far as it is read: what it asks for so far, and what it left open. -/
structure Line where
  spec : Option String := none
  output : Value String := some "generated"
  namespaceName : Option String := none
  dialect : Value Dialect := some .python
  templateDir : Option (Value String) := none
  verbose : Bool := false
  /-- Options without values, and the option after them whose value has to be the next word. -/
  wanting : Option (List Flag × Flag) := none
  /-- Whether the last word has named the document. -/
  justNamed : Bool := false
  /-- Whether a word was left over. -/
  leftOver : Bool := false

namespace Line

/-- Sets an option that has no value. -/
def setFlag (l : Line) : Flag → Except Stop Line
  | .help => .error .help
  | .verbose => .ok { l with verbose := true }
  | _ => .ok l

/-- Sets options that have no values, one after another. -/
def setFlags (l : Line) : List Flag → Except Stop Line
  | [] => .ok l
  | flag :: rest =>
    match l.setFlag flag with
    | .ok l => l.setFlags rest
    | .error e => .error e

/-- Sets an option to a value. -/
def setGiven (l : Line) (value : String) : Flag → Except Stop Line
  | .output => .ok { l with output := some value }
  | .namespaceName => .ok { l with namespaceName := some value }
  | .templateDir => .ok { l with templateDir := some (some value) }
  | .language =>
    match Dialect.ofName? value with
    | some dialect => .ok { l with dialect := some dialect }
    | none => .error .misuse
  | .help | .verbose => .ok l

/-- Takes the value of an option off. A namespace without a value is none. -/
def setNone (l : Line) : Flag → Line
  | .output => { l with output := none }
  | .namespaceName => { l with namespaceName := none }
  | .templateDir => { l with templateDir := some none }
  | .language => { l with dialect := none }
  | .help | .verbose => l

/-- Sets an option to a value, or to none for a separator. -/
def setValue (l : Line) (value : String) (flag : Flag) : Except Stop Line :=
  if value = "--" then .ok (l.setNone flag) else l.setGiven value flag

/-- Leaves a word over. -/
def leave (l : Line) : Line :=
  { l with leftOver := true, justNamed := false }

/-- Takes a text: the first names the document, and others are left over. -/
def takeText (l : Line) (s : String) : Line :=
  if l.spec = none then { l with spec := some s, justNamed := true } else l.leave

/-- Takes a separator. It belongs to the text that names the document, before it or behind it. -/
def takeSeparator (l : Line) : Line :=
  if l.spec = none ∨ l.justNamed then { l with justNamed := false } else l.leave

/-- Takes the options of a word. -/
def takeOptions (l : Line) (flags : List Flag) : Ending → Except Stop Line
  | .complete => l.setFlags flags
  | .unknown => (l.setFlags flags).map leave
  | .wanting flag => .ok { l with wanting := some (flags, flag) }
  | .value flag value =>
    match l.setFlags flags with
    | .ok l => l.setValue value flag
    | .error e => .error e

/-- Takes a word that no option is waiting for. -/
def takeWord (l : Line) (word : Word) : Except Stop Line :=
  match word with
  | .text s => .ok (l.takeText s)
  | .separator => .ok l.takeSeparator
  | word =>
    match word.options with
    | .ok (flags, ending) => { l with justNamed := false }.takeOptions flags ending
    | .error e => .error e

/-- Takes a word: the value of the option that is waiting for one, or else for itself. -/
def step (l : Line) (word : Word) : Except Stop Line :=
  match l.wanting, word with
  | none, word => l.takeWord word
  | some (flags, flag), .text value =>
    { l with wanting := none }.takeOptions flags (.value flag value)
  | some _, _ => .error .misuse

/-- Takes words in order. -/
def takeAll (l : Line) : List Word → Except Stop Line
  | [] => .ok l
  | word :: rest =>
    match l.step word with
    | .ok l => l.takeAll rest
    | .error e => .error e

end Line

/-- What a command line asks for. -/
structure Request where
  spec : Path
  output : Value Path
  namespaceName : Option String
  dialect : Value Dialect
  templateDir : Option (Value Path)
  verbose : Bool

namespace Request

/-- The request of a line that is read to its end: it names a document, no word is left over and
no option waits for its value. -/
def ofLine (l : Line) : Except Stop Request :=
  match l.spec, l.wanting, l.leftOver with
  | some spec, none, false =>
    .ok
      { spec := .ofString spec
        output := l.output.map Path.ofString
        namespaceName := l.namespaceName
        dialect := l.dialect
        templateDir := l.templateDir.map fun value => value.map Path.ofString
        verbose := l.verbose }
  | _, _, _ => .error .misuse

/-- The request of a command line. -/
def ofArguments (arguments : List String) : Except Stop Request :=
  match Word.ofArguments? arguments with
  | none => .error .misuse
  | some words =>
    match Line.takeAll {} words with
    | .ok l => ofLine l
    | .error e => .error e

end Request

end ApiClient.Command
