import ApiClient.Json.Display
import ApiClient.Json.Element
import ApiClient.Template.Node
import ApiClient.Text.Blank

/-!
# Variables of a template

A placeholder is declared with the kind of value it takes, the way its value becomes text, and
what may be missing. `Variable.lookup` finds the value of a variable among those supplied, or says
why it may not be used.
-/

namespace ApiClient

namespace Template

/-- The kinds of value a placeholder may be declared with. -/
inductive ValueType where
  | one (kind : Json.Kind)
  | anyOf (kinds : List Json.Kind)
  deriving DecidableEq, Repr

/-- A value of kind `kind`. A truth value counts as an integer too. -/
def fitsKind (kind : Json.Kind) (value : Json) : Bool :=
  value.kind = kind || (kind = .int && value.kind = .bool)

/-- Whether a value is of the type. -/
def ValueType.fits : ValueType → Json → Bool
  | one kind, value => fitsKind kind value
  | anyOf kinds, value => kinds.any (fitsKind · value)

/-- The type in the words of messages. -/
def ValueType.word : ValueType → String
  | one kind => kind.word
  | anyOf kinds => Text.join " | " (kinds.map Json.Kind.word)

/-- The form a placeholder has in the template. -/
inductive Form where
  | plain | conditional | wholeLine
  deriving DecidableEq, Repr

/-- The form in the words of messages. -/
def Form.word : Form → String
  | plain => "plain"
  | conditional => "conditional"
  | wholeLine => "whole_line"

/-! ## Formats -/

/-- Any value as text. -/
def shown (value : Json) : Except Json.Misfit String :=
  .ok value.display

/-- The texts among values, which all have to be texts. -/
def texts : List Json → Except Json.Misfit (List String)
  | [] => .ok []
  | .str s :: rest => do return s :: (← texts rest)
  | _ :: _ => .error .kind

/-- The elements of a value, which all have to be texts, with `sep` between them. -/
def joined (sep : String) (value : Json) : Except Json.Misfit String := do
  return Text.join sep (← texts (← value.elements))

/-- A text between two others. -/
def wrapped (front back : String) : Json → Except Json.Misfit String
  | .str s => .ok (front ++ s ++ back)
  | _ => .error .kind

/-! ## Declarations -/

/-- What is declared of the placeholders of one name: the type of their value if it is not text,
how the value becomes text, whether it may be missing (`optional`) or also null (`nullable`), and
whether an absent value takes its whole line away. -/
structure Declaration where
  name : String
  type : Option ValueType := none
  format : Json → Except Json.Misfit String := shown
  optional : Bool := false
  nullable : Bool := false
  wholeLine : Bool := false

/-- A declared placeholder in the form it has in a template. -/
structure Variable extends Declaration where
  form : Form := .plain

/-- The type a value has to have: of a condition it is a truth value. -/
def Variable.expected (v : Variable) : ValueType :=
  match v.form with
  | .plain => v.type.getD (.one .str)
  | _ => .one .bool

/-! ## Errors -/

/-- Why a template cannot be made or filled in. -/
inductive Error where
  /-- The text does not follow the grammar. -/
  | malformed (e : SyntaxError)
  /-- A name is used in two forms. -/
  | mixedForms (name : String) (first second : Form)
  /-- A condition is declared with a type of its own. -/
  | conditionType (name : String) (type : ValueType)
  /-- No value is supplied. -/
  | missing (name : String)
  /-- The value is null and may not be. -/
  | null (name : String)
  /-- The value is not of the declared type. -/
  | wrongType (name : String) (value : Json) (expected : ValueType)
  /-- The value cannot be formatted. -/
  | format (misfit : Json.Misfit)

/-- What was expected, in words. -/
def Expected.message : Expected → String
  | .identifier => "Expected an identifier after '%~'"
  | .arrow => "Expected '->' after the condition name"
  | .quotedString => "Expected a quoted string"
  | .closingQuote => "Unterminated string"
  | .wholeLineEnd => "Expected '~%' to close the whole-line conditional"
  | .inlineEnd => "Expected '%' to close the conditional"

/-- The text of an error. -/
def Error.message : Error → String
  | malformed e =>
    String.join [
      e.expected.message, " at line ", toString e.position.line, ", column ",
      toString e.position.column]
  | mixedForms name first second =>
    String.join [
      "Placeholder '", name, "' is used both as ", first.word, " and as ", second.word,
      " in the same template"]
  | conditionType name type =>
    String.join ["Conditional placeholder '", name, "' must be declared as bool, not ", type.word]
  | missing name => String.join ["Required variable '", name, "' not supplied"]
  | null name =>
    String.join ["Value supplied for '", name, "' is None but the variable is not nullable"]
  | wrongType name value expected =>
    String.join [
      "Value supplied for '", name, "' (", value.spelling,
      ") is not the correct type: it is of type '", value.kind.word,
      "' but needs to be of type '", expected.word, "'"]
  | format _ => ""

/-! ## Values -/

/-- The value for a variable; nothing when it is absent and may be. -/
def Variable.lookup (v : Variable) (values : Table Json) : Except Error (Option Json) :=
  match values.get? v.name with
  | none => if v.optional || v.nullable then .ok none else .error (.missing v.name)
  | some .null => if v.nullable then .ok none else .error (.null v.name)
  | some value =>
    if v.expected.fits value then .ok (some value)
    else .error (.wrongType v.name value v.expected)

end Template

end ApiClient
