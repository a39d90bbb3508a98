import ApiClient.Dialect.Basic
import ApiClient.Json.Equality
import ApiClient.Json.Printer

/-!
# Literals and URL expressions

String literals of the two dialects, and the expression that builds the URL of an operation: each
segment in braces whose parameter has an identifier is substituted, and every other segment stands
as it is.
-/

namespace ApiClient.Dialect

/-! ## String literals -/

/-- A text as a string literal of Python. -/
def pythonString (s : String) : String :=
  Json.literal s

/-- A character of a string literal of Kotlin. -/
def kotlinChar (c : Char) : List Char :=
  if c = '\\' ∨ c = '"' ∨ c = '$' then ['\\', c] else [c]

/-- The inside of a string literal of Kotlin. -/
def kotlinInside (s : String) : String :=
  String.ofList (s.toList.flatMap kotlinChar)

/-- A text as a string literal of Kotlin. -/
def kotlinString (s : String) : String :=
  "\"" ++ kotlinInside s ++ "\""

/-! ## Segments -/

/-- The text before a closing brace at the end, or before one with a line feed behind it. -/
def beforeBrace (cs : List Char) : Option (List Char) :=
  match cs.reverse with
  | '\x7d' :: rest => some rest.reverse
  | '\n' :: '\x7d' :: rest => some rest.reverse
  | _ => none

/-- The parameter that a segment is replaced by: a name of one line between braces. -/
def segmentParameter (segment : String) : Option String :=
  match segment.toList with
  | '\x7b' :: rest =>
    match beforeBrace rest with
    | some name => if name = [] ∨ '\n' ∈ name then none else some (String.ofList name)
    | none => none
  | _ => none

/-- Identifiers by the names of parameters as a document holds them. -/
abbrev Identifiers := List (Json × String)

/-- The identifier of the parameter that a segment stands for. -/
def identifierFor (identifiers : Identifiers) (segment : String) : Option String := do
  let name ← segmentParameter segment
  let found ← identifiers.find? fun e => e.1.same (.str name)
  return found.2

/-! ## Expressions -/

/-- A character of a literal that has substitutions: braces are doubled. -/
def doubleBrace (c : Char) : List Char :=
  if c = '\x7b' ∨ c = '\x7d' then [c, c] else [c]

/-- A segment in a literal of Python that may have substitutions. -/
def pythonSegment (identifiers : Identifiers) (segment : String) : String :=
  match identifierFor identifiers segment with
  | some identifier => "\x7b" ++ identifier ++ "\x7d"
  | none => String.ofList (segment.toList.flatMap doubleBrace)

/-- A segment in a literal of Kotlin. -/
def kotlinSegment (identifiers : Identifiers) (segment : String) : String :=
  match identifierFor identifiers segment with
  | some identifier => "$\x7b" ++ identifier ++ "\x7d"
  | none => kotlinInside segment

/-- The expression for a URL. -/
def urlExpression (d : Dialect) (url : String) (identifiers : Identifiers) : String :=
  let segments := Text.split '/' url
  match d with
  | python =>
    if segments.any fun s => (identifierFor identifiers s).isSome then
      "f" ++ pythonString (Text.join "/" (segments.map (pythonSegment identifiers)))
    else pythonString url
  | kotlin => "\"" ++ Text.join "/" (segments.map (kotlinSegment identifiers)) ++ "\""

/-- Whether a parameter cannot be looked up: identifiers that are no object have none, and do not
give one for a name that occurs in them. -/
def isLookupMisfit (identifiers : Json) (name : String) : Bool :=
  match identifiers with
  | .obj _ => false
  | .arr items => items.any (·.same (.str name))
  | .str s => Text.occursIn name.toList s.toList
  | _ => true

/-- The expression for a URL and identifiers that may be any values. -/
def urlExpressionOf (d : Dialect) (url identifiers : Json) : Except Json.Misfit String :=
  match url with
  | .str url =>
    if (Text.split '/' url).any fun s => (segmentParameter s).any (isLookupMisfit identifiers) then
      .error .kind
    else .ok (d.urlExpression url (identifiers.members.map fun e => (.str e.1, e.2.display)))
  | _ => .error .operation

end ApiClient.Dialect
