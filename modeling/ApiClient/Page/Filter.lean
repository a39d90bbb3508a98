import ApiClient.Json.Display
import ApiClient.Json.Misfit
import ApiClient.Naming.Case

/-!
# Values on a page

How the values of a page become text, and the filters that they may go through first.
-/

namespace ApiClient.Page

/-- The first line of a text that is not blank, without white space around it. -/
def firstLineOf (text : String) : String :=
  (((Text.lines text).map Text.strip).find? (· ≠ "")).getD ""

/-- The first line of a value; a value that counts as false has none. -/
def firstLine (value : Json) : Except Json.Misfit String :=
  if value.truth then
    match value with
    | .str s => .ok (firstLineOf s)
    | _ => .error .operation
  else .ok ""

/-- A value in snake case; a value that counts as false is an empty text. -/
def snakeCase (value : Json) : Except Json.Misfit String :=
  if value.truth then
    match value with
    | .str s => .ok (Naming.snakeCase s)
    | _ => .error .kind
  else .ok ""

/-- A filter of a page. -/
inductive Filter where
  | firstLine | snakeCase
  deriving DecidableEq, Repr

/-- The filter of a name. -/
def Filter.ofName? : String → Option Filter
  | "first_line" => some .firstLine
  | "snake_case" => some .snakeCase
  | _ => none

/-- A value after a filter. -/
def Filter.apply : Filter → Json → Except Json.Misfit String
  | .firstLine => Page.firstLine
  | .snakeCase => Page.snakeCase

end ApiClient.Page
