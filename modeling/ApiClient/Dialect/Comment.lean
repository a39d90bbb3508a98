import ApiClient.Json.Misfit
import ApiClient.Text.Blank
import ApiClient.Text.Replace

/-!
# Comments

Texts of a document in the comments of a client: `docstring` for Python and `docComment` for
Kotlin, one line when the text has one. A text without a line has no docstring.
-/

namespace ApiClient.Dialect

/-! ## Python -/

/-- A text with its backslashes doubled and every three quotes escaped. -/
def escapeDoc (s : String) : String :=
  Text.replaceAll "\"\"\"" "\\\"\\\"\\\"" (Text.replaceAll "\\" "\\\\" s)

/-- A text with a quote at its end escaped, so that it does not run into the closing quotes. -/
def guardQuote (s : String) : String :=
  match s.toList.reverse with
  | '"' :: rest => String.ofList rest.reverse ++ "\\\""
  | _ => s

/-- Blanks. -/
def blanks (n : Nat) : String :=
  String.ofList (List.replicate n ' ')

/-- A line of a docstring after the first; a blank one is left empty. -/
def docLine (indent : Nat) (line : String) : String :=
  if Text.allBlank line then "" else blanks indent ++ line

/-- A docstring whose lines after the first are indented. -/
def docstring (indent : Nat) (text : String) : Except Json.Misfit String :=
  match Text.lines (guardQuote (escapeDoc (Text.strip text))) with
  | [] => .error .empty
  | [line] => .ok ("\"\"\"" ++ line ++ "\"\"\"")
  | line :: rest =>
    .ok ("\"\"\"" ++ line ++ "\n" ++ Text.join "\n" (rest.map (docLine indent)) ++ "\n" ++
      blanks indent ++ "\"\"\"")

/-- A text in the docstring at the head of a file, between quotes that are there already. -/
def headDoc (text : String) : String :=
  escapeDoc (Text.strip text)

/-- A text in one line, its words with single blanks between them. -/
def collapse (text : String) : String :=
  Text.join " " (Text.words text)

/-! ## Kotlin -/

/-- A text that cannot close the comment it stands in. -/
def openComment (text : String) : String :=
  Text.replaceAll "*/" "* /" (Text.strip text)

/-- A line of a comment. -/
def commentLine (line : String) : String :=
  String.ofList (Text.trimEnd (" * " ++ line).toList)

/-- A comment in front of a declaration. -/
def docComment (text : String) : String :=
  match Text.lines (openComment text) with
  | [line] => "/** " ++ line ++ " */"
  | lines => "/**\n" ++ Text.join "\n" (lines.map commentLine) ++ "\n */"

/-- A text in the comment at the head of a file. -/
def headComment (text : String) : String :=
  Text.replaceAll "\n" "\n * " (openComment text)

end ApiClient.Dialect
