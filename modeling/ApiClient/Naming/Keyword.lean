import ApiClient.Text.CharClass

/-!
# Words that are no names

The hard keywords of the two output languages, and how a name that is one of them is written: with
an underscore behind it in Python, in backticks in Kotlin.
-/

namespace ApiClient.Naming

/-- The keywords of Python. -/
def pythonKeywords : List String :=
  ["False", "None", "True", "and", "as", "assert", "async", "await", "break", "class", "continue",
   "def", "del", "elif", "else", "except", "finally", "for", "from", "global", "if", "import",
   "in", "is", "lambda", "nonlocal", "not", "or", "pass", "raise", "return", "try", "while",
   "with", "yield"]

/-- The hard keywords of Kotlin. -/
def kotlinKeywords : List String :=
  ["as", "break", "class", "continue", "do", "else", "false", "for", "fun", "if", "in",
   "interface", "is", "null", "object", "package", "return", "super", "this", "throw", "true",
   "try", "typealias", "typeof", "val", "var", "when", "while"]

/-- A keyword of Python with an underscore behind it, any other name as it is. -/
def escapePythonKeyword (name : String) : String :=
  if name ∈ pythonKeywords then name ++ "_" else name

/-- A hard keyword of Kotlin in backticks, any other name as it is. -/
def escapeKotlinKeyword (name : String) : String :=
  if name ∈ kotlinKeywords then "`" ++ name ++ "`" else name

/-- Whether Python takes `name` as an identifier as it stands. -/
def isPythonIdentifier (name : String) : Bool :=
  Text.isIdentifier name && !pythonKeywords.contains name

end ApiClient.Naming
