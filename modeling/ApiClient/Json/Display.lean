import ApiClient.Json.Basic
import ApiClient.Number.Shortest
import ApiClient.Text.CharClass

/-!
# Values in running text

How a value is spelt where a message or a generated text quotes it: `True`, `None`, texts in
single quotes (in double quotes when they hold a single quote and no double one), arrays and
objects in brackets, floating-point numbers with the fewest digits that read back. `display` is
the same, save that a text by itself stands without quotes.
-/

namespace ApiClient.Json

/-! ## Quoted texts -/

/-- A hexadecimal digit. -/
def hexDigit (n : Nat) : Char :=
  if n < 10 then Char.ofNat (0x30 + n) else Char.ofNat (0x61 + (n - 10))

/-- The last `width` hexadecimal digits of `n`. -/
def hexDigits : Nat → Nat → List Char
  | 0, _ => []
  | width + 1, n => hexDigits width (n / 16) ++ [hexDigit (n % 16)]

/-- An escape by code point, with two, four or eight digits. -/
def codeEscape (n : Nat) : List Char :=
  if n < 0x100 then '\\' :: 'x' :: hexDigits 2 n
  else if n < 0x10000 then '\\' :: 'u' :: hexDigits 4 n
  else '\\' :: 'U' :: hexDigits 8 n

/-- A character between quotes of the kind `quote`. -/
def quotedChar (quote c : Char) : List Char :=
  if c = quote ∨ c = '\\' then ['\\', c]
  else if c = '\n' then ['\\', 'n']
  else if c = '\r' then ['\\', 'r']
  else if c = '\t' then ['\\', 't']
  else if Text.isPrintable c then [c]
  else codeEscape c.toNat

/-- A text in quotes. -/
def quoted (s : String) : String :=
  let cs := s.toList
  let quote := if cs.contains '\'' && !cs.contains '"' then '"' else '\''
  String.ofList (quote :: cs.flatMap (quotedChar quote) ++ [quote])

/-! ## Values -/

mutual

/-- A value as it stands inside a message, a text in quotes. -/
def spelling : Json → String
  | null => "None"
  | bool b => if b then "True" else "False"
  | int n => toString n
  | float x => x.text
  | str s => quoted s
  | arr items => "[" ++ itemSpellings items ++ "]"
  | obj members => "\x7b" ++ memberSpellings members ++ "\x7d"

/-- Items with commas between them. -/
def itemSpellings : List Json → String
  | [] => ""
  | [x] => spelling x
  | x :: rest => spelling x ++ ", " ++ itemSpellings rest

/-- Keys and values with commas between them. -/
def memberSpellings : List (String × Json) → String
  | [] => ""
  | [(k, v)] => quoted k ++ ": " ++ spelling v
  | (k, v) :: rest => quoted k ++ ": " ++ spelling v ++ ", " ++ memberSpellings rest

end

/-- A value as text, a text as it is. -/
def display : Json → String
  | str s => s
  | j => j.spelling

end ApiClient.Json
