import ApiClient.Json.Display

/-!
# JSON texts

String literals of JSON, with every character of its own (`literal`) or in ASCII
(`asciiLiteral`), and the compact text of a value. `markupSafe` writes a value so that it can
stand in markup: the four characters that mean something there are escaped.
-/

namespace ApiClient.Json

/-! ## String literals -/

/-- An escape with four hexadecimal digits. -/
def unitEscape (n : Nat) : List Char :=
  '\\' :: 'u' :: hexDigits 4 n

/-- A character of a literal that escapes only what has to be: the quote, the backslash and the
controls. -/
def literalChar (c : Char) : List Char :=
  if c = '"' then ['\\', '"']
  else if c = '\\' then ['\\', '\\']
  else if c = '\n' then ['\\', 'n']
  else if c = '\r' then ['\\', 'r']
  else if c = '\t' then ['\\', 't']
  else if c.toNat = 8 then ['\\', 'b']
  else if c.toNat = 12 then ['\\', 'f']
  else if c.toNat < 0x20 then unitEscape c.toNat
  else [c]

/-- A character of an ASCII literal: one escape, or two for a character beyond sixteen bits. -/
def asciiChar (c : Char) : List Char :=
  let n := c.toNat
  if n < 0x7f then literalChar c
  else if n < 0x10000 then unitEscape n
  else
    unitEscape (0xd800 + (n - 0x10000) / 0x400) ++ unitEscape (0xdc00 + (n - 0x10000) % 0x400)

/-- A text as a literal, its characters kept. -/
def literal (s : String) : String :=
  String.ofList ('"' :: s.toList.flatMap literalChar ++ ['"'])

/-- A text as a literal in ASCII. -/
def asciiLiteral (s : String) : String :=
  String.ofList ('"' :: s.toList.flatMap asciiChar ++ ['"'])

/-! ## Values -/

/-- How a printer writes texts and what stands between items and after keys. -/
structure Style where
  text : String → String
  comma : String
  colon : String

/-- A floating-point number in JSON; the infinities have words. -/
def numberText : Floating → String
  | .infinite negative => if negative then "-Infinity" else "Infinity"
  | x => x.text

mutual

/-- A value in one line. -/
def write (style : Style) : Json → String
  | null => "null"
  | bool b => if b then "true" else "false"
  | int n => toString n
  | float x => numberText x
  | str s => style.text s
  | arr items => "[" ++ writeItems style items ++ "]"
  | obj members => "\x7b" ++ writeMembers style members ++ "\x7d"

/-- Items with the style's comma between them. -/
def writeItems (style : Style) : List Json → String
  | [] => ""
  | [x] => write style x
  | x :: rest => write style x ++ style.comma ++ writeItems style rest

/-- Members with the style's comma between them. -/
def writeMembers (style : Style) : List (String × Json) → String
  | [] => ""
  | [(k, v)] => style.text k ++ style.colon ++ write style v
  | (k, v) :: rest =>
    style.text k ++ style.colon ++ write style v ++ style.comma ++ writeMembers style rest

end

/-- The text of a value in ASCII, without spaces. -/
def compact (j : Json) : String :=
  j.write ⟨asciiLiteral, ",", ":"⟩

/-- The text of a value, a text with its characters kept and a blank after commas and colons. -/
def spaced (j : Json) : String :=
  j.write ⟨literal, ", ", ": "⟩

/-- A character of a text that is to stand in markup. -/
def markupChar (c : Char) : List Char :=
  if c = '<' ∨ c = '>' ∨ c = '&' ∨ c = '\'' then unitEscape c.toNat else [c]

/-- The ASCII text of a value, safe in markup: its angle brackets, ampersands and single quotes are
escaped. -/
def markupSafe (j : Json) : String :=
  String.ofList ((j.write ⟨asciiLiteral, ", ", ": "⟩).toList.flatMap markupChar)

end ApiClient.Json
