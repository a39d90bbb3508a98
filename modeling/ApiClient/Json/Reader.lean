import ApiClient.Json.Basic

/-!
# Reading JSON texts

`read` takes a JSON text apart into a value, or says why it cannot be read. Members keep their
order; of a repeated key the first place and the last value count. A number with a fraction or an
exponent is a floating-point number, and `Infinity` with or without a sign is one too; every other
number is an integer, of at most `maxDigits` digits.

Every reader takes the characters that are left and returns a value with those it leaves.
-/

namespace ApiClient.Json

/-- Why a text cannot be read. -/
inductive Unreadable where
  /-- It is no JSON text. -/
  | malformed
  /-- An integer in it has so many digits. -/
  | tooManyDigits (digits : Nat)
  deriving DecidableEq, Repr

/-- What was read, if there is anything. -/
def orMalformed {α : Type} : Option α → Except Unreadable α
  | some a => .ok a
  | none => .error .malformed

/-- White space between tokens. -/
def isSpace (c : Char) : Bool :=
  c = ' ' || c = '\t' || c = '\n' || c = '\r'

/-- The characters from the next token on. -/
def skipSpace (cs : List Char) : List Char :=
  cs.dropWhile isSpace

/-! ## String literals -/

/-- The value of a hexadecimal digit. -/
def hexValue? (c : Char) : Option Nat :=
  let n := c.toNat
  if 0x30 ≤ n ∧ n ≤ 0x39 then some (n - 0x30)
  else if 0x61 ≤ n ∧ n ≤ 0x66 then some (n - 0x61 + 10)
  else if 0x41 ≤ n ∧ n ≤ 0x46 then some (n - 0x41 + 10)
  else none

/-- The value of four hexadecimal digits. -/
def fourHex? (a b c d : Char) : Option Nat := do
  return (((← hexValue? a) * 16 + (← hexValue? b)) * 16 + (← hexValue? c)) * 16 + (← hexValue? d)

/-- The character of a one-letter escape. -/
def escapeValue? : Char → Option Char
  | '"' => some '"'
  | '\\' => some '\\'
  | '/' => some '/'
  | 'b' => some (Char.ofNat 8)
  | 'f' => some (Char.ofNat 12)
  | 'n' => some '\n'
  | 'r' => some '\r'
  | 't' => some '\t'
  | _ => none

/-- Code points that are halves of a pair of escapes. -/
def isHighUnit (n : Nat) : Bool := 0xd800 ≤ n && n ≤ 0xdbff

/-- Code points that end a pair of escapes. -/
def isLowUnit (n : Nat) : Bool := 0xdc00 ≤ n && n ≤ 0xdfff

/-- The character of a sixteen-bit escape that is no half of a pair; a lone half is replaced. -/
def unitChar (n : Nat) : Char :=
  if isHighUnit n || isLowUnit n then Char.ofNat 0xfffd else Char.ofNat n

/-- The second half of a pair that `unit` begins, if its escape comes next. -/
def lowUnit? (unit : Nat) : List Char → Option Nat
  | '\\' :: 'u' :: a :: b :: c :: d :: _ =>
    if isHighUnit unit then (fourHex? a b c d).filter isLowUnit else none
  | _ => none

/-- The characters of a literal up to its closing quote, which is taken. -/
def readText : List Char → Option (List Char × List Char)
  | [] => none
  | '"' :: rest => some ([], rest)
  | '\\' :: 'u' :: a :: b :: c :: d :: rest => do
    let unit ← fourHex? a b c d
    match lowUnit? unit rest with
    | some low =>
      let (tail, rest) ← readText (rest.drop 6)
      return (Char.ofNat (0x10000 + (unit - 0xd800) * 0x400 + (low - 0xdc00)) :: tail, rest)
    | none =>
      let (tail, rest) ← readText rest
      return (unitChar unit :: tail, rest)
  | '\\' :: c :: rest => do
    let c ← escapeValue? c
    let (tail, rest) ← readText rest
    return (c :: tail, rest)
  | c :: rest =>
    if c.toNat < 0x20 then none
    else do
      let (tail, rest) ← readText rest
      return (c :: tail, rest)
  termination_by cs => cs.length

/-! ## Numbers -/

/-- The value of decimal digits. -/
def decimalValue (digits : List Char) : Nat :=
  digits.foldl (fun n c => n * 10 + (c.toNat - 0x30)) 0

/-- The digits of an integer part: a zero alone, or digits without a leading zero. -/
def readWhole : List Char → Option (List Char × List Char)
  | '0' :: rest => some (['0'], rest)
  | cs =>
    match cs.takeWhile Char.isDigit with
    | [] => none
    | digits => some (digits, cs.dropWhile Char.isDigit)

/-- The digits after a point, none when no digit follows one. -/
def readFraction : List Char → List Char × List Char
  | '.' :: rest =>
    match rest.takeWhile Char.isDigit with
    | [] => ([], '.' :: rest)
    | digits => (digits, rest.dropWhile Char.isDigit)
  | cs => ([], cs)

/-- The value of an exponent, nothing when no digits follow its mark. -/
def readExponent : List Char → Option Int × List Char
  | c :: rest =>
    if c = 'e' ∨ c = 'E' then
      let (negative, digits) :=
        match rest with
        | '-' :: more => (true, more)
        | '+' :: more => (false, more)
        | more => (false, more)
      match digits.takeWhile Char.isDigit with
      | [] => (none, c :: rest)
      | ds =>
        let n : Int := decimalValue ds
        (some (if negative then -n else n), digits.dropWhile Char.isDigit)
    else (none, c :: rest)
  | [] => (none, [])

/-- The greatest number of digits in an integer. -/
def maxDigits : Nat := 4300

/-- A number without its sign. -/
def readMagnitude (negative : Bool) (cs : List Char) : Except Unreadable (Json × List Char) := do
  let (whole, rest) ← orMalformed (readWhole cs)
  let (fraction, rest) := readFraction rest
  let (exponent, rest) := readExponent rest
  if fraction = [] ∧ exponent = none then
    if maxDigits < whole.length then throw (.tooManyDigits whole.length)
    let n : Int := decimalValue whole
    return (int (if negative then -n else n), rest)
  else
    let digits := decimalValue (whole ++ fraction)
    return (float (.ofDecimal negative digits (exponent.getD 0 - fraction.length)), rest)

/-- What follows `word` in `cs`. -/
def takeWord : List Char → List Char → Option (List Char)
  | [], cs => some cs
  | w :: word, c :: cs => if w = c then takeWord word cs else none
  | _ :: _, [] => none

/-- The value that a word stands for, after its first character. -/
def readWord (value : Json) (word : String) (cs : List Char) : Except Unreadable (Json × List Char) :=
  orMalformed ((takeWord word.toList cs).map (value, ·))

/-- A number or one of the words, at its first character. -/
def readAtom : List Char → Except Unreadable (Json × List Char)
  | 'n' :: rest => readWord null "ull" rest
  | 't' :: rest => readWord (bool true) "rue" rest
  | 'f' :: rest => readWord (bool false) "alse" rest
  | 'I' :: rest => readWord (float (.infinite false)) "nfinity" rest
  | '-' :: 'I' :: rest => readWord (float (.infinite true)) "nfinity" rest
  | '-' :: rest => readMagnitude true rest
  | cs => readMagnitude false cs

/-! ## Values -/

mutual

/-- A value at its first character. The fuel bounds the characters that are left. -/
def readValue : Nat → List Char → Except Unreadable (Json × List Char)
  | 0, _ => .error .malformed
  | _ + 1, '"' :: rest => do
    let (s, rest) ← orMalformed (readText rest)
    return (str (String.ofList s), rest)
  | fuel + 1, '[' :: rest =>
    match skipSpace rest with
    | ']' :: rest => .ok (arr [], rest)
    | rest => do
      let (items, rest) ← readItems fuel rest
      return (arr items, rest)
  | fuel + 1, '\x7b' :: rest =>
    match skipSpace rest with
    | '\x7d' :: rest => .ok (obj [], rest)
    | rest => do
      let (members, rest) ← readMembers fuel rest
      return (obj (Table.ofList members), rest)
  | _ + 1, cs => readAtom cs

/-- Items up to the closing bracket, which is taken. -/
def readItems : Nat → List Char → Except Unreadable (List Json × List Char)
  | 0, _ => .error .malformed
  | fuel + 1, cs => do
    let (item, rest) ← readValue fuel cs
    match skipSpace rest with
    | ']' :: rest => return ([item], rest)
    | ',' :: rest =>
      let (items, rest) ← readItems fuel (skipSpace rest)
      return (item :: items, rest)
    | _ => .error .malformed

/-- Members up to the closing brace, which is taken. -/
def readMembers : Nat → List Char → Except Unreadable (List (String × Json) × List Char)
  | 0, _ => .error .malformed
  | fuel + 1, '"' :: rest => do
    let (key, rest) ← orMalformed (readText rest)
    match skipSpace rest with
    | ':' :: rest =>
      let (value, rest) ← readValue fuel (skipSpace rest)
      match skipSpace rest with
      | '\x7d' :: rest => return ([(String.ofList key, value)], rest)
      | ',' :: rest =>
        let (members, rest) ← readMembers fuel (skipSpace rest)
        return ((String.ofList key, value) :: members, rest)
      | _ => .error .malformed
    | _ => .error .malformed
  | _ + 1, _ => .error .malformed

end

/-- The value of a JSON text, with white space around it and nothing else. -/
def read (text : String) : Except Unreadable Json := do
  let cs := skipSpace text.toList
  let (value, rest) ← readValue (cs.length + 1) cs
  if skipSpace rest = [] then return value else throw .malformed

end ApiClient.Json
