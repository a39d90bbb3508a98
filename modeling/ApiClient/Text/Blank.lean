/-!
# Blank characters, words and lines

The white space and the line breaks of a text. `words` cuts at runs of white space, `lines` at
every line break (and knows nothing of a last empty line), `splitOnChar` at every occurrence of
one character (and keeps empty pieces).
-/

namespace ApiClient.Text

/-! ## White space -/

/-- White space: the separators, the line breaks and the four information separators. -/
def isBlank (c : Char) : Bool :=
  let n := c.toNat
  (0x09 ≤ n && n ≤ 0x0d) || (0x1c ≤ n && n ≤ 0x20) || n = 0x85 || n = 0xa0 || n = 0x1680 ||
    (0x2000 ≤ n && n ≤ 0x200a) || n = 0x2028 || n = 0x2029 || n = 0x202f || n = 0x205f ||
    n = 0x3000

/-- A text of white space only. -/
def allBlank (s : String) : Bool :=
  s.toList.all isBlank

/-- The characters without white space at the front. -/
def trimStart (cs : List Char) : List Char :=
  cs.dropWhile isBlank

/-- The characters without white space at the end. -/
def trimEnd : List Char → List Char
  | [] => []
  | c :: rest =>
    match trimEnd rest with
    | [] => if isBlank c then [] else [c]
    | kept => c :: kept

/-- The characters without white space at either end. -/
def trim (cs : List Char) : List Char :=
  trimEnd (trimStart cs)

/-- The text without white space at either end. -/
def strip (s : String) : String :=
  String.ofList (trim s.toList)

/-! ## Words -/

/-- The words of `cs`, the first of which has begun with `begun`. -/
def wordsFrom (begun : List Char) : List Char → List (List Char)
  | [] => if begun = [] then [] else [begun]
  | c :: rest =>
    if isBlank c then
      if begun = [] then wordsFrom [] rest else begun :: wordsFrom [] rest
    else wordsFrom (begun ++ [c]) rest

/-- The runs of characters between white space. -/
def words (s : String) : List String :=
  (wordsFrom [] s.toList).map String.ofList

/-! ## Lines -/

/-- A character that ends a line. -/
def isLineBreak (c : Char) : Bool :=
  let n := c.toNat
  (0x0a ≤ n && n ≤ 0x0d) || (0x1c ≤ n && n ≤ 0x1e) || n = 0x85 || n = 0x2028 || n = 0x2029

/-- The lines of `cs`. A carriage return and the line feed after it are one break, and a break at
the end begins no further line. -/
def linesOf : List Char → List (List Char)
  | [] => []
  | '\r' :: '\n' :: rest => [] :: linesOf rest
  | c :: rest =>
    if isLineBreak c then [] :: linesOf rest
    else
      match linesOf rest with
      | [] => [[c]]
      | line :: more => (c :: line) :: more

/-- The lines of a text, without their breaks. -/
def lines (s : String) : List String :=
  (linesOf s.toList).map String.ofList

/-! ## Cutting and joining -/

/-- The pieces between the occurrences of `sep`, one more than there are occurrences. -/
def splitOnChar (sep : Char) : List Char → List (List Char)
  | [] => [[]]
  | c :: rest =>
    if c = sep then [] :: splitOnChar sep rest
    else
      match splitOnChar sep rest with
      | [] => [[c]]
      | piece :: more => (c :: piece) :: more

/-- The pieces of a text between the occurrences of `sep`. -/
def split (sep : Char) (s : String) : List String :=
  (splitOnChar sep s.toList).map String.ofList

/-- The texts in order with `sep` between neighbours. -/
def join (sep : String) : List String → String
  | [] => ""
  | [s] => s
  | s :: rest => s ++ sep ++ join sep rest

end ApiClient.Text
