/-!
# Positions in a text

Lines count from one and columns from zero, in characters.
-/

namespace ApiClient

/-- A place in a text. -/
structure Position where
  line : Nat
  column : Nat
  deriving DecidableEq, Repr

namespace Position

/-- The place of the first character. -/
def start : Position := ⟨1, 0⟩

/-- The place after the character `c` at `p`. -/
def step (p : Position) (c : Char) : Position :=
  if c = '\n' then ⟨p.line + 1, 0⟩ else ⟨p.line, p.column + 1⟩

/-- The place after the characters `cs`, the first of which stands at `p`. -/
def after (p : Position) (cs : List Char) : Position :=
  cs.foldl step p

end Position

end ApiClient
