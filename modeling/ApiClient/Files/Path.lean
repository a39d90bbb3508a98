import ApiClient.Text.Blank

/-!
# Paths

A path is a root and the parts below it. Empty parts and parts that stay where they are (`.`) are
dropped when a path is read; `..` is kept. Two leading slashes are a root of their own, any other
number is the plain root.
-/

namespace ApiClient

/-- A path in its normal form. -/
structure Path where
  root : String
  parts : List String
  deriving DecidableEq, Repr

namespace Path

/-- The number of slashes in front of a text. -/
def leadingSlashes : List Char → Nat
  | '/' :: rest => leadingSlashes rest + 1
  | _ => 0

/-- The root that a number of leading slashes stands for. -/
def rootOf : Nat → String
  | 0 => ""
  | 2 => "//"
  | _ => "/"

/-- Whether a part leads somewhere. -/
def counts (part : String) : Bool :=
  part ≠ "" && part ≠ "."

/-- The path a text stands for. -/
def ofString (s : String) : Path :=
  { root := rootOf (leadingSlashes s.toList)
    parts := (Text.split '/' s).filter counts }

/-- The text of a path; the empty path is a dot. -/
def text (p : Path) : String :=
  if p.root = "" ∧ p.parts = [] then "." else p.root ++ Text.join "/" p.parts

/-- The path of `below` seen from `p`. A path with a root stands for itself. -/
def append (p below : Path) : Path :=
  if below.root = "" then { p with parts := p.parts ++ below.parts } else below

/-- The path without its last part. -/
def parent (p : Path) : Path :=
  { p with parts := p.parts.dropLast }

/-- Whether a path ends in a name, rather than in a step up or at its root. -/
def endsInName (p : Path) : Bool :=
  match p.parts.getLast? with
  | none => false
  | some last => last ≠ ".."

theorem length_parent_lt {p : Path} (h : p.parts ≠ []) :
    p.parent.parts.length < p.parts.length := by
  have := List.length_pos_iff.2 h
  simp only [parent, List.length_dropLast]
  omega

end Path

end ApiClient
