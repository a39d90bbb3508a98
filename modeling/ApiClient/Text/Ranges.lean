/-!
# Sets of characters as ranges

A set of characters is a sorted list of closed ranges of code points, and `inRanges` looks a
character up in it.
-/

namespace ApiClient.Text

/-- Whether the code point of `c` lies in one of the sorted, disjoint ranges. -/
def inRanges : List (Nat × Nat) → Char → Bool
  | [], _ => false
  | (first, last) :: rest, c =>
    if c.toNat < first then false
    else if c.toNat ≤ last then true
    else inRanges rest c

end ApiClient.Text
