/-!
# Names that are not taken

A name that is taken gets a number: `name`, `name2`, `name3`, … are tried in turn. One of the
first `n + 1` of them is free when `n` names are taken, so the search is bounded. `firstUses` is
the converse: each of a list of names once.
-/

namespace ApiClient.Naming

/-- The first number below `bound` with the property, `bound` if there is none. -/
def firstIndex (p : Nat → Bool) (bound : Nat) : Nat :=
  ((List.range bound).find? p).getD bound

/-- The name that is tried after `n` others: the name itself, then with the numbers from two on. -/
def numbered (name : String) : Nat → String
  | 0 => name
  | n + 1 => name ++ toString (n + 2)

/-- The first of the names that is not taken. -/
def fresh (taken : List String) (name : String) : String :=
  numbered name <|
    firstIndex (fun n => !taken.contains (numbered name n)) (taken.length + 1)

/-- The values without repetitions, in the order of their first use. -/
def firstUses {α : Type} (same : α → α → Bool) : List α → List α
  | [] => []
  | x :: rest => x :: (firstUses same rest).filter fun y => !same x y

end ApiClient.Naming
