import ApiClient.Json.Basic

/-!
# Equality of JSON values

Two values are the same when their numbers are equal as numbers (an integer equals a
floating-point number of its value, true equals one and false zero), their texts and arrays agree
item by item, and their objects have the same keys with the same values, in any order. Were a key
to come twice in an object, its first entry would count.
-/

namespace ApiClient.Json

/-- The exact value of a number: a multiple of `2 ^ -1074`, or an infinity. -/
inductive Magnitude where
  | finite (scaled : Int)
  | infinite (negative : Bool)
  deriving DecidableEq

/-- The value of an integer. -/
def Magnitude.ofInt (n : Int) : Magnitude :=
  finite (n * Floating.unity)

/-- The value of a number; a truth value counts as one or zero. -/
def magnitude? : Json → Option Magnitude
  | bool b => some (.ofInt (if b then 1 else 0))
  | int n => some (.ofInt n)
  | float (.finite negative significand exponent) =>
    let magnitude : Int := (significand * Nat.pow 2 exponent : Nat)
    some (.finite (if negative then -magnitude else magnitude))
  | float (.infinite negative) => some (.infinite negative)
  | _ => none

mutual

/-- Equality of values. -/
def same : Json → Json → Bool
  | null, null => true
  | str a, str b => a = b
  | arr xs, arr ys => sameItems xs ys
  | obj ms, obj ns => ns.all (fun e => (ms.lookup e.1).isSome) && sameMembers [] ms ns
  | a, b =>
    match a.magnitude?, b.magnitude? with
    | some x, some y => x = y
    | _, _ => false

/-- Equality item by item. -/
def sameItems : List Json → List Json → Bool
  | [], [] => true
  | x :: xs, y :: ys => same x y && sameItems xs ys
  | _, _ => false

/-- Every entry whose key is not among those `seen` has an equal value under its key in the second
list. -/
def sameMembers (seen : List String) : List (String × Json) → List (String × Json) → Bool
  | [], _ => true
  | (k, v) :: rest, ns =>
    (seen.contains k ||
      match ns.lookup k with
      | some w => same v w
      | none => false) && sameMembers (k :: seen) rest ns

end

end ApiClient.Json
