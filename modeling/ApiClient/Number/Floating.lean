/-!
# Binary floating-point numbers

A floating-point number is kept exactly, as a significand below `2 ^ 53` times a power of two, so
that equality with integers is exact. `ofDecimal` rounds a decimal to the nearest such number, a
tie going to the even significand; `scaled` is the value in units of the smallest positive number.
-/

namespace ApiClient

/-- A finite number `± significand · 2 ^ (exponent - 1074)`, or an infinity. Zero has a sign. -/
inductive Floating where
  | finite (negative : Bool) (significand exponent : Nat)
  | infinite (negative : Bool)
  deriving DecidableEq, Repr

namespace Floating

/-- The bound of significands. -/
def significandBound : Nat := Nat.pow 2 53

/-- The number one, in units of `2 ^ -1074`. -/
def unity : Nat := Nat.pow 2 1074

/-- The exponent of the largest finite numbers. -/
def maxExponent : Nat := 2045

/-- The quotient of two naturals, rounded to the nearest, a tie to the even neighbour. -/
def roundDiv (num den : Nat) : Nat :=
  let q := num / den
  let r := num % den
  if 2 * r < den then q
  else if 2 * r = den then q + q % 2
  else q + 1

/-- The number nearest to `num / den` units of `2 ^ -1074`. -/
def ofRatio (negative : Bool) (num den : Nat) : Floating :=
  let bits := if num < den then 0 else Nat.log2 (num / den) + 1
  let exponent := bits - 53
  let significand := roundDiv num (den * Nat.pow 2 exponent)
  let (significand, exponent) :=
    if significand = significandBound then (significand / 2, exponent + 1)
    else (significand, exponent)
  if exponent > maxExponent then infinite negative else finite negative significand exponent

/-- The number of decimal digits of `n`, one for zero. -/
def decimalLength (n : Nat) : Nat :=
  (Nat.toDigits 10 n).length

/-- The number nearest to `± digits · 10 ^ exponent`. -/
def ofDecimal (negative : Bool) (digits : Nat) (exponent : Int) : Floating :=
  if digits = 0 then finite negative 0 0
  else if (decimalLength digits : Int) + exponent > 310 then infinite negative
  else if (decimalLength digits : Int) + exponent < -330 then finite negative 0 0
  else ofRatio negative (digits * Nat.pow 10 exponent.toNat * unity) (Nat.pow 10 (-exponent).toNat)

/-- The value in units of `2 ^ -1074`; nothing for an infinity. -/
def scaled : Floating → Option Int
  | finite negative significand exponent =>
    let magnitude : Int := (significand * Nat.pow 2 exponent : Nat)
    some (if negative then -magnitude else magnitude)
  | infinite _ => none

/-- Whether the number is zero, of either sign. -/
def isZero : Floating → Bool
  | finite _ significand _ => significand = 0
  | infinite _ => false

/-- Equality of values: the two zeros are equal. -/
def same : Floating → Floating → Bool
  | infinite a, infinite b => a = b
  | finite n s e, finite n' s' e' => (finite n s e).scaled = (finite n' s' e').scaled
  | _, _ => false

/-- Equality of a number with an integer, exact at every size. -/
def sameInt (x : Floating) (n : Int) : Bool :=
  x.scaled = some (n * unity)

end Floating

end ApiClient
