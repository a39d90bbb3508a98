import ApiClient.Number.Floating

/-!
# The shortest decimal that reads back

For 1, 2, … 17 digits `shortest` takes the two neighbours of a value on that decimal grid and asks
whether they lie among the reals that round to the value. The first grid with a hit wins, and of
two hits the nearer one. `Floating.text` lays the digits out.
-/

namespace ApiClient.Floating

/-- A decimal `digits · 10 ^ exponent`. -/
structure Decimal where
  digits : Nat
  exponent : Int
  deriving DecidableEq, Repr

/-- The reals that round to a positive number, in units of `2 ^ -1076`, with the number itself.
The ends count when the significand is even. -/
structure Interval where
  low : Nat
  value : Nat
  high : Nat
  closed : Bool

/-- The interval of a positive significand and exponent. Below a power of two the spacing halves,
and so does the distance to the lower end. -/
def interval (significand exponent : Nat) : Interval :=
  let unit := Nat.pow 2 exponent
  let below := if significand = significandBound / 2 ∧ 0 < exponent then 1 else 2
  { low := (4 * significand - below) * unit
    value := 4 * significand * unit
    high := (4 * significand + 2) * unit
    closed := significand % 2 = 0 }

/-- A point `point / scale`, both in common units, lies in the interval. -/
def Interval.holds (i : Interval) (point scale : Nat) : Bool :=
  if i.closed then i.low * scale ≤ point && point ≤ i.high * scale
  else i.low * scale < point && point < i.high * scale

/-- The grid of decimals with exponent `exponent`: its point at or below the value of `i`, or the
next one, if one of them lies in the interval. -/
def onGrid (i : Interval) (exponent : Int) : Option Decimal :=
  let unit := Nat.pow 10 exponent.toNat * (4 * unity)
  let scale := Nat.pow 10 (-exponent).toNat
  let floor := i.value * scale / unit
  let lower := i.holds (floor * unit) scale
  let upper := i.holds ((floor + 1) * unit) scale
  let rest := i.value * scale - floor * unit
  if lower && upper then
    if 2 * rest < unit || (2 * rest = unit && floor % 2 = 0) then some ⟨floor, exponent⟩
    else some ⟨floor + 1, exponent⟩
  else if lower then some ⟨floor, exponent⟩
  else if upper then some ⟨floor + 1, exponent⟩
  else none

/-- The decimal exponent of the leading digit of a positive value in units of `2 ^ -1076`. -/
def leadingExponent (value : Nat) : Int :=
  (decimalLength (value * Nat.pow 10 340 / (4 * unity)) : Int) - 341

/-- The first hit on the grids of `tried + 1`, … `tried + left` digits. -/
def searchGrids (i : Interval) (leading : Int) : Nat → Nat → Decimal
  | _, 0 => ⟨0, 0⟩
  | tried, left + 1 =>
    match onGrid i (leading - tried) with
    | some d => d
    | none => searchGrids i leading (tried + 1) left

/-- Moves up to `n` zeros from the end of the digits to the exponent. -/
def trimZeros : Nat → Decimal → Decimal
  | 0, d => d
  | n + 1, d =>
    if d.digits % 10 = 0 then trimZeros n ⟨d.digits / 10, d.exponent + 1⟩ else d

/-- The shortest decimal that rounds to `significand · 2 ^ (exponent - 1074)`, for a positive
significand. -/
def shortest (significand exponent : Nat) : Decimal :=
  let i := interval significand exponent
  trimZeros 17 (searchGrids i (leadingExponent i.value) 0 17)

/-- `n` zeros. -/
def zeros (n : Nat) : String :=
  String.ofList (List.replicate n '0')

/-- An exponent with its sign and at least two digits. -/
def exponentText (e : Int) : String :=
  let digits := toString e.natAbs
  (if e < 0 then "-" else "+") ++ zeros (2 - digits.length) ++ digits

/-- A decimal as text: positional when the point stands at most sixteen places after the first
digit and at most three zeros before it, and always with a point or an exponent. -/
def decimalText (d : Decimal) : String :=
  let digits := toString d.digits
  let places := digits.length
  let point := (places : Int) + d.exponent
  if point ≤ -4 ∨ point > 16 then
    let tail := String.ofList (digits.toList.drop 1)
    String.ofList (digits.toList.take 1) ++ (if tail = "" then "" else "." ++ tail) ++
      "e" ++ exponentText (point - 1)
  else if point ≤ 0 then "0." ++ zeros (-point).toNat ++ digits
  else if point < places then
    String.ofList (digits.toList.take point.toNat) ++ "." ++
      String.ofList (digits.toList.drop point.toNat)
  else digits ++ zeros (point - places).toNat ++ ".0"

/-- The text of a number: the shortest digits that read back to it. -/
def text : Floating → String
  | finite negative significand exponent =>
    (if negative then "-" else "") ++
      if significand = 0 then "0.0" else decimalText (shortest significand exponent)
  | infinite negative => if negative then "-inf" else "inf"

end ApiClient.Floating
