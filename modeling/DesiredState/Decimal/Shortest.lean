import DesiredState.Decimal.Binary64

/-!
# The fewest digits that read back

A binary64 number is written with the fewest decimal digits that still round to it,
and of the decimals with that many digits with the one nearest to it. A number stands
for all reals between the midpoints to its neighbours, and for the midpoints too if
its significand is even. The decimals of one length form a grid, so only the two grid
points around the number need to be tried.
-/

set_option autoImplicit false

namespace DesiredState.Decimal

/-- A positive decimal `significand * 10 ^ power`. -/
structure Digits where
  significand : Nat
  power : Int
  deriving DecidableEq, Repr

/-- The reals that round to a number, as numerators over a common denominator: the
number itself, both ends, and whether the ends belong to it. -/
structure Neighbourhood where
  value : Nat
  low : Nat
  high : Nat
  denominator : Nat
  closed : Bool

/-- The reals that round to `significand * 2 ^ exponent`. Below a power of two the
neighbour is only half as far. -/
def neighbourhood (significand : Nat) (exponent : Int) : Neighbourhood :=
  let below := if significand = Nat.pow 2 52 ∧ Binary64.leastExponent < exponent then 1 else 2
  let unit := Binary64.fraction 1 (exponent - 2)
  { value := 4 * significand * unit.1
    low := (4 * significand - below) * unit.1
    high := (4 * significand + 2) * unit.1
    denominator := unit.2
    closed := significand % 2 == 0 }

/-- The number of decimal digits of a positive natural number. -/
def digitCount (number : Nat) : Nat := (Nat.toDigits 10 number).length

/-- The power of ten of the first digit of a positive fraction. -/
def leadingPower (numerator denominator : Nat) : Int :=
  if denominator ≤ numerator then (digitCount (numerator / denominator) : Int) - 1
  else
    let zeros := digitCount (denominator / numerator) - 1
    if denominator ≤ numerator * Nat.pow 10 zeros then -(zeros : Int) else -(zeros : Int) - 1

/-- A fraction divided by a power of ten. -/
def overPower (numerator denominator : Nat) (power : Int) : Nat × Nat :=
  if 0 ≤ power then (numerator, denominator * Nat.pow 10 power.toNat)
  else (numerator * Nat.pow 10 (-power).toNat, denominator)

/-- Whether `significand * 10 ^ power` rounds to the number. -/
def Neighbourhood.holds (around : Neighbourhood) (significand : Nat) (power : Int) : Bool :=
  let low := overPower around.low around.denominator power
  let high := overPower around.high around.denominator power
  if around.closed then
    decide (low.1 ≤ significand * low.2) && decide (significand * high.2 ≤ high.1)
  else
    decide (low.1 < significand * low.2) && decide (significand * high.2 < high.1)

/-- The nearest of the two grid points around the number that round to it; of two
equally near ones the even one. -/
def Neighbourhood.onGrid (around : Neighbourhood) (power : Int) : Option Nat :=
  let scaled := overPower around.value around.denominator power
  let floor := scaled.1 / scaled.2
  let twiceRest := 2 * (scaled.1 % scaled.2)
  match around.holds floor power, around.holds (floor + 1) power with
  | true, true =>
      if twiceRest < scaled.2 then some floor
      else if scaled.2 < twiceRest then some (floor + 1)
      else some (floor + floor % 2)
  | true, false => some floor
  | false, true => some (floor + 1)
  | false, false => none

/-- The first grid with a point that rounds to the number, from `power` downwards; after
`grids` grids the value is cut off at the grid reached. -/
def Neighbourhood.search (around : Neighbourhood) : Nat → Int → Digits
  | 0, power =>
      let scaled := overPower around.value around.denominator power
      ⟨scaled.1 / scaled.2, power⟩
  | grids + 1, power =>
      match around.onGrid power with
      | some significand => ⟨significand, power⟩
      | none => around.search grids (power - 1)

/-- A decimal without zeros at its end. -/
def Digits.normalize (decimal : Digits) : Digits :=
  if positive : 0 < decimal.significand then
    if decimal.significand % 10 = 0 then
      normalize ⟨decimal.significand / 10, decimal.power + 1⟩
    else decimal
  else decimal
termination_by decimal.significand
decreasing_by exact Nat.div_lt_self positive (by decide)

/-- Seventeen digits always suffice to tell a binary64 number from its neighbours. -/
def mostDigits : Nat := 17

/-- The shortest decimal that rounds to the positive number `significand * 2 ^ exponent`. -/
def shortest (significand : Nat) (exponent : Int) : Digits :=
  let around := neighbourhood significand exponent
  (around.search mostDigits (leadingPower around.value around.denominator)).normalize

end DesiredState.Decimal
