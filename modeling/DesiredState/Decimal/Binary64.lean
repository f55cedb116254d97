/-!
# Finite numbers in binary64

A finite binary64 number is a sign, a significand below `2 ^ 53` and an exponent of
two that is at least `-1074`. Rounding goes to the nearest such number, and of two
equally near ones to the one with the even significand. All arithmetic is on natural
numbers, so each operation is the exact result rounded once.
-/

set_option autoImplicit false

namespace DesiredState

/-- The number `(-1) ^ negative * significand * 2 ^ exponent`. -/
structure Binary64 where
  negative : Bool
  significand : Nat
  exponent : Int
  deriving DecidableEq, Repr

namespace Binary64

/-- The exponent of the smallest positive number. -/
def leastExponent : Int := -1074

/-- The exponent of the largest finite numbers. -/
def greatestExponent : Int := 971

/-- The first significand that needs more than 53 bits. -/
def significandBound : Nat := Nat.pow 2 53

/-- The zero with the given sign. -/
def zero (negative : Bool) : Binary64 := ⟨negative, 0, leastExponent⟩

/-- Equality of the numbers themselves: the two zeros are equal. -/
def same (left right : Binary64) : Bool :=
  left == right || (left.significand == 0 && right.significand == 0)

/-- A quotient rounded to the nearest natural number, a half to the even one. -/
def roundHalfEven (numerator denominator : Nat) : Nat :=
  let quotient := numerator / denominator
  let remainder := numerator % denominator
  if 2 * remainder < denominator then quotient
  else if denominator < 2 * remainder then quotient + 1
  else quotient + quotient % 2

/-- The fraction `significand * 2 ^ exponent` as numerator and denominator. -/
def fraction (significand : Nat) (exponent : Int) : Nat × Nat :=
  if 0 ≤ exponent then (significand * Nat.pow 2 exponent.toNat, 1)
  else (significand, Nat.pow 2 (-exponent).toNat)

/-- The fraction `numerator / denominator` divided by `2 ^ exponent`. -/
def unscale (numerator denominator : Nat) (exponent : Int) : Nat × Nat :=
  if 0 ≤ exponent then (numerator, denominator * Nat.pow 2 exponent.toNat)
  else (numerator * Nat.pow 2 (-exponent).toNat, denominator)

/-- The exponent that gives a positive fraction a significand of 53 bits, or the least
exponent if the fraction is too small for that. -/
def exponentOf (numerator denominator : Nat) : Int :=
  let guess : Int := (Nat.log2 numerator : Int) - (Nat.log2 denominator : Int) - 52
  let scaled := unscale numerator denominator guess
  let exact := if scaled.1 < Nat.pow 2 52 * scaled.2 then guess - 1 else guess
  max exact leastExponent

/-- The number nearest to a fraction, if it is not beyond the largest finite one. -/
def nearest (negative : Bool) (numerator denominator : Nat) : Option Binary64 :=
  if numerator = 0 then some (zero negative)
  else
    let exponent := exponentOf numerator denominator
    let scaled := unscale numerator denominator exponent
    let rounded := roundHalfEven scaled.1 scaled.2
    let carried : Nat × Int :=
      if rounded = significandBound then (Nat.pow 2 52, exponent + 1) else (rounded, exponent)
    if greatestExponent < carried.2 then none
    else some ⟨negative, carried.1, carried.2⟩

/-- The product of a number and a positive number, if it is finite. -/
def scaleUp (number factor : Binary64) : Option Binary64 :=
  let left := fraction number.significand number.exponent
  let right := fraction factor.significand factor.exponent
  nearest number.negative (left.1 * right.1) (left.2 * right.2)

/-- The quotient of a number by a positive number, if it is finite. -/
def scaleDown (number divisor : Binary64) : Option Binary64 :=
  let left := fraction number.significand number.exponent
  let right := fraction divisor.significand divisor.exponent
  nearest number.negative (left.1 * right.2) (left.2 * right.1)

/-- The largest power of ten that is a finite number. -/
def greatestPower : Nat := 308

/-- The number nearest to a power of ten; beyond `greatestPower` there is none. -/
def powerOfTen (power : Nat) : Option Binary64 :=
  nearest false (Nat.pow 10 power) 1

/-- A number divided by a power of ten in steps of at most `greatestPower`, each of
them rounded. -/
def divideByPower (number : Binary64) (power : Nat) : Option Binary64 :=
  if number.significand = 0 then some number
  else if _large : greatestPower < power then do
    let reduced ← number.scaleDown (← powerOfTen greatestPower)
    divideByPower reduced (power - greatestPower)
  else do number.scaleDown (← powerOfTen power)
termination_by power
decreasing_by simp only [greatestPower] at _large ⊢; omega

/-- The number that a decimal significand and a power of ten stand for: the significand
is rounded first, and then scaled. There is none if it is too large. -/
def ofDecimal (negative : Bool) (significand : Nat) (power : Int) : Option Binary64 := do
  let number ← nearest negative significand 1
  if number.significand = 0 then some number
  else if power < 0 then divideByPower number (-power).toNat
  else if (greatestPower : Int) < power then none
  else number.scaleUp (← powerOfTen power.toNat)

end Binary64

end DesiredState
