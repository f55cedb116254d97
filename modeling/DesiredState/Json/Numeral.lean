import DesiredState.Json.Basic

/-!
# Numerals

A numeral is an optional minus sign, an integer part without leading zeros, an
optional fraction and an optional exponent. Without fraction and exponent it is an
integer if it lies between `-2 ^ 63` and `2 ^ 64 - 1`. The numeral `-0` and all
others are binary64 numbers.

Only as many digits are significant as make a significand of 64 bits: a digit of the
integer part that no longer fits, and those after it, count as zeros, and the
fraction ends at its first digit that does not fit.
-/

set_option autoImplicit false

namespace DesiredState.Numeral

/-- The first significand that needs more than 64 bits. -/
def significandBound : Nat := Nat.pow 2 64

/-- The value of a decimal digit. -/
def digitValue (digit : Char) : Nat := digit.toNat - '0'.toNat

/-- The number that a list of decimal digits spells. -/
def digitsValue (digits : List Char) : Nat :=
  digits.foldl (fun value digit => 10 * value + digitValue digit) 0

/-- The significand after the digits of the integer part, and how many of them no longer
counted. -/
def takeWhole : Nat → List Char → Nat × Nat
  | significand, [] => (significand, 0)
  | significand, digit :: rest =>
      let next := 10 * significand + digitValue digit
      if next < significandBound then takeWhole next rest
      else (significand, rest.length + 1)

/-- The significand after the digits of the fraction, and how many of them counted. -/
def takePlaces : Nat → List Char → Nat × Nat
  | significand, [] => (significand, 0)
  | significand, digit :: rest =>
      let next := 10 * significand + digitValue digit
      if next < significandBound then
        let after := takePlaces next rest
        (after.1, after.2 + 1)
      else (significand, 0)

/-- A numeral split into its parts. -/
structure Parts where
  negative : Bool
  whole : List Char
  places : Option (List Char)
  exponent : Option Int

/-- The exponent part: nothing, or `e` with an optional sign and at least one digit. -/
def splitExponent : List Char → Option (Option Int)
  | [] => some none
  | mark :: rest =>
      if mark = 'e' ∨ mark = 'E' then
        let signed : Bool × List Char := match rest with
          | '-' :: digits => (true, digits)
          | '+' :: digits => (false, digits)
          | digits => (false, digits)
        if signed.2.isEmpty || !signed.2.all Char.isDigit then none
        else
          let value : Int := digitsValue signed.2
          some (some (if signed.1 then -value else value))
      else none

/-- The fraction and the exponent part. -/
def splitPlaces (negative : Bool) (whole : List Char) : List Char → Option Parts
  | '.' :: rest =>
      let places := rest.takeWhile Char.isDigit
      if places.isEmpty then none
      else (splitExponent (rest.dropWhile Char.isDigit)).map fun exponent =>
        ⟨negative, whole, some places, exponent⟩
  | rest => (splitExponent rest).map fun exponent => ⟨negative, whole, none, exponent⟩

/-- A numeral after its sign. -/
def splitWhole (negative : Bool) (characters : List Char) : Option Parts :=
  match characters.takeWhile Char.isDigit with
  | [] => none
  | '0' :: _ :: _ => none
  | whole => splitPlaces negative whole (characters.dropWhile Char.isDigit)

/-- The parts of a numeral; there are none if the characters form no numeral. -/
def split : List Char → Option Parts
  | '-' :: rest => splitWhole true rest
  | characters => splitWhole false characters

/-- The binary64 number of a numeral's parts. -/
def Parts.binary (parts : Parts) : Option Number :=
  let whole := takeWhole 0 parts.whole
  let all := takePlaces whole.1 (parts.places.getD [])
  let power := (whole.2 : Int) - all.2 + parts.exponent.getD 0
  (Binary64.ofDecimal parts.negative all.1 power).map .binary

/-- The number of a numeral's parts; there is none if it is too large. -/
def Parts.number (parts : Parts) : Option Number :=
  match parts.places, parts.exponent with
  | none, none =>
      let magnitude := digitsValue parts.whole
      if parts.negative then
        if magnitude = 0 ∨ Nat.pow 2 63 < magnitude then parts.binary
        else some (.integer (-(magnitude : Int)))
      else if magnitude < significandBound then some (.integer magnitude)
      else parts.binary
  | _, _ => parts.binary

/-- The number that a list of characters spells. -/
def read (characters : List Char) : Option Number :=
  (split characters).bind Parts.number

end DesiredState.Numeral
