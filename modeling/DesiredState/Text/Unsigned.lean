/-!
# Unsigned numbers in settings

A setting holds an unsigned number as an optional plus sign and decimal digits.
The value must fit in 64 bits.
-/

set_option autoImplicit false

namespace DesiredState.Text.Unsigned

/-- Why a text is no unsigned number. -/
inductive Defect
  /-- There is nothing to read. -/
  | empty
  /-- A character other than a decimal digit, or a sign without digits. -/
  | invalidDigit
  /-- The value needs more than 64 bits. -/
  | tooLarge
  deriving DecidableEq

/-- The words for a defect. -/
def Defect.message : Defect → String
  | .empty => "cannot parse integer from empty string"
  | .invalidDigit => "invalid digit found in string"
  | .tooLarge => "number too large to fit in target type"

/-- The first number that does not fit. -/
def bound : Nat := Nat.pow 2 64

/-- The digits read from left to right onto the value of those before them; the first
character that is no digit or digit that does not fit decides the defect. -/
def readDigits : Nat → List Char → Except Defect Nat
  | value, [] => .ok value
  | value, digit :: rest =>
      if digit.isDigit then
        let next := 10 * value + (digit.toNat - '0'.toNat)
        if next < bound then readDigits next rest else .error .tooLarge
      else .error .invalidDigit

/-- The unsigned number that a text spells. -/
def read (text : String) : Except Defect Nat :=
  match text.toList with
  | [] => .error .empty
  | ['+'] => .error .invalidDigit
  | '+' :: digits => readDigits 0 digits
  | digits => readDigits 0 digits

end DesiredState.Text.Unsigned
