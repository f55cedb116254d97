/-!
# Hexadecimal digits

Digits are read in either case. Where a format fixes the case it is written in, the format
says so.
-/

set_option autoImplicit false

namespace DesiredState.Text.Hex

/-- The value of a hexadecimal digit. -/
def value? (digit : Char) : Option Nat :=
  if digit.isDigit then some (digit.toNat - '0'.toNat)
  else if 'a' ≤ digit ∧ digit ≤ 'f' then some (digit.toNat - 'a'.toNat + 10)
  else if 'A' ≤ digit ∧ digit ≤ 'F' then some (digit.toNat - 'A'.toNat + 10)
  else none

/-- The lower-case digit of a number below sixteen. -/
def lower (value : Nat) : Char := Nat.digitChar value

/-- The upper-case digit of a number below sixteen. -/
def upper (value : Nat) : Char := (Nat.digitChar value).toUpper

/-- The last `count` lower-case digits of a number. -/
def digits (value : Nat) : Nat → List Char
  | 0 => []
  | count + 1 => digits (value / 16) count ++ [lower (value % 16)]

/-- The number that digits spell, read onto the value of those before them. -/
def readFrom? : Nat → List Char → Option Nat
  | value, [] => some value
  | value, digit :: rest => (value? digit).bind fun next => readFrom? (16 * value + next) rest

/-- The number that digits spell. -/
def read? (characters : List Char) : Option Nat := readFrom? 0 characters

end DesiredState.Text.Hex
