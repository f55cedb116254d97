import DesiredState.Decimal.Shortest

/-!
# How a binary64 number is written

A number is written with its shortest digits. Which numbers are written
positionally and how an exponent looks is fixed by a `Layout`.
-/

set_option autoImplicit false

namespace DesiredState.Decimal

/-- The choices of a number format. -/
structure Layout where
  /-- The least exponent of the first digit that is written positionally. -/
  leastPositional : Int
  /-- The greatest exponent of the first digit that is written positionally. -/
  greatestPositional : Int
  /-- The mark before an exponent. -/
  exponentMark : String
  /-- The sign of an exponent that is not negative. -/
  positiveSign : String

/-- A positive decimal written positionally, with at least one digit after the point.
`leading` is the exponent of the first digit. -/
def positional (digits : List Char) (leading : Int) : List Char :=
  if leading < 0 then
    '0' :: '.' :: List.replicate (-leading - 1).toNat '0' ++ digits
  else
    let whole := leading.toNat + 1
    let padded := digits ++ List.replicate (whole - digits.length) '0'
    let places := padded.drop whole
    padded.take whole ++ '.' :: (if places.isEmpty then ['0'] else places)

/-- A positive decimal written as its first digit, the others after a point, and an exponent. -/
def scientific (layout : Layout) (digits : List Char) (leading : Int) : List Char :=
  let sign := if leading < 0 then "-" else layout.positiveSign
  let mantissa := match digits with
    | first :: second :: rest => first :: '.' :: second :: rest
    | few => few
  mantissa ++ layout.exponentMark.toList ++ sign.toList ++ Nat.toDigits 10 leading.natAbs

/-- The text of a number in a layout. -/
def Layout.text (layout : Layout) (number : Binary64) : String :=
  let sign := if number.negative then ['-'] else []
  let magnitude :=
    if number.significand = 0 then positional ['0'] 0
    else
      let decimal := shortest number.significand number.exponent
      let digits := Nat.toDigits 10 decimal.significand
      let leading := decimal.power + digits.length - 1
      if layout.leastPositional ≤ leading ∧ leading ≤ layout.greatestPositional then
        positional digits leading
      else scientific layout digits leading
  String.ofList (sign ++ magnitude)

end DesiredState.Decimal
