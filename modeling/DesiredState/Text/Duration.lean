/-!
# Durations in descriptions

A duration of whole milliseconds is shown in seconds, with as many places as are needed,
from one second on, and in milliseconds below that.
-/

set_option autoImplicit false

namespace DesiredState.Text.Duration

/-- The digits without the zeros at their end. -/
def dropZeros (digits : List Char) : List Char :=
  (digits.reverse.dropWhile (· == '0')).reverse

/-- The three places of a number of milliseconds below one second, without zeros at their
end. -/
def places (milliseconds : Nat) : List Char :=
  let digits := Nat.toDigits 10 milliseconds
  dropZeros (List.replicate (3 - digits.length) '0' ++ digits)

/-- The text of a duration given in milliseconds. -/
def text (milliseconds : Nat) : String :=
  if milliseconds = 0 then "0ns"
  else if milliseconds < 1000 then toString milliseconds ++ "ms"
  else
    let rest := places (milliseconds % 1000)
    let fraction := if rest.isEmpty then "" else "." ++ String.ofList rest
    toString (milliseconds / 1000) ++ fraction ++ "s"

end DesiredState.Text.Duration
