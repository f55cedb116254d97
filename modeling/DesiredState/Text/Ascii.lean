/-!
# Letters of ASCII

Type names and header names are compared without regard to the case of ASCII
letters; all other characters stand for themselves.
-/

set_option autoImplicit false

namespace DesiredState.Text

/-- A text with the ASCII letters `a` to `z` in upper case. -/
def upper (text : String) : String :=
  String.ofList (text.toList.map Char.toUpper)

/-- A text with the ASCII letters `A` to `Z` in lower case. -/
def lower (text : String) : String :=
  String.ofList (text.toList.map Char.toLower)

/-- Equality up to the case of ASCII letters. -/
def sameLetters (left right : String) : Bool :=
  lower left == lower right

end DesiredState.Text
