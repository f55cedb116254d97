/-!
# Blank characters

The characters of Unicode's `White_Space` property, and the texts without them at
their ends.
-/

set_option autoImplicit false

namespace DesiredState.Text

/-- The characters with the `White_Space` property. -/
def isBlank (character : Char) : Bool :=
  let code := character.toNat
  (9 ≤ code && code ≤ 13) || code == 0x20 || code == 0x85 || code == 0xA0 || code == 0x1680
    || (0x2000 ≤ code && code ≤ 0x200A) || code == 0x2028 || code == 0x2029 || code == 0x202F
    || code == 0x205F || code == 0x3000

/-- A list of characters without the blanks at its start. -/
def dropBlanks (characters : List Char) : List Char :=
  characters.dropWhile isBlank

/-- A list of characters without the blanks at both ends. -/
def trimBlanks (characters : List Char) : List Char :=
  (dropBlanks (dropBlanks characters).reverse).reverse

/-- A text without the blanks at both ends. -/
def trim (text : String) : String :=
  String.ofList (trimBlanks text.toList)

/-- A text without the copies of `character` at its end. -/
def dropTrailing (character : Char) (text : String) : String :=
  String.ofList (text.toList.reverse.dropWhile (· == character)).reverse

end DesiredState.Text
