import DesiredState.Text.Hex

/-!
# Percent-encoding

A value placed in a URI keeps its letters, its digits and the four marks `-`, `_`,
`.` and `~`; every other byte of its UTF-8 form is written as `%` and two
upper-case hexadecimal digits.
-/

set_option autoImplicit false

namespace DesiredState.Text.Percent

/-- The characters that stand for themselves. -/
def isUnreserved (character : Char) : Bool :=
  character.isAlphanum || character == '-' || character == '_' || character == '.'
    || character == '~'

/-- One byte of a value as it is written in a URI. -/
def encodeByte (byte : UInt8) : List Char :=
  let character := Char.ofNat byte.toNat
  if isUnreserved character then [character]
  else ['%', Hex.upper (byte.toNat / 16), Hex.upper (byte.toNat % 16)]

/-- The percent-encoded form of a text. -/
def encode (text : String) : String :=
  String.ofList (text.toUTF8.data.toList.flatMap encodeByte)

end DesiredState.Text.Percent
