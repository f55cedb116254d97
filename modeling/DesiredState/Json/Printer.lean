import DesiredState.Decimal.Layout
import DesiredState.Json.Basic
import DesiredState.Text.Hex

/-!
# Compact JSON text

A value is written without blanks. In strings only the quotation mark, the backslash
and the control characters below U+0020 are escaped.
-/

set_option autoImplicit false

namespace DesiredState.Json

/-- Binary64 numbers are positional from `1e-5` up to below `1e16`. -/
def numberLayout : Decimal.Layout where
  leastPositional := -5
  greatestPositional := 15
  exponentMark := "e"
  positiveSign := "+"

/-- One character of a string as it is written between quotation marks. -/
def escape (character : Char) : List Char :=
  match character with
  | '"' => ['\\', '"']
  | '\\' => ['\\', '\\']
  | '\x08' => ['\\', 'b']
  | '\x0c' => ['\\', 'f']
  | '\n' => ['\\', 'n']
  | '\r' => ['\\', 'r']
  | '\t' => ['\\', 't']
  | other =>
      if other.toNat < 0x20 then
        '\\' :: 'u' :: Text.Hex.digits other.toNat 4
      else [other]

/-- A string between quotation marks. -/
def quote (text : String) : List Char :=
  '"' :: text.toList.flatMap escape ++ ['"']

/-- The text of a number. -/
def numberText : Number → List Char
  | .integer value => (toString value).toList
  | .binary value => (numberLayout.text value).toList

mutual

/-- The characters of a value's text. -/
def write : Json → List Char
  | .null => "null".toList
  | .bool true => "true".toList
  | .bool false => "false".toList
  | .number value => numberText value
  | .string value => quote value
  | .array [] => ['[', ']']
  | .array (first :: rest) => '[' :: first.write ++ writeItems rest
  | .object [] => ['\x7b', '\x7d']
  | .object ((name, first) :: rest) =>
      '\x7b' :: quote name ++ ':' :: first.write ++ writeMembers rest

/-- The rest of an array after an item. -/
def writeItems : List Json → List Char
  | [] => [']']
  | item :: rest => ',' :: item.write ++ writeItems rest

/-- The rest of an object after a member. -/
def writeMembers : List (String × Json) → List Char
  | [] => ['\x7d']
  | (name, value) :: rest => ',' :: quote name ++ ':' :: value.write ++ writeMembers rest

end

/-- The compact text of a value. -/
def print (value : Json) : String := String.ofList value.write

end DesiredState.Json
