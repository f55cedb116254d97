import DesiredState.Text.Invisible

/-!
# Quoted text in descriptions

A description shows a text between quotation marks. Quotation marks, backslashes and the
common control characters have short escapes; every other character that does not show by
itself is given by its code in braces.
-/

set_option autoImplicit false

namespace DesiredState.Text.Quoted

/-- One character between quotation marks. -/
def encodeChar (character : Char) : List Char :=
  match character with
  | '\x00' => ['\\', '0']
  | '\t' => ['\\', 't']
  | '\n' => ['\\', 'n']
  | '\r' => ['\\', 'r']
  | '\\' => ['\\', '\\']
  | '"' => ['\\', '"']
  | other =>
      if isInvisible other then
        '\\' :: 'u' :: '\x7b' :: Nat.toDigits 16 other.toNat ++ ['\x7d']
      else [other]

/-- A text between quotation marks. -/
def encode (text : String) : String :=
  "\"" ++ String.ofList (text.toList.flatMap encodeChar) ++ "\""

/-- A record in a description: its name and its parts in braces. -/
def record (name : String) (parts : List (String × String)) : String :=
  name ++ " \x7b " ++ ", ".intercalate (parts.map fun part => part.1 ++ ": " ++ part.2) ++ " \x7d"

/-- What a description shows instead of a secret, if there is one. -/
def redacted (present : Bool) : String :=
  if present then "Some(" ++ encode "[REDACTED]" ++ ")" else "None"

/-- A truth value in a description. -/
def truth (value : Bool) : String := if value then "true" else "false"

end DesiredState.Text.Quoted
