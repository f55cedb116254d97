import DesiredState.Json.Numeral
import DesiredState.Text.Hex

/-!
# Tokens of JSON text

A JSON text is a sequence of tokens with blanks between them. The scanner reads the
characters from left to right; its state is the `Place` of the character at hand. It
fails on a character that no token can hold, on a control character or a lone
surrogate in a string, and on a numeral too large for a number.

Tokens need not be separated: whether two of them may stand side by side is decided
by the reader, and no two words or numerals ever may.
-/

set_option autoImplicit false

namespace DesiredState.Json

/-- The smallest meaningful piece of a JSON text. -/
inductive Token
  | openArray
  | closeArray
  | openObject
  | closeObject
  | comma
  | colon
  | null
  | bool (value : Bool)
  | number (value : Number)
  | string (value : String)
  deriving DecidableEq, Repr

namespace Token

/-- What the next character belongs to. Characters already read are kept in reverse. -/
inductive Place
  /-- A blank or the start of a token. -/
  | between
  /-- A word of small letters. -/
  | word (letters : List Char)
  /-- A numeral. -/
  | numeral (characters : List Char)
  /-- A string. -/
  | text (content : List Char)
  /-- The character after a backslash in a string. -/
  | escape (content : List Char)
  /-- A hexadecimal escape, of which `read` digits with the given value are known, after the
  first half of a surrogate pair if `high` gives one. -/
  | code (content : List Char) (high : Option Nat) (read : Nat) (value : Nat)
  /-- The backslash that must follow the first half of a surrogate pair. -/
  | lowBackslash (content : List Char) (high : Nat)
  /-- The letter `u` that must follow this backslash. -/
  | lowMark (content : List Char) (high : Nat)
  deriving DecidableEq, Repr

/-- The blanks between tokens. -/
def isBlank (character : Char) : Bool :=
  character == ' ' || character == '\t' || character == '\n' || character == '\r'

/-- The characters that a numeral is made of. -/
def isNumeral (character : Char) : Bool :=
  character.isDigit || character == '-' || character == '+' || character == '.'
    || character == 'e' || character == 'E'

/-- The token of a word. -/
def ofWord (letters : List Char) : Option Token :=
  if letters = "null".toList then some .null
  else if letters = "true".toList then some (.bool true)
  else if letters = "false".toList then some (.bool false)
  else none

/-- The token that ends with the character before, if the place needs one. -/
def finish : Place → Option (List Token)
  | .between => some []
  | .word letters => (ofWord letters.reverse).map ([·])
  | .numeral characters => (Numeral.read characters.reverse).map fun value => [.number value]
  | _ => none

/-- A character at the start of a token or between tokens. -/
def start (character : Char) : Option (List Token × Place) :=
  if isBlank character then some ([], .between)
  else if character.isLower then some ([], .word [character])
  else if character.isDigit || character == '-' then some ([], .numeral [character])
  else match character with
    | '"' => some ([], .text [])
    | '[' => some ([.openArray], .between)
    | ']' => some ([.closeArray], .between)
    | '\x7b' => some ([.openObject], .between)
    | '\x7d' => some ([.closeObject], .between)
    | ',' => some ([.comma], .between)
    | ':' => some ([.colon], .between)
    | _ => none

/-- The character that a one-letter escape stands for. -/
def escaped : Char → Option Char
  | '"' => some '"'
  | '\\' => some '\\'
  | '/' => some '/'
  | 'b' => some '\x08'
  | 'f' => some '\x0c'
  | 'n' => some '\n'
  | 'r' => some '\r'
  | 't' => some '\t'
  | _ => none

/-- Whether a code is the first half of a surrogate pair. -/
def isHigh (code : Nat) : Bool := 0xD800 ≤ code && code ≤ 0xDBFF

/-- Whether a code is the second half of a surrogate pair. -/
def isLow (code : Nat) : Bool := 0xDC00 ≤ code && code ≤ 0xDFFF

/-- The place after a complete hexadecimal escape. -/
def ofCode (content : List Char) (high : Option Nat) (code : Nat) : Option Place :=
  match high with
  | some first =>
      if isLow code then
        some (.text (Char.ofNat (0x10000 + (first - 0xD800) * 0x400 + (code - 0xDC00)) :: content))
      else none
  | none =>
      if isHigh code then some (.lowBackslash content code)
      else if isLow code then none
      else some (.text (Char.ofNat code :: content))

/-- The tokens that end before or with a character, and the place of the next one. -/
def step : Place → Char → Option (List Token × Place)
  | .between, character => start character
  | .word letters, character =>
      if character.isLower then some ([], .word (character :: letters))
      else do
        let ended ← finish (.word letters)
        let (begun, next) ← start character
        some (ended ++ begun, next)
  | .numeral characters, character =>
      if isNumeral character then some ([], .numeral (character :: characters))
      else do
        let ended ← finish (.numeral characters)
        let (begun, next) ← start character
        some (ended ++ begun, next)
  | .text content, character =>
      if character = '"' then some ([.string (String.ofList content.reverse)], .between)
      else if character = '\\' then some ([], .escape content)
      else if character.toNat < 0x20 then none
      else some ([], .text (character :: content))
  | .escape content, character =>
      if character = 'u' then some ([], .code content none 0 0)
      else (escaped character).map fun meant => ([], .text (meant :: content))
  | .code content high read value, character => do
      let code := 16 * value + (← Text.Hex.value? character)
      if read = 3 then
        let next ← ofCode content high code
        some ([], next)
      else some ([], .code content high (read + 1) code)
  | .lowBackslash content high, character =>
      if character = '\\' then some ([], .lowMark content high) else none
  | .lowMark content high, character =>
      if character = 'u' then some ([], .code content (some high) 0 0) else none

/-- The tokens of the characters from a place on. -/
def scanFrom : Place → List Char → Option (List Token)
  | place, [] => finish place
  | place, character :: rest => do
      let (ended, next) ← step place character
      let others ← scanFrom next rest
      some (ended ++ others)

/-- The tokens of a text. -/
def scan (text : List Char) : Option (List Token) := scanFrom .between text

end Token

end DesiredState.Json
