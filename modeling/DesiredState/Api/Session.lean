import DesiredState.Text.Ascii
import DesiredState.Text.Hex

/-!
# Session identifiers

A session of the API is named by a UUID, a number of 128 bits. It is written as 32
lower-case hexadecimal digits in five groups joined by hyphens. Reading accepts the digits
without hyphens, and the hyphenated form by itself, in braces or after `urn:uuid:`. The case
of letters does not count, neither in the digits nor in what stands before them.
-/

set_option autoImplicit false

namespace DesiredState

/-- The name of a session. -/
structure SessionId where
  bits : BitVec 128
  deriving DecidableEq, Repr

namespace SessionId

/-- The lengths of the groups of digits. -/
def groupLengths : List Nat := [8, 4, 4, 4, 12]

/-- The number of digits. -/
def digitCount : Nat := 32

/-- The session whose name has the given digits. -/
def ofDigits? (digits : List Char) : Option SessionId :=
  if digits.length = digitCount then
    (Text.Hex.read? digits).map fun value => ⟨BitVec.ofNat 128 value⟩
  else none

/-- Digits cut into groups that a hyphen ends, the last one excepted. -/
def joinGroups? : List Nat → List Char → Option (List Char)
  | [], [] => some []
  | [last], characters => if characters.length = last then some characters else none
  | length :: lengths, characters =>
      match characters.drop length with
      | '-' :: rest => (joinGroups? lengths rest).map (characters.take length ++ ·)
      | _ => none
  | _, _ => none

/-- The hyphenated form. -/
def ofHyphenated? (characters : List Char) : Option SessionId :=
  (joinGroups? groupLengths characters).bind ofDigits?

/-- What stands before the hyphenated form in a uniform resource name. -/
def urnMark : String := "urn:uuid:"

/-- The characters after the mark of a uniform resource name, in any case. -/
def afterUrnMark? (characters : List Char) : Option (List Char) :=
  if Text.sameLetters (String.ofList (characters.take urnMark.length)) urnMark then
    some (characters.drop urnMark.length)
  else none

/-- The session that a text names. -/
def read? (text : String) : Option SessionId :=
  let characters := text.toList
  match characters with
  | '\x7b' :: rest =>
      if rest.getLast? = some '\x7d' then ofHyphenated? rest.dropLast else none
  | _ =>
      match afterUrnMark? characters with
      | some rest => ofHyphenated? rest
      | none =>
          if characters.length = digitCount then ofDigits? characters
          else ofHyphenated? characters

/-- Digits in groups joined by hyphens. -/
def splitGroups : List Nat → List Char → List Char
  | [], _ => []
  | [last], characters => characters.take last
  | length :: lengths, characters =>
      characters.take length ++ '-' :: splitGroups lengths (characters.drop length)

/-- The hyphenated form of a session's name. -/
def text (session : SessionId) : String :=
  String.ofList (splitGroups groupLengths (Text.Hex.digits session.bits.toNat digitCount))

end SessionId

end DesiredState
