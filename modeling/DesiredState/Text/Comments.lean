/-!
# Comments in JSON documents

Documents may carry `//` comments, which end with their line, and `/* */`
comments. `strip` removes them: a line comment leaves its newline, a block comment
leaves one space, and a quoted string is copied as it stands, whatever it holds.

A text need not be well formed: an unclosed block comment extends to the end and
still leaves a space, and an unclosed string is copied to the end.
-/

set_option autoImplicit false

namespace DesiredState.Text.Comments

/-- What the character at hand is part of. -/
inductive Place
  /-- Neither a string nor a comment. -/
  | plain
  /-- A quoted string. -/
  | quoted
  /-- A `//` comment. -/
  | line
  /-- A `/*` comment; the flag tells whether the previous character of its content was a star. -/
  | block (afterStar : Bool)
  deriving DecidableEq

/-- The text that is left of `text` when its first character stands at `place`. -/
def stripFrom : Place → List Char → List Char
  | .plain, '/' :: '/' :: rest => stripFrom .line rest
  | .plain, '/' :: '*' :: rest => stripFrom (.block false) rest
  | .plain, '"' :: rest => '"' :: stripFrom .quoted rest
  | .plain, character :: rest => character :: stripFrom .plain rest
  | .quoted, '\\' :: escaped :: rest => '\\' :: escaped :: stripFrom .quoted rest
  | .quoted, '"' :: rest => '"' :: stripFrom .plain rest
  | .quoted, character :: rest => character :: stripFrom .quoted rest
  | .line, '\n' :: rest => '\n' :: stripFrom .plain rest
  | .line, _ :: rest => stripFrom .line rest
  | .block true, '/' :: rest => ' ' :: stripFrom .plain rest
  | .block _, character :: rest => stripFrom (.block (character == '*')) rest
  | .block _, [] => [' ']
  | _, [] => []

/-- A character outside literals and comments stays, unless it may open one of them. -/
theorem stripFrom_plain {character : Char} {rest : List Char} (noSlash : character ≠ '/')
    (noQuote : character ≠ '"') :
    stripFrom .plain (character :: rest) = character :: stripFrom .plain rest := by
  simp [stripFrom, noSlash]

/-- A character of a literal stays. -/
theorem stripFrom_quoted {character : Char} {rest : List Char} (noQuote : character ≠ '"')
    (noBackslash : character ≠ '\\') :
    stripFrom .quoted (character :: rest) = character :: stripFrom .quoted rest := by
  simp [stripFrom, noBackslash]

/-- A character of a line comment is left out. -/
theorem stripFrom_line_cons {character : Char} {rest : List Char} (other : character ≠ '\n') :
    stripFrom .line (character :: rest) = stripFrom .line rest := by
  simp [stripFrom]

/-- A character of a block comment is left out; of a star it is remembered that it was one. -/
theorem stripFrom_block_cons {character : Char} {rest : List Char} {afterStar : Bool}
    (goesOn : afterStar = true → character ≠ '/') :
    stripFrom (.block afterStar) (character :: rest)
      = stripFrom (.block (character == '*')) rest := by
  simp_all [stripFrom]

/-- The document without its comments. -/
def strip (document : String) : String :=
  String.ofList (stripFrom .plain document.toList)

end DesiredState.Text.Comments
