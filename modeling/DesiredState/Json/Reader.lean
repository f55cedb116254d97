import DesiredState.Json.Token

/-!
# Reading JSON text

The reader consumes one token at a time. Its state is the stack of the arrays and
objects that are open, and what the next token may be. At most `nestingLimit` arrays
and objects may be open at once. Of members with one name the last counts, and the
members of an object are put in name order as they are read.
-/

set_option autoImplicit false

namespace DesiredState.Json

/-- The most arrays and objects that may be open at once. -/
def nestingLimit : Nat := 127

/-- An array or object of which not everything has been read. -/
inductive Frame
  /-- An array with its items so far in reverse. -/
  | array (items : List Json)
  /-- An object with its members so far. -/
  | object (members : List (String × Json))
  /-- An object with its members so far and the name of the member being read. -/
  | member (members : List (String × Json)) (name : String)
  deriving Repr

/-- What the next token may be. -/
inductive Expected
  | value
  /-- A value or the end of the innermost array. -/
  | itemOrEnd
  | name
  /-- A name or the end of the innermost object. -/
  | nameOrEnd
  | colon (name : String)
  /-- What follows a value that has been read. -/
  | rest (value : Json)
  deriving Repr

/-- The state of a reader: the open arrays and objects from the innermost out, and what
comes next. -/
abbrev ReaderState := List Frame × Expected

/-- The state after the token that starts a value. -/
def beginValue (stack : List Frame) : Token → Option ReaderState
  | .null => some (stack, .rest .null)
  | .bool value => some (stack, .rest (.bool value))
  | .number value => some (stack, .rest (.number value))
  | .string value => some (stack, .rest (.string value))
  | .openArray =>
      if stack.length < nestingLimit then some (.array [] :: stack, .itemOrEnd) else none
  | .openObject =>
      if stack.length < nestingLimit then some (.object [] :: stack, .nameOrEnd) else none
  | _ => none

/-- The state after the token that follows a complete value. -/
def continueWith (value : Json) : List Frame → Token → Option ReaderState
  | .array items :: stack, .comma => some (.array (value :: items) :: stack, .value)
  | .array items :: stack, .closeArray => some (stack, .rest (.array (value :: items).reverse))
  | .member members name :: stack, .comma =>
      some (.object (insertEntry name value members) :: stack, .name)
  | .member members name :: stack, .closeObject =>
      some (stack, .rest (.object (insertEntry name value members)))
  | _, _ => none

/-- The state after one more token. -/
def readToken : ReaderState → Token → Option ReaderState
  | (stack, .value), token => beginValue stack token
  | (.array _ :: stack, .itemOrEnd), .closeArray => some (stack, .rest (.array []))
  | (stack, .itemOrEnd), token => beginValue stack token
  | (stack, .name), .string name => some (stack, .colon name)
  | (stack, .nameOrEnd), .string name => some (stack, .colon name)
  | (.object _ :: stack, .nameOrEnd), .closeObject => some (stack, .rest (.object []))
  | (.object members :: stack, .colon name), .colon =>
      some (.member members name :: stack, .value)
  | (stack, .rest value), token => continueWith value stack token
  | _, _ => none

/-- The value that a list of tokens completes. -/
def readTokens : ReaderState → List Token → Option Json
  | ([], .rest value), [] => some value
  | _, [] => none
  | state, token :: tokens => (readToken state token).bind (readTokens · tokens)

/-- The value that a text spells; there is none if the text is no JSON text. -/
def read? (text : String) : Option Json :=
  (Token.scan text.toList).bind (readTokens ([], .value))

end DesiredState.Json
