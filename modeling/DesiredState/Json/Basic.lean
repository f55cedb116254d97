import DesiredState.Decimal.Binary64
import DesiredState.NameMap

/-!
# JSON values

A value is what a JSON text says, whatever blanks, escapes and order of members it
is written with. Numbers are integers or binary64 numbers, and the two kinds never
agree, even where they are numerically equal; positive and negative zero agree
although they are written differently. That is why values come with a comparison of
their own (`agrees`).
-/

set_option autoImplicit false

namespace DesiredState

/-- A JSON number. -/
inductive Number
  /-- An integer written without a point or an exponent. -/
  | integer (value : Int)
  /-- Any other number. -/
  | binary (value : Binary64)
  deriving DecidableEq, Repr

/-- Whether two numbers are the same value of the same kind. -/
def Number.agrees : Number → Number → Bool
  | .integer left, .integer right => left == right
  | .binary left, .binary right => left.same right
  | _, _ => false

/-- A JSON value. The members of an object are listed in name order, each name once. -/
inductive Json
  | null
  | bool (value : Bool)
  | number (value : Number)
  | string (value : String)
  | array (items : List Json)
  | object (members : List (String × Json))
  deriving Inhabited, Repr

namespace Json

/-! ## Comparison -/

mutual

/-- Whether two values say the same. -/
def agrees : Json → Json → Bool
  | .null, .null => true
  | .bool left, .bool right => left == right
  | .number left, .number right => left.agrees right
  | .string left, .string right => left == right
  | .array left, .array right => itemsAgree left right
  | .object left, .object right => membersAgree left right
  | _, _ => false

/-- Whether two lists hold values that say the same, in the same order. -/
def itemsAgree : List Json → List Json → Bool
  | [], [] => true
  | left :: lefts, right :: rights => left.agrees right && itemsAgree lefts rights
  | _, _ => false

/-- Whether two lists of members have the same names and values that say the same. -/
def membersAgree : List (String × Json) → List (String × Json) → Bool
  | [], [] => true
  | (leftName, left) :: lefts, (rightName, right) :: rights =>
      leftName == rightName && left.agrees right && membersAgree lefts rights
  | _, _ => false

end

/-! ## Parts of a value -/

/-- The text of a string. -/
def text? : Json → Option String
  | .string value => some value
  | _ => none

/-- The items of an array. -/
def items? : Json → Option (List Json)
  | .array items => some items
  | _ => none

/-- The members of an object as a map; of members with one name the last counts. -/
def members? : Json → Option (NameMap Json)
  | .object members => some (.ofList members)
  | _ => none

/-- Whether a value is `null`. -/
def isNull : Json → Bool
  | .null => true
  | _ => false

/-- Whether a value is `true`. -/
def isTrue : Json → Bool
  | .bool value => value
  | _ => false

/-- Whether a value is an array. -/
def isArray : Json → Bool
  | .array _ => true
  | _ => false

/-! ## Objects within a value -/

mutual

/-- The number of objects in a value, itself included. -/
def objects : Json → Nat
  | .array items => itemObjects items
  | .object members => memberObjects members + 1
  | _ => 0

/-- The number of objects in a list of values. -/
def itemObjects : List Json → Nat
  | [] => 0
  | item :: rest => item.objects + itemObjects rest

/-- The number of objects in the values of members. -/
def memberObjects : List (String × Json) → Nat
  | [] => 0
  | (_, value) :: rest => value.objects + memberObjects rest

end

/-! ## Making values -/

/-- The object with the entries of a map as members. -/
def ofMap (map : NameMap Json) : Json := .object map.entries

/-- The integer with the value of a natural number. -/
def ofNat (value : Nat) : Json := .number (.integer value)

end Json

end DesiredState
