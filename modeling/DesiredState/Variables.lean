import DesiredState.Text.Unsigned

/-!
# Environment variables

Settings are taken from environment variables. A variable may be unset, or set to bytes
that are no text; both count as absent.
-/

set_option autoImplicit false

namespace DesiredState

/-- The variables that can be read as text. -/
abbrev Variables := String → Option String

/-- Why settings cannot be taken from the environment. -/
inductive VariableFault
  /-- A variable that has no default is absent. -/
  | missing (name : String)
  /-- The value of a variable is not acceptable. -/
  | invalid (name : String) (reason : String)
  deriving DecidableEq, Repr

/-- The words for a fault. -/
def VariableFault.message : VariableFault → String
  | .missing name => "missing required environment variable: " ++ name
  | .invalid name reason => "invalid value for " ++ name ++ ": " ++ reason

/-- The unsigned number that the value of a variable spells. -/
def readCount (name value : String) : Except VariableFault Nat :=
  match Text.Unsigned.read value with
  | .ok count => .ok count
  | .error defect => .error (.invalid name defect.message)

end DesiredState
