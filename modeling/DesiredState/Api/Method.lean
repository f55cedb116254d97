import DesiredState.Text.Ascii
import DesiredState.Text.Blank

/-!
# HTTP verbs

Requests use one of five verbs, of which `PUT` and `POST` write entities. A verb is
read without regard to case and to blanks around it.
-/

set_option autoImplicit false

namespace DesiredState

/-- A verb of an API request. -/
inductive Method
  | get
  | post
  | put
  | patch
  | delete
  deriving DecidableEq, Repr

namespace Method

/-- The verb as it stands in a request. -/
def text : Method → String
  | .get => "GET"
  | .post => "POST"
  | .put => "PUT"
  | .patch => "PATCH"
  | .delete => "DELETE"

/-- Whether entities can be written with the verb. -/
def isWrite : Method → Bool
  | .put => true
  | .post => true
  | _ => false

/-- A text that names no verb, as it was compared. -/
structure Unknown where
  name : String
  deriving DecidableEq, Repr

/-- The words for an unknown verb. -/
def Unknown.message (unknown : Unknown) : String := "unknown HTTP method: " ++ unknown.name

/-- The verb that a text names. -/
def read (text : String) : Except Unknown Method :=
  let name := Text.upper (Text.trim text)
  if name = "GET" then .ok .get
  else if name = "POST" then .ok .post
  else if name = "PUT" then .ok .put
  else if name = "PATCH" then .ok .patch
  else if name = "DELETE" then .ok .delete
  else .error ⟨name⟩

end Method

end DesiredState
