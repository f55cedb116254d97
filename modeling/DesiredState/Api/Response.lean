import DesiredState.Json.Reader
import DesiredState.Text.Blank

/-!
# Responses of the API

A response is a status, an optional body and an optional location. Its body is
decoded as JSON after the blanks around it are dropped; a body without anything else
stands for `null`.
-/

set_option autoImplicit false

namespace DesiredState

/-- What the API answered. -/
structure Response where
  status : Nat
  body : Option String
  location : Option String
  deriving DecidableEq, Repr

namespace Response

/-- Whether the status is one of 200 to 299. -/
def isSuccess (response : Response) : Bool :=
  200 ≤ response.status && response.status < 300

/-- The body, or the empty text without one. -/
def bodyText (response : Response) : String := response.body.getD ""

/-- The value that the body spells; there is none if the body is no JSON text. -/
def json? (response : Response) : Option Json :=
  let body := Text.trim response.bodyText
  if body.isEmpty then some .null else Json.read? body

end Response

end DesiredState
