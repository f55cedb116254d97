import DesiredState.Api.Method
import DesiredState.Api.Response
import DesiredState.Json.Basic

/-!
# Requests and what becomes of them

A request is answered or lost. A server serves a request when it is sent, so its effects
happen then; the answer may take time to arrive.
-/

set_option autoImplicit false

namespace DesiredState

/-- A request to the API. -/
structure Request where
  method : Method
  path : String
  body : Option Json

/-- What becomes of a request. -/
inductive Exchange
  | answered (response : Response)
  /-- No answer arrived, for the given cause. -/
  | lost (cause : String)
  deriving DecidableEq, Repr

/-- What becomes of a request, and the milliseconds until it is known. -/
structure Reply where
  exchange : Exchange
  delay : Nat
  deriving DecidableEq, Repr

/-- What the API does with a request that is sent at a time. -/
abbrev Server (σ : Type) := Nat → Request → σ → Reply × σ

end DesiredState
