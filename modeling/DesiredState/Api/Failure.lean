import DesiredState.Api.Method
import DesiredState.Api.Response

/-!
# Failed API calls

A call fails because the API refused it, because no answer arrived, because the
answer could not be decoded, or because it was not a call that could be made.
-/

set_option autoImplicit false

namespace DesiredState

/-- Why an API call gave no value. -/
inductive CallFailure
  /-- The answer had a status other than 200 to 299. -/
  | http (method : Method) (uri : String) (response : Response)
  /-- The request was not answered, for the given cause. -/
  | transport (method : Method) (uri : String) (cause : String)
  /-- The body of the answer was no JSON text. -/
  | undecodable (uri : String) (detail : String)
  /-- The verb does not write entities. -/
  | unsupported (method : Method)
  /-- There is no client to make the call with. -/
  | misconfigured (detail : String)
  deriving DecidableEq, Repr

namespace CallFailure

/-- The status with which a server rejects a write as invalid. -/
def validationStatus : Nat := 422

/-- The status of something that does not exist. -/
def missingStatus : Nat := 404

/-- The answer that was received in spite of the failure. -/
def response? : CallFailure → Option Response
  | .http _ _ response => some response
  | _ => none

/-- The status of the answer, if there was one. -/
def status? (failure : CallFailure) : Option Nat := failure.response?.map (·.status)

/-- Whether the server rejected the request as invalid. -/
def isValidation (failure : CallFailure) : Bool := failure.status? == some validationStatus

/-- Whether the server knows no such thing. -/
def isMissing (failure : CallFailure) : Bool := failure.status? == some missingStatus

/-- The words for a failure. -/
def message : CallFailure → String
  | .http method uri response =>
      method.text ++ " " ++ uri ++ " returned HTTP " ++ toString response.status ++ ": "
        ++ response.bodyText
  | .transport method uri cause => method.text ++ " " ++ uri ++ " failed: " ++ cause
  | .undecodable uri detail => "failed to parse response from " ++ uri ++ ": " ++ detail
  | .unsupported method => "unsupported write method: " ++ method.text
  | .misconfigured detail => "invalid client configuration: " ++ detail

end CallFailure

end DesiredState
