import DesiredState.Plan

/-!
# Calls of the API

Every call sends one request. Reading returns the answer whatever its status is; writing
and fetching decode it and fail on a status other than 200 to 299. Failures name the
address that the request went to, those of a fetch the path.
-/

set_option autoImplicit false

namespace DesiredState

/-- How requests reach the API. -/
structure Access where
  /-- The address of a path. -/
  address : String → String
  /-- Requests and responses are logged. -/
  traced : Bool

namespace Access

/-- The access to an API that is addressed by the paths themselves. -/
def direct : Access := ⟨id, false⟩

/-- A log event if requests are logged. -/
def trace (access : Access) (event : LogEvent) : Plan Unit :=
  if access.traced then Plan.log event else pure ()

/-- One request and its answer. -/
def exchange (access : Access) (request : Request) : Plan (Except CallFailure Response) := do
  let url := access.address request.path
  access.trace (.requestSent request.method url)
  match ← Plan.send request with
  | .lost cause => pure (.error (.transport request.method url cause))
  | .answered response =>
      access.trace (.responseReceived request.method url response.status)
      pure (.ok response)

/-- The answer to reading a path. -/
def get (access : Access) (path : String) : Plan (Except CallFailure Response) :=
  access.exchange ⟨.get, path, none⟩

/-- The value that an answer holds. -/
def decode (method : Method) (uri : String) (response : Response) : Except CallFailure Json :=
  if response.isSuccess then
    match response.json? with
    | some value => .ok value
    | none => .error (.undecodable uri unreadableJson)
  else .error (.http method uri response)

/-- The value that a path holds. -/
def fetch (access : Access) (path : String) : Plan (Except CallFailure Json) := do
  match ← access.get path with
  | .error failure => pure (.error failure)
  | .ok response => pure (decode .get path response)

/-- The value answered to a body sent to a path. -/
def submit (access : Access) (method : Method) (path : String) (body : Json) :
    Plan (Except CallFailure Json) := do
  match ← access.exchange ⟨method, path, some body⟩ with
  | .error failure => pure (.error failure)
  | .ok response => pure (decode method (access.address path) response)

/-- The value answered to a write; only some verbs write. -/
def write (access : Access) (method : Method) (path : String) (body : Json) :
    Plan (Except CallFailure Json) :=
  if method.isWrite then access.submit method path body
  else pure (.error (.unsupported method))

end Access

end DesiredState
