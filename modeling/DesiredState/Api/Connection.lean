import DesiredState.Api.Credentials
import DesiredState.Text.Blank
import DesiredState.Variables

/-!
# The connection to an API

A client is told the address of the API, its token, the header for the token, and how long
it waits for an answer. Only the address has no default.
-/

set_option autoImplicit false

namespace DesiredState

/-- How a client reaches the API. -/
structure Connection where
  baseUrl : String
  token : Option String
  header : String
  /-- How long an answer is waited for, in seconds. -/
  timeoutSeconds : Nat
  deriving DecidableEq, Repr

namespace Connection

/-- The variable with the address. -/
def urlVariable : String := "MODEL_SETUP_API_BASE_URL"

/-- The variable with the token. -/
def tokenVariable : String := "MODEL_SETUP_API_TOKEN"

/-- The variable with the header for the token. -/
def headerVariable : String := "MODEL_SETUP_TOKEN_HEADER"

/-- The variable with the seconds that an answer is waited for. -/
def timeoutVariable : String := "MODEL_SETUP_REQUEST_TIMEOUT_SECS"

/-- The seconds that an answer is waited for by default. -/
def standardTimeout : Nat := 30

/-- Whether a text is the address of an HTTP resource. -/
def isHttp (url : String) : Bool :=
  "http://".toList.isPrefixOf url.toList || "https://".toList.isPrefixOf url.toList

/-- The connection that the environment gives. -/
def read (environment : Variables) : Except VariableFault Connection := do
  let baseUrl ← match environment urlVariable with
    | some url => .ok url
    | none => .error (.missing urlVariable)
  if !isHttp baseUrl then
    .error (.invalid urlVariable ("must be an http(s) URL, got " ++ baseUrl))
  let timeoutSeconds ← match environment timeoutVariable with
    | some value => readCount timeoutVariable value
    | none => .ok standardTimeout
  let header := (environment headerVariable).filter fun value => !(Text.trim value).isEmpty
  .ok { baseUrl
        token := Credentials.nonempty (environment tokenVariable)
        header := header.getD Credentials.standardHeader
        timeoutSeconds }

/-- The description of the connection, which does not show the token. -/
def describe (connection : Connection) : String :=
  Text.Quoted.record "ClientConfig" [
    ("base_url", Text.Quoted.encode connection.baseUrl),
    ("token", Text.Quoted.redacted connection.token.isSome),
    ("token_header", Text.Quoted.encode connection.header),
    ("request_timeout_secs", toString connection.timeoutSeconds)]

end Connection

end DesiredState
