import DesiredState.Api.Access
import DesiredState.Api.Connection
import DesiredState.Text.Utf8

/-!
# HTTP clients

A client turns requests into HTTP requests: it finds the address of a path below its base
address, adds the header with its token, and sends a body as JSON. What the network answers
it turns into a response. A request with a header that cannot be sent is lost without being
sent. Copies of a client share its session, but not its token.
-/

set_option autoImplicit false

namespace DesiredState

/-- A request as it goes over the network. -/
structure HttpRequest where
  method : Method
  url : String
  /-- The headers that the client adds, by lower-case name. -/
  headers : NameMap String
  body : Option Json

/-- What the network makes of a request. -/
inductive Delivery
  | answered (status : Nat) (body : List UInt8) (location : Option String)
  | lost
  deriving DecidableEq, Repr

/-- The network, in which requests take time. -/
abbrev Network (σ : Type) := Nat → HttpRequest → σ → (Delivery × Nat) × σ

/-- A handle to the API. -/
structure Client where
  baseUrl : String
  credentials : Credentials
  session : SessionId

namespace Client

/-- What stands in messages for the complaint of the network. -/
def networkComplaint : String := "<transport>"

/-- The client of a connection, in a session of its own. -/
def ofConnection (connection : Connection) (session : SessionId) : Client where
  baseUrl := connection.baseUrl
  credentials := .ofToken connection.token connection.header
  session

/-- The address of a path: an address stays, and a path is joined to the base with one slash. -/
def url (client : Client) (path : String) : String :=
  if Connection.isHttp path then path
  else
    let baseEnds := client.baseUrl.toList.getLast? = some '/'
    match path.toList with
    | '/' :: rest =>
        if baseEnds then client.baseUrl ++ String.ofList rest else client.baseUrl ++ path
    | [] => client.baseUrl
    | _ => if baseEnds then client.baseUrl ++ path else client.baseUrl ++ "/" ++ path

/-- The access through the client, which logs its requests. -/
def access (client : Client) : Access := ⟨client.url, true⟩

/-- Whether a character may stand in the name of a header. -/
def isTokenChar (character : Char) : Bool :=
  character.isAlphanum || "!#$%&'*+-.^_\x60|~".toList.contains character

/-- Whether a text may be the name of a header. -/
def isHeaderName (name : String) : Bool :=
  !name.isEmpty && name.toList.all isTokenChar

/-- Whether a text may be the value of a header. -/
def isHeaderValue (value : String) : Bool :=
  value.toList.all fun character =>
    character == '\t' || (0x20 ≤ character.toNat && character.toNat != 0x7F)

/-- The headers with the one that carries the token; there are none if it cannot be sent. -/
def authorize? (client : Client) (headers : NameMap String) : Option (NameMap String) :=
  match client.credentials.requestHeader? with
  | none => some headers
  | some (name, value) =>
      if isHeaderName name && isHeaderValue value then
        some (headers.insert (Text.lower name) value)
      else none

/-- The HTTP request for a request, unless it cannot be sent. -/
def prepare? (client : Client) (request : Request) : Option HttpRequest :=
  let headers : NameMap String :=
    if request.body.isSome then NameMap.empty.insert "content-type" "application/json" else .empty
  (client.authorize? headers).map fun headers =>
    ⟨request.method, client.url request.path, headers, request.body⟩

/-- A location that a response may show: blanks and visible characters of ASCII. -/
def readableLocation (location : String) : Bool :=
  location.toList.all fun character =>
    character == '\t' || (0x20 ≤ character.toNat && character.toNat < 0x7F)

/-- The response that an answer of the network is. -/
def receive (status : Nat) (body : List UInt8) (location : Option String) : Response where
  status
  body := if body.isEmpty then none else some (Text.Utf8.decodeLenient body)
  location := location.filter readableLocation

/-- The API as it is reached through the client and a network. -/
def server {σ : Type} (client : Client) (network : Network σ) : Server σ :=
  fun now request state =>
    match client.prepare? request with
    | none => (⟨.lost networkComplaint, 0⟩, state)
    | some prepared =>
        let ((delivery, delay), after) := network now prepared state
        match delivery with
        | .lost => (⟨.lost networkComplaint, delay⟩, after)
        | .answered status body location =>
            (⟨.answered (receive status body location), delay⟩, after)

end Client

end DesiredState
