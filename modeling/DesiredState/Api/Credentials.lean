import DesiredState.Text.Ascii
import DesiredState.Text.Quoted

/-!
# Tokens of a client

A client sends its token in a request header. Another token may be pushed for a while and
popped again; the tokens before it are kept on a stack. An empty token is no token. The
header `Authorization` carries a token as a bearer token, any other header as it is.
-/

set_option autoImplicit false

namespace DesiredState

/-- The tokens of one client and the header that carries them. -/
structure Credentials where
  token : Option String
  header : String
  /-- The tokens to return to, the latest first. -/
  saved : List (Option String)
  deriving DecidableEq, Repr

namespace Credentials

/-- The header that carries tokens unless another one is named. -/
def standardHeader : String := "Authorization"

/-- A token, unless it is empty. -/
def nonempty (token : Option String) : Option String :=
  token.filter fun text => !text.isEmpty

/-- Credentials with a token, if there is one, and nothing to return to. -/
def ofToken (token : Option String) (header : String) : Credentials :=
  ⟨nonempty token, header, []⟩

/-- Credentials with a bearer token. -/
def bearer (token : String) : Credentials := ofToken (some token) standardHeader

/-- Credentials without a token. -/
def anonymous : Credentials := ofToken none standardHeader

/-- Whether there is a token. -/
def hasToken (credentials : Credentials) : Bool := credentials.token.isSome

/-- The credentials with another token. -/
def setToken (credentials : Credentials) (token : Option String) : Credentials :=
  { credentials with token := nonempty token }

/-- The credentials with another token for a while. -/
def push (credentials : Credentials) (token : String) : Credentials :=
  { credentials with
    token := nonempty (some token)
    saved := credentials.token :: credentials.saved }

/-- The credentials with the token from before the last push; without one they stay. -/
def pop (credentials : Credentials) : Credentials :=
  match credentials.saved with
  | [] => credentials
  | previous :: rest => { credentials with token := previous, saved := rest }

@[simp] theorem pop_push (credentials : Credentials) (token : String) :
    (credentials.push token).pop = credentials := rfl

/-- The header of a request that carries the token, with its value. -/
def requestHeader? (credentials : Credentials) : Option (String × String) :=
  credentials.token.map fun token =>
    if Text.sameLetters credentials.header standardHeader then
      (standardHeader, "Bearer " ++ token)
    else (credentials.header, token)

/-- The description of the credentials, which does not show the token. -/
def describe (credentials : Credentials) : String :=
  Text.Quoted.record "ApiAuth" [
    ("token", Text.Quoted.redacted credentials.hasToken),
    ("token_header", Text.Quoted.encode credentials.header),
    ("stacked", toString credentials.saved.length)]

end Credentials

end DesiredState
