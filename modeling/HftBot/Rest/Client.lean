import HftBot.Rest.RequestSpec

/-!
# Signed requests

The part of `client.cpp` that composes and signs a request and sends it over a connection of the
pool, the replies of the transport, and the error values that `api_error.hpp` and
`request_executor.cpp` make of them. The RSA signature and the transport itself are functions of the
surroundings.
-/

namespace HftBot

inductive ErrorSource
  | transport | crypto
deriving DecidableEq, Repr

/-- A failure before any HTTP status; `code` is the transport's own code. -/
structure Error where
  source  : ErrorSource := .transport
  code    : Int := 0
  message : List Char := []
deriving DecidableEq, Repr

structure SignedRequest where
  method     : Method
  url        : List Char
  sigHeader  : List Char
  tsHeader   : List Char
  body       : List Char
  signedTsMs : Int
deriving DecidableEq, Repr

structure Response where
  status       : Int
  body         : List Char := []
  retryAfterMs : Int := -1
deriving DecidableEq, Repr

def Response.ok (r : Response) : Bool := 200 ≤ r.status ∧ r.status < 300

/-- What an attempt to send a request comes back with. -/
abbrev Reply := Except Error Response

/-- What the transport makes of one request. It may fail before any request has left the host, and
a request that is answered has left it; over a connection that turns out to be dead it may send the
request once more by itself. -/
inductive Transfer
  | failed (sent : Nat) (err : Error)
  | answered (resent : Nat) (resp : Response)
deriving DecidableEq, Repr

namespace Transfer

/-- The number of HTTP requests that leave the host. -/
def sent : Transfer → Nat
  | failed sent _     => sent
  | answered resent _ => resent + 1

def reply : Transfer → Reply
  | failed _ err    => .error err
  | answered _ resp => .ok resp

end Transfer

structure Config where
  baseUrl          : List Char := "https://external-api.kalshi.com".toList
  apiPrefix        : List Char := "/trade-api/v2".toList
  acquireTimeoutMs : Int := 1000
deriving DecidableEq, Repr

def transportError (code : Int) (message : List Char) : Error :=
  { source := .transport, code, message }

def methodString : Method → String
  | .get    => "GET"
  | .post   => "POST"
  | .put    => "PUT"
  | .delete => "DELETE"

/-- The signed message: timestamp, method and full path without the query. -/
def signedMessage (cfg : Config) (nowMs : Int) (method : Method) (path : List Char) : List Char :=
  (toString nowMs).toList ++ (methodString method).toList ++ cfg.apiPrefix ++ stripQuery path

def signRequest (sign : List Char → Except Error (List Char)) (cfg : Config) (nowMs : Int)
    (method : Method) (path jsonBody : List Char) : Except Error SignedRequest :=
  match sign (signedMessage cfg nowMs method path) with
  | .error e      => .error e
  | .ok signature => .ok {
      method
      url        := cfg.baseUrl ++ cfg.apiPrefix ++ path
      sigHeader  := "KALSHI-ACCESS-SIGNATURE: ".toList ++ signature
      tsHeader   := "KALSHI-ACCESS-TIMESTAMP: ".toList ++ (toString nowMs).toList
      body       := jsonBody
      signedTsMs := nowMs }

/-- Nothing leaves the host unless a connection of the pool becomes free in time. -/
def sendSigned (cfg : Config) (lease : Bool) (sendRequest : SignedRequest → Transfer)
    (req : SignedRequest) : Transfer :=
  if !lease then
    .failed 0 (transportError 0 ("connection pool exhausted (no free connection within ".toList ++
      (toString cfg.acquireTimeoutMs).toList ++ "ms)".toList))
  else sendRequest req

/-! ### Errors of the REST layer -/

inductive ApiErrorKind
  | transport | http | kalshi
deriving DecidableEq, Repr

structure ApiError where
  kind          : ApiErrorKind := .transport
  httpStatus    : Int := 0
  transportCode : Int := 0
  kalshiCode    : List Char := []
  message       : List Char := []
deriving DecidableEq, Repr

end HftBot
