import Paymaster.Http.Path
import Paymaster.Json.Writer
import Paymaster.Rpc.Response

/-!
# Requests and answers

What comes over HTTP and what goes back. The identifier that a caller gives a request
comes back with the answer, except where the answer was made outside the service. An answer
is sent in bytes; one that has none is a failure that is not meant for the caller.
-/

namespace Paymaster

namespace Http

structure Request where
  /-- The host that the caller addressed. -/
  host : Text
  verb : Text
  path : Text
  body : Bytes := []
  requestId : Option Text := none
  deriving Repr

inductive Body where
  | json (j : Json)
  | text (t : Text)
  deriving Repr

inductive Body.Fault where
  | notFinite
  | surrogates (run : Unencodable)
  deriving DecidableEq, Repr

def Body.Fault.message : Fault → Text
  | .notFinite => "Out of range float values are not JSON compliant"
  | .surrogates run => Utf8.surrogateMessage run

/-- The bytes in which a body is sent. -/
def Body.bytes : Body → Except Fault Bytes
  | .json j =>
    if j.isFinite then (Utf8.encode j.writeCompact).mapError .surrogates
    else .error .notFinite
  | .text t => (Utf8.encode t).mapError .surrogates

structure Answer where
  status : Nat
  body : Body
  /-- The identifier of the request comes back. -/
  echoesId : Bool := true
  location : Option Text := none
  deriving Repr

namespace Answer

def ofResponse (r : Response) : Answer :=
  { status := 200, body := .json r.toJson }

def detail (status : Nat) (reason : Text) : Answer :=
  { status, body := .json (.object [("detail", .text reason)]) }

/-- The answer for a path that is not served. -/
def notFound : Answer :=
  detail 404 "Not Found"

/-- The answer for a verb that is not served. -/
def wrongVerb : Answer :=
  detail 405 "Method Not Allowed"

/-- The answer for a failure that is not meant for the caller. -/
def internal : Answer :=
  { ofResponse (.ofError (.plain .internal)) with echoesId := false }

/-- The answer that sends the caller to another path of a host. -/
def redirect (host path : Text) : Answer :=
  match Path.escape path with
  | .ok escaped =>
    { status := 307, body := .text [], location := some ("http://" ++ host ++ escaped) }
  | .error _ => internal

def sent (a : Answer) : Answer :=
  match a.body.bytes with
  | .ok _ => a
  | .error _ => internal

/-- A place in a request and what is wrong there. -/
structure Complaint where
  place : List Text
  message : Text
  deriving Repr

/-- The answer for a request that does not have the expected form. -/
def invalid (complaints : List Complaint) : Answer :=
  ofResponse (.ofError
    { kind := .invalidRequest
      data := .array (complaints.map fun c =>
        .object [("field", .text (Text.join "." c.place)), ("message", .text c.message)]) })

end Answer

end Http

end Paymaster
