import Paymaster.Access.Gate
import Paymaster.Http.Health
import Paymaster.Service.Methods

/-!
# The endpoint

A body that is posted to the path of a key is answered with an envelope: the store is opened
first, an empty body is refused, then the key is checked, then the engine is made, then the
body is dispatched. Other verbs on the path of a key are refused in an envelope as well. What
is not meant for the caller is answered by one and the same envelope, and so is a request whose
answer cannot be sent.

Every request is logged under its path, for which its address is split before anything else is
done (`Endpoint.serve`). One whose address cannot be split is a failure that is not meant for
the caller.
-/

namespace Paymaster.Endpoint

open Http

/-! ## Posting -/

/-- Answers a body that is posted to the path of a key. -/
def post (s : Settings) (key : Text) (body : Bytes) : Action (Except Escape Response) := do
  let () ← Action.ofExcept s.store
  if body.isEmpty then throw (.because .parse "No POST data")
  let _ ← Gate.authorize (some key)
  let engine ← s.engine
  ExceptT.lift ((Methods.dispatcher engine).handle body)

/-- The answer that an outcome is sent as. -/
def answerOf : Except Failure (Except Escape Response) → Answer
  | .ok (.ok response) => .ofResponse response
  | .ok (.error _) => .internal
  | .error (.rpc e) => .ofResponse (.ofError e)
  | .error _ => .internal

/-! ## Routes -/

/-- The refusal of a verb on the path of a key. -/
def postExpected : Answer :=
  .ofResponse (.ofError (.because .parse "POST method expected"))

/-- The refusal of a body without a key. -/
def keyMissing : Answer :=
  .ofResponse (.ofError { kind := .parse, message := "Key error", data := .text "No key" })

/-- The verbs that are refused in an envelope. -/
def refusedVerbs : List Text :=
  ["GET", "PUT", "PATCH", "DELETE"]

/-- The answer for a path that is no key, with a verb that its route does not serve. -/
def unserved (r : Http.Request) : Answer :=
  if r.path = Path.root then .wrongVerb
  else
    match Path.redirect? r.path with
    | some path => .redirect r.host path
    | none => .notFound

/-- The answer to a request, made by the route of its path. -/
def route (s : Settings) (r : Http.Request) : Program Answer :=
  if Path.isAt Path.root r.path ∧ r.verb = "POST" then return keyMissing
  else if Path.isAt Path.health r.path ∧ r.verb = "GET" then Health.page s
  else
    match Path.segment? r.path with
    | none => return unserved r
    | some key =>
      if r.verb = "POST" then answerOf <$> (post s key r.body).run
      else return if refusedVerbs.contains r.verb then postExpected else .wrongVerb

def respond (s : Settings) (r : Http.Request) : Program Answer :=
  Answer.sent <$> route s r

/-- Answers a request behind the log. Whether an address can be split, of which the caller sends
the host, is up to the library that splits it. -/
def serve (splits : Text → Text → Bool) (s : Settings) (r : Http.Request) : Program Answer :=
  if splits r.host r.path then respond s r else return .internal

end Paymaster.Endpoint
