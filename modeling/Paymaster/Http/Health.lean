import Paymaster.Http.Exchange
import Paymaster.Service.Settings

/-!
# The health page

The database, the chain and the lock server each are healthy, unhealthy or not
configured. The service is unhealthy if any of them is, degraded if the database or the
chain is not configured, and healthy otherwise.
-/

namespace Paymaster.Health

/-- The condition of a part of the service. -/
inductive Status where
  | healthy
  | unhealthy
  | notConfigured
  | degraded
  deriving DecidableEq, Repr

def Status.word : Status → Text
  | .healthy => "healthy"
  | .unhealthy => "unhealthy"
  | .notConfigured => "not_configured"
  | .degraded => "degraded"

/-- A part of the service with its condition. -/
structure Part where
  status : Status
  message : Text
  /-- Further members under which the part is sent. -/
  details : Entries Text Json := []

/-- The object under which a part is sent. -/
def Part.toJson (p : Part) : Json :=
  .object (("status", .text p.status.word) :: ("message", .text p.message) :: p.details)

/-! ## Parts -/

/-- The store can be opened, and the database answers. -/
def storeAnswers (s : Settings) : Program Bool :=
  match s.store with
  | .ok _ => Program.request .pingDatabase
  | .error _ => return false

def database (answers : Bool) : Part :=
  if answers then ⟨.healthy, "Connected", []⟩ else ⟨.unhealthy, "Ping failed", []⟩

def chain (s : Settings) : Program Part := do
  match s.client with
  | .error failure => return ⟨.notConfigured, failure.message, []⟩
  | .ok client =>
    let connected ← client.isConnected
    let details : Entries Text Json :=
      [("paymaster_contract", .text client.paymaster.checksum), ("chain_id", s.chainId)]
    if connected then return ⟨.healthy, "Connected", details⟩
    else return ⟨.unhealthy, "RPC node unreachable", details⟩

def lockServer (s : Settings) : Program Part := do
  if s.usesLockServer then
    match ← Program.request .pingLockServer with
    | none => return ⟨.healthy, "Connected", []⟩
    | some reason => return ⟨.unhealthy, "Connection failed: " ++ reason, []⟩
  else return ⟨.notConfigured, "Local account locks in use", []⟩

def overall (database chain lockServer : Part) : Status :=
  if [database, chain, lockServer].any (·.status = .unhealthy) then .unhealthy
  else if [database, chain].any (·.status = .notConfigured) then .degraded
  else .healthy

/-! ## The page -/

def page (s : Settings) : Program Http.Answer := do
  let database := database (← storeAnswers s)
  let chain ← chain s
  let lockServer ← lockServer s
  match ← Program.request .summarize with
  | .error _ => return .internal
  | .ok summary =>
    let now ← Program.request .clock
    let members : Entries Text Json :=
      [("status", .text (overall database chain lockServer).word),
       ("service", s.name), ("version", s.version),
       ("services", .object
         [("database", database.toJson), ("chain", chain.toJson), ("redis", lockServer.toJson)]),
       ("metrics", summary.toJson), ("timestamp", .text now.calendar)]
    return { status := 200, body := .json (.object members) }

end Paymaster.Health
