import Paymaster.Rpc.Error
import Paymaster.Text.LowerCase

/-!
# Locks of a lock server

Workers that share a lock server take a lease on a key made of the lower-case address.
A lease runs out after its timeout, and a worker waits for it no longer than the blocking
timeout. Whoever does not get a lease is told so by a coded error; what goes wrong when a
lease is given back is not seen by the caller.
-/

namespace Paymaster

inductive LockFault where
  /-- The lease did not become free in time. -/
  | busy
  | unavailable
  deriving DecidableEq, Repr

/-- The coded error for an address that is not locked. -/
def LockFault.toError : LockFault → RpcError
  | .busy => .because .internal "account busy"
  | .unavailable => .because .internal "account lock unavailable"

namespace Lease

/-- What an attempt to take a lease comes to: it is given, or not in time, or an error tells
of trouble with the lock server. -/
def verdict : Except Text Bool → Except LockFault Unit
  | .ok true => .ok ()
  | .ok false => .error .busy
  | .error _ => .error .unavailable

/-- The key of an address at the lock server. -/
def key (address : Text) : Text :=
  "paymaster:lock:account:" ++ address.lower

/-- How long a lease runs and how long a worker waits for it, in seconds. -/
structure Terms where
  timeout : Json := .double (.ofDecimal false 30 0)
  blockingTimeout : Json := .double (.ofDecimal false 10 0)
  deriving Repr

/-- What the lock server sees of its workers. -/
inductive Event where
  /-- A worker prepares a lease on a key. -/
  | prepared (key : Text) (terms : Terms)
  | acquire
  | release
  deriving Repr

/-- How a lock server answers. -/
inductive Conduct where
  /-- Every lease is given and taken back. -/
  | orderly
  /-- No lease becomes free. -/
  | busy
  /-- No answer to a request for a lease. -/
  | silent
  /-- Leases are given, but giving them back fails. -/
  | failsRelease
  deriving DecidableEq, Repr

/-- What the lock server sees of a request for a lease, and how the request ends. -/
def Conduct.enter (conduct : Conduct) (terms : Terms) (address : Text) :
    List Event × Except LockFault Unit :=
  let prepared := Event.prepared (key address) terms
  match conduct with
  | .orderly | .failsRelease => ([prepared, .acquire], .ok ())
  | .busy => ([prepared, .acquire], .error .busy)
  | .silent => ([prepared], .error .unavailable)

/-- The answer to an attempt to take a lease. -/
def Conduct.answer : Conduct → Except Text Bool
  | .orderly | .failsRelease => .ok true
  | .busy => .ok false
  | .silent => .error "redis down"

theorem Conduct.enter_eq_verdict (conduct : Conduct) (terms : Terms) (address : Text) :
    (conduct.enter terms address).2 = verdict conduct.answer := by
  cases conduct <;> rfl

end Lease

end Paymaster
