import Paymaster.Number.Integer
import Paymaster.Rpc.ErrorCode
import Paymaster.Rpc.Response
import Paymaster.Time

/-!
# Call statistics

Calls are counted over all time, and for a period of retention the times of successful
and failed calls are kept, oldest first. Counting and reading both drop the times that
lie before the period; reading also counts the times within the last hour. Where the
start of a period is no instant, counting and reading fail after the counters have moved;
reading fails as well if the sum of the gas or a code has more digits than are written.
-/

namespace Paymaster

/-- How often an operation was called, and how that ended. -/
structure CallCount where
  calls : Nat := 0
  successes : Nat := 0
  failures : Nat := 0
  deriving DecidableEq, Repr

/-- The statistics of the calls of a service. -/
structure CallStats where
  retention : Int := 24
  /-- The times of successful calls, oldest first. -/
  succeeded : List Instant := []
  /-- The times of failed calls, oldest first. -/
  failed : List Instant := []
  total : CallCount := {}
  sponsorships : Nat := 0
  grants : Nat := 0
  gas : Int := 0
  byMethod : Entries Text CallCount := []
  /-- How often each code was answered, in the form in which it first came. -/
  byCode : Entries ErrorCode Nat := []
  deriving Repr

/-- What the statistics say at an instant. -/
structure CallStats.Summary where
  time : Instant
  stats : CallStats
  recentSuccesses : Nat
  recentFailures : Nat
  /-- The decimal form of the sum of the gas. -/
  gas : Text
  deriving Repr

inductive CallStats.Fault where
  /-- The start of a period is no instant. -/
  | time (fault : TimeFault)
  /-- The sum of the gas has too many digits. -/
  | gasTooLong
  /-- The code of an error has too many digits. -/
  | codeTooLong
  deriving DecidableEq, Repr

namespace CallStats

/-! ## Counters -/

def bump (success : Bool) (c : CallCount) : CallCount :=
  if success then { c with calls := c.calls + 1, successes := c.successes + 1 }
  else { c with calls := c.calls + 1, failures := c.failures + 1 }

/-! ## Retention -/

/-- The times from an instant on, where the earliest stand in front. -/
def since (cutoff : Instant) (times : List Instant) : List Instant :=
  times.dropWhile (· < cutoff)

/-- The statistics without the times before the period of retention. -/
def pruned (stats : CallStats) (now : Instant) : Except TimeFault CallStats := do
  let cutoff ← now.before (← Period.ofHours stats.retention)
  return { stats with
    succeeded := since cutoff stats.succeeded, failed := since cutoff stats.failed }

/-! ## Events -/

/-- The statistics after a call, its time kept. `code?` is none if the call succeeded, and
otherwise the code of the error. -/
def counted (stats : CallStats) (now : Instant) (method : Text) (code? : Option ErrorCode) :
    CallStats :=
  let stats :=
    { stats with
      total := bump code?.isNone stats.total
      byMethod := stats.byMethod.alter (fun c => bump code?.isNone (c.getD {})) method }
  match code? with
  | none => { stats with succeeded := stats.succeeded ++ [now] }
  | some code =>
    { stats with
      failed := stats.failed ++ [now]
      byCode := stats.byCode.alter (fun n => n.getD 0 + 1) code }

/-- Counts a call, then drops old times. The second part is a fault if the start of the
period of retention is no instant; the call is counted all the same. -/
def recordCall (stats : CallStats) (now : Instant) (method : Text)
    (code? : Option ErrorCode) : CallStats × Except TimeFault Unit :=
  let stats := stats.counted now method code?
  match stats.pruned now with
  | .ok stats => (stats, .ok ())
  | .error fault => (stats, .error fault)

def recordSponsorship (stats : CallStats) (gas : Int) : CallStats :=
  { stats with sponsorships := stats.sponsorships + 1, gas := stats.gas + gas }

def recordGrant (stats : CallStats) : CallStats :=
  { stats with grants := stats.grants + 1 }

/-! ## Summary -/

/-- How many times lie after an instant. -/
def countAfter (start : Instant) (times : List Instant) : Nat :=
  times.countP (start < ·)

def summary (stats : CallStats) (now : Instant) : Except Fault Summary := do
  let start ← (now.before .hour).mapError .time
  match Integer.write? stats.gas with
  | none => throw .gasTooLong
  | some gas =>
    if stats.byCode.all fun e => e.1.isWritten then
      return ⟨now, stats, countAfter start stats.succeeded, countAfter start stats.failed, gas⟩
    else throw .codeTooLong

/-- What the statistics say; old times are dropped. -/
def summarize (stats : CallStats) (now : Instant) : CallStats × Except Fault Summary :=
  match stats.pruned now with
  | .error fault => (stats, .error (.time fault))
  | .ok stats => (stats, stats.summary now)

def Fault.message : Fault → Text
  | .time fault => fault.message
  | .gasTooLong | .codeTooLong => Integer.unwrittenMessage

/-- The share of successes among recent calls in percent, rounded to hundredths; the
integer zero if there are no recent calls. -/
def Summary.rate (s : Summary) : Json :=
  let calls := s.recentSuccesses + s.recentFailures
  if calls = 0 then .int 0
  else
    .double ((Double.ofRatio false s.recentSuccesses calls).timesNat 100).roundHundredths

/-- The members under which codes are sent; of different codes with one text the last. -/
def codeMembers (byCode : Entries ErrorCode Nat) : Entries Text Json :=
  byCode.foldl (fun members (code, n) => members.put code.display (.int n)) []

/-- The object under which a summary is sent. -/
def Summary.toJson (s : Summary) : Json :=
  let count (n : Nat) : Json := .int n
  .object
    [("timestamp", .text s.time.calendar),
     ("overall", .object
       [("total_calls", count s.stats.total.calls),
        ("total_success", count s.stats.total.successes),
        ("total_failures", count s.stats.total.failures),
        ("sponsorships", count s.stats.sponsorships),
        ("allowance_grants", count s.stats.grants),
        ("gas_sponsored", .text s.gas)]),
     ("last_hour", .object
       [("success", count s.recentSuccesses), ("failures", count s.recentFailures),
        ("success_rate_percent", s.rate)]),
     ("by_method", .object (s.stats.byMethod.map fun (name, c) =>
       (name, .object
         [("calls", count c.calls), ("success", count c.successes),
          ("failures", count c.failures)]))),
     ("by_error_code", .object (codeMembers s.stats.byCode)),
     ("retention_hours", .int s.stats.retention)]

end CallStats

end Paymaster
