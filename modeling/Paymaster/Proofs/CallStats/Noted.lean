import Mathlib.Data.List.Induction
import Paymaster.Proofs.CallStats

/-!
# What is noted beside the statistics

Calls, sponsorships and grants are counted while time passes and summaries are asked for
(`CallStats.after`). The calls are noted beside the statistics with the times at which they were
answered (`CallStats.noted`), which are in order (`CallStats.pairwise_noted`). Of times in order,
those from a cutoff on are what is left when the earlier ones are dropped; dropping by a cutoff and
then by a later one is dropping by the later one (`CallStats.since_since`), and what lies before
either is not counted from then on (`CallStats.countAfter_since`).
-/

namespace Paymaster

namespace CallStats

/-! ## What happens to statistics -/

/-- An envelope without an error, or with an error whose code is an integer. -/
structure Reply where
  envelope : Json
  code? : Option Int
  coded : ErrorCode.ofEnvelope envelope = .ok (code?.map .int)

inductive Event where
  /-- A call of an operation is answered. -/
  | call (method : Text) (reply : Reply)
  | sponsorship (gas : Int)
  | grant
  /-- Some microseconds pass. -/
  | wait (micros : Nat)
  /-- A summary is asked for. -/
  | summary

namespace Event

def micros : Event → Nat
  | .wait micros => micros
  | _ => 0

def gas : Event → Int
  | .sponsorship gas => gas
  | _ => 0

def isSponsorship : Event → Bool
  | .sponsorship _ => true
  | _ => false

def isGrant : Event → Bool
  | .grant => true
  | _ => false

def isSummary : Event → Bool
  | .summary => true
  | _ => false

/-- Events at which old times are dropped. -/
def prunes : Event → Bool
  | .call _ _ | .summary => true
  | _ => false

end Event

/-- The time and the statistics after one more event. -/
def step (now : Instant) (stats : CallStats) : Event → CallStats
  | .call method reply =>
    match ErrorCode.ofEnvelope reply.envelope with
    | .ok code? => (stats.recordCall now method code?).1
    | .error _ => stats
  | .sponsorship gas => stats.recordSponsorship gas
  | .grant => stats.recordGrant
  | .wait _ => stats
  | .summary => (stats.summarize now).1

/-- The time after some events. -/
def timeAfter (start : Instant) (events : List Event) : Instant :=
  start + ((events.map Event.micros).sum : Nat)

/-- The statistics after some events, of which the last happens last. -/
def after (retention : Int) (start : Instant) (events : List Event) : CallStats :=
  (events.foldl (fun (now, stats) e => (now + (e.micros : Nat), step now stats e))
    ((start, { retention }) : Instant × CallStats)).2

/-! ## What happened -/

/-- A call with the time at which it was answered. -/
structure Noted where
  time : Instant
  method : Text
  /-- The code of its error, if it failed. -/
  code? : Option Int

def Noted.succeeded (c : Noted) : Bool :=
  c.code?.isNone

/-- What an event adds to the calls that were noted. -/
def Event.noted (now : Instant) : Event → List Noted
  | .call method reply => [⟨now, method, reply.code?⟩]
  | _ => []

/-- The calls among some events, oldest first. -/
def noted (now : Instant) : List Event → List Noted
  | [] => []
  | e :: rest => e.noted now ++ noted (now + (e.micros : Nat)) rest

/-- The times of the calls that succeeded, or of those that failed. -/
def times (success : Bool) (calls : List Noted) : List Instant :=
  (calls.filter fun c => c.succeeded == success).map Noted.time

/-- The counts of some calls. -/
def countOf (calls : List Noted) : CallCount :=
  { calls := calls.length
    successes := calls.countP Noted.succeeded
    failures := calls.countP fun c => !c.succeeded }

def gasOf (events : List Event) : Int :=
  (events.map Event.gas).sum

/-! ## One event more -/

variable {retention : Int} {start now : Instant} {events : List Event}

theorem timeAfter_snoc (start : Instant) (events : List Event) (e : Event) :
    timeAfter start (events ++ [e]) = timeAfter start events + (e.micros : Nat) := by
  simp [timeAfter, add_assoc]

theorem le_timeAfter (start : Instant) (events : List Event) :
    start ≤ timeAfter start events := by
  unfold timeAfter
  lia

theorem after_snoc (retention : Int) (start : Instant) (events : List Event) (e : Event) :
    after retention start (events ++ [e]) =
      step (timeAfter start events) (after retention start events) e := by
  have time (now : Instant) (stats : CallStats) :
      (events.foldl (fun (now, stats) e => (now + (e.micros : Nat), step now stats e))
        ((now, stats) : Instant × CallStats)).1 = timeAfter now events := by
    induction events generalizing now stats with
    | nil => simp [timeAfter]
    | cons e rest ih =>
      rw [List.foldl_cons, ih]
      simp [timeAfter, add_assoc]
  unfold after
  rw [List.foldl_append, ← time start { retention }]
  rfl

theorem noted_snoc (start : Instant) (events : List Event) (e : Event) :
    noted start (events ++ [e]) = noted start events ++ e.noted (timeAfter start events) := by
  induction events generalizing start with
  | nil => simp [noted, timeAfter]
  | cons e' rest ih =>
    rw [List.cons_append, noted, noted, ih, List.append_assoc]
    simp [timeAfter, add_assoc]

theorem step_call (now : Instant) (stats : CallStats) (method : Text) (reply : Reply) :
    step now stats (.call method reply) =
      (stats.recordCall now method (reply.code?.map .int)).1 := by
  simp only [step, reply.coded]

theorem time_of_mem_noted {c : Noted} {e : Event} (member : c ∈ e.noted now) : c.time = now := by
  cases e <;> simp_all [Event.noted]

/-- Nothing is noted before the start, nor later than now. -/
theorem time_of_mem {c : Noted} (member : c ∈ noted start events) :
    start ≤ c.time ∧ c.time ≤ timeAfter start events := by
  induction events using List.reverseRecOn with
  | nil => simp [noted] at member
  | append_singleton events e ih =>
    have later := timeAfter_snoc start events e
    rw [noted_snoc, List.mem_append] at member
    rcases member with earlier | last
    · have bounds := ih earlier
      lia
    · have now := time_of_mem_noted last
      have begun := le_timeAfter start events
      lia

/-- What is noted later stands later. -/
theorem pairwise_noted (start : Instant) (events : List Event) :
    (noted start events).Pairwise fun c d => c.time ≤ d.time := by
  induction events using List.reverseRecOn with
  | nil => exact List.Pairwise.nil
  | append_singleton events e ih =>
    rw [noted_snoc, List.pairwise_append]
    refine ⟨ih, ?_, fun c earlier d last => ?_⟩
    · cases e <;> simp [Event.noted]
    · rw [time_of_mem_noted last]
      exact (time_of_mem earlier).2

/-! ## Times from an instant on -/

section Since

variable {cutoff later : Instant} {times : List Instant}

theorem since_snoc (le : cutoff ≤ now) (times : List Instant) :
    since cutoff (times ++ [now]) = since cutoff times ++ [now] := by
  unfold since
  rw [List.dropWhile_append]
  split
  · rename_i none
    rw [List.isEmpty_iff.mp none]
    simpa using le
  · rfl

/-- After dropping by a cutoff, dropping by a later one is as if only it had been used. -/
theorem since_since (le : cutoff ≤ later) (times : List Instant) :
    since later (since cutoff times) = since later times := by
  induction times with
  | nil => rfl
  | cons t rest ih =>
    unfold since at ih ⊢
    by_cases early : t < cutoff
    · have earlier : t < later := by lia
      simpa [early, earlier] using ih
    · simp [early]

/-- What a cutoff drops is not counted after an instant that is no earlier. -/
theorem countAfter_since (le : cutoff ≤ later) (times : List Instant) :
    countAfter later (since cutoff times) = countAfter later times := by
  induction times with
  | nil => rfl
  | cons t rest ih =>
    unfold since countAfter at ih ⊢
    by_cases early : t < cutoff
    · have uncounted : ¬ later < t := by lia
      simpa [early, uncounted] using ih
    · simp [early]

/-- Of times in order none before the cutoff is left. -/
theorem le_of_mem_since (ordered : times.Pairwise (· ≤ ·)) {t : Instant}
    (member : t ∈ since cutoff times) : cutoff ≤ t := by
  induction times with
  | nil => simp [since] at member
  | cons first rest ih =>
    obtain ⟨least, ordered⟩ := List.pairwise_cons.mp ordered
    unfold since at ih member
    by_cases early : first < cutoff
    · exact ih ordered (by simpa [early] using member)
    · rcases List.mem_cons.mp (by simpa [early] using member) with rfl | inRest
      · lia
      · have := least t inRest
        lia

end Since

theorem pairwise_times (success : Bool) (start : Instant) (events : List Event) :
    (times success (noted start events)).Pairwise (· ≤ ·) := by
  unfold times
  rw [List.pairwise_map]
  exact (pairwise_noted start events).filter _

end CallStats

end Paymaster
