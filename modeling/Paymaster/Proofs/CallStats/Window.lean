import Paymaster.Proofs.CallStats.Counters
import Paymaster.Proofs.Number.Percent

/-!
# The window of the statistics

What happened is noted beside the statistics (`CallStats.noted`), and they are compared: the
counters are those of all that was noted (`CallStats.Counts`), and the times that are kept are the
noted ones from a cutoff on, which lies no later than the period of retention reaches
(`CallStats.Keeps`). What was dropped was not counted for the last hour; so a summary tells exactly
what happened in the last hour and over all time, however often others were asked for before.

It tells so exactly if the sum of the gas and all codes are numbers that are written
(`CallStats.exact_iff`); otherwise there is no summary at all.
-/

namespace Paymaster

namespace CallStats

variable {retention : Int} {start now : Instant} {events : List Event}

/-! ## The period of retention -/

/-- The start of the period of retention. -/
def cutoff (retention : Int) (now : Instant) : Instant :=
  now - retention * Instant.hour

/-- A period of an hour at least that starts at an instant, all the time that events take. -/
structure Usable (retention : Int) (start : Instant) (events : List Event) : Prop where
  hour : 1 ≤ retention
  first : Instant.first ≤ cutoff retention start
  last : timeAfter start events ≤ Instant.last

theorem Usable.of_snoc {e : Event} (usable : Usable retention start (events ++ [e])) :
    Usable retention start events where
  hour := usable.hour
  first := usable.first
  last := by
    have later := timeAfter_snoc start events e
    have last := usable.last
    lia

/-- The period is one and its start is an instant, so that times can be dropped. -/
theorem Usable.pruned (usable : Usable retention start events) {stats : CallStats}
    (same : stats.retention = retention) :
    stats.pruned (timeAfter start events) = .ok { stats with
      succeeded := since (cutoff retention (timeAfter start events)) stats.succeeded
      failed := since (cutoff retention (timeAfter start events)) stats.failed } := by
  obtain ⟨hour, first, last⟩ := usable
  have begun := le_timeAfter start events
  unfold cutoff at first
  generalize timeAfter start events = now at *
  have days : -Period.mostDays ≤ retention * Instant.hour / Instant.day ∧
      retention * Instant.hour / Instant.day ≤ Period.mostDays := by
    simp only [Instant.first, Instant.last, Instant.hour, Instant.day, Instant.second,
      Period.mostDays] at *
    lia
  have inRange : Instant.first ≤ now - retention * Instant.hour ∧
      now - retention * Instant.hour ≤ Instant.last := by
    simp only [Instant.hour, Instant.second] at *
    lia
  unfold CallStats.pruned Period.ofHours Period.ofMicros Instant.before Instant.inRange
  simp only [same, dif_pos days, bind, Except.bind, if_pos inRange]
  rfl

/-- The times that are kept are those noted from some cutoff on, which is no later than the
start of the period of retention. -/
structure Keeps (retention : Int) (now : Instant) (calls : List Noted) (stats : CallStats) :
    Prop where
  period : stats.retention = retention
  times : ∃ early ≤ cutoff retention now,
    stats.succeeded = since early (times true calls) ∧
      stats.failed = since early (times false calls)

/-- The times that are kept are exactly those of the period of retention. -/
structure Pruned (retention : Int) (now : Instant) (calls : List Noted) (stats : CallStats) :
    Prop where
  period : stats.retention = retention
  succeeded : stats.succeeded = since (cutoff retention now) (times true calls)
  failed : stats.failed = since (cutoff retention now) (times false calls)

theorem Pruned.keeps {calls : List Noted} {stats : CallStats}
    (pruned : Pruned retention now calls stats) : Keeps retention now calls stats :=
  ⟨pruned.period, _, le_rfl, pruned.succeeded, pruned.failed⟩

theorem cutoff_le (hour : 1 ≤ retention) (now : Instant) : cutoff retention now ≤ now := by
  simp only [cutoff, Instant.hour, Instant.second]
  lia

/-- A call joins the times of its kind; dropping by the cutoff of now undoes what dropping
earlier has done. -/
theorem Keeps.counted {calls : List Noted} {stats : CallStats} (hour : 1 ≤ retention)
    (keeps : Keeps retention now calls stats) (method : Text) (code? : Option Int) :
    since (cutoff retention now) (stats.counted now method (code?.map .int)).succeeded =
        since (cutoff retention now) (CallStats.times true (calls ++ [⟨now, method, code?⟩])) ∧
      since (cutoff retention now) (stats.counted now method (code?.map .int)).failed =
        since (cutoff retention now) (CallStats.times false (calls ++ [⟨now, method, code?⟩])) := by
  obtain ⟨early, before, succeeded, failed⟩ := keeps.times
  have past := cutoff_le hour now
  have joined (times : List Instant) :
      since (cutoff retention now) (since early times ++ [now]) =
        since (cutoff retention now) (times ++ [now]) := by
    rw [← since_snoc (by lia), since_since before]
  cases code? with
  | none =>
    constructor
    · simpa [CallStats.counted, CallStats.times, Noted.succeeded, succeeded] using joined _
    · simpa [CallStats.counted, CallStats.times, Noted.succeeded, failed] using
        since_since before _
  | some code =>
    constructor
    · simpa [CallStats.counted, CallStats.times, Noted.succeeded, succeeded] using
        since_since before _
    · simpa [CallStats.counted, CallStats.times, Noted.succeeded, failed] using joined _

/-- A call and a summary drop what lies before the period of retention, and nothing else. -/
theorem Keeps.pruned_step {stats : CallStats} (usable : Usable retention start events)
    (keeps : Keeps retention (timeAfter start events) (noted start events) stats) {e : Event}
    (prunes : e.prunes = true) :
    Pruned retention (timeAfter start events) (noted start (events ++ [e]))
      (step (timeAfter start events) stats e) := by
  rw [noted_snoc]
  cases e with
  | call method reply =>
    have same : (stats.counted (timeAfter start events) method
        (reply.code?.map .int)).retention = retention := by
      cases code : reply.code? <;> exact keeps.period
    obtain ⟨succeeded, failed⟩ := keeps.counted usable.hour method reply.code?
    simp only [step_call, recordCall, usable.pruned same]
    exact ⟨same, succeeded, failed⟩
  | summary =>
    obtain ⟨early, before, succeeded, failed⟩ := keeps.times
    simp only [step, summarize, usable.pruned keeps.period]
    refine ⟨keeps.period, ?_, ?_⟩
    · simp [Event.noted, succeeded, since_since before]
    · simp [Event.noted, failed, since_since before]
  | _ => cases prunes

theorem timeAfter_of_prunes {e : Event} (prunes : e.prunes = true) :
    timeAfter start (events ++ [e]) = timeAfter start events := by
  rw [timeAfter_snoc]
  cases e with
  | call | summary => exact Int.add_zero _
  | _ => cases prunes

/-- Every other event notes no call and leaves the times that are kept. -/
theorem step_of_not_prunes {e : Event} (other : e.prunes = false) (now : Instant)
    (stats : CallStats) :
    e.noted now = [] ∧ (step now stats e).retention = stats.retention ∧
      (step now stats e).succeeded = stats.succeeded ∧
      (step now stats e).failed = stats.failed := by
  cases e with
  | call | summary => cases other
  | _ => exact ⟨rfl, rfl, rfl, rfl⟩

theorem keeps_after (usable : Usable retention start events) :
    Keeps retention (timeAfter start events) (noted start events)
      (after retention start events) := by
  induction events using List.reverseRecOn with
  | nil => exact ⟨rfl, _, le_rfl, rfl, rfl⟩
  | append_singleton events e ih =>
    have keeps := ih usable.of_snoc
    rw [after_snoc]
    cases prunes : e.prunes with
    | true =>
      rw [timeAfter_of_prunes prunes]
      exact (keeps.pruned_step usable.of_snoc prunes).keeps
    | false =>
      -- Time may pass, and the start of the period moves on with it.
      obtain ⟨period, early, before, succeeded, failed⟩ := keeps
      obtain ⟨none, samePeriod, sameSucceeded, sameFailed⟩ :=
        step_of_not_prunes prunes (timeAfter start events) (after retention start events)
      have later := timeAfter_snoc start events e
      have moved : early ≤ cutoff retention (timeAfter start (events ++ [e])) := by
        unfold cutoff at before ⊢
        lia
      rw [noted_snoc, none, List.append_nil]
      exact ⟨samePeriod.trans period, early, moved, sameSucceeded.trans succeeded,
        sameFailed.trans failed⟩

/-! ## What summaries are told for -/

/-- Events without the summaries among them. -/
def unasked (events : List Event) : List Event :=
  events.filter fun e => !e.isSummary

theorem unasked_snoc (events : List Event) (e : Event) :
    unasked (events ++ [e]) = if e.isSummary then unasked events else unasked events ++ [e] := by
  unfold unasked
  rw [List.filter_append]
  cases kind : e.isSummary <;> simp [kind]

/-- Summaries move neither the time nor what is noted nor the counters. -/
theorem same_unasked (retention : Int) (start : Instant) (events : List Event) :
    timeAfter start (unasked events) = timeAfter start events ∧
      noted start (unasked events) = noted start events ∧
      (after retention start (unasked events)).counters =
        (after retention start events).counters := by
  induction events using List.reverseRecOn with
  | nil => exact ⟨rfl, rfl, rfl⟩
  | append_singleton events e ih =>
    obtain ⟨time, calls, counters⟩ := ih
    rw [unasked_snoc, timeAfter_snoc, noted_snoc, after_snoc]
    cases kind : e.isSummary with
    | true =>
      cases e with
      | summary =>
        simpa [Event.micros, Event.noted, step, counters_summarize] using
          ⟨time, calls, counters⟩
      | _ => cases kind
    | false =>
      rw [if_neg (by decide), timeAfter_snoc, noted_snoc, after_snoc, time, calls]
      exact ⟨rfl, rfl, counters_step counters _ e⟩

/-- The counters, with the times of the period of retention. -/
def retained (retention : Int) (start : Instant) (events : List Event) : CallStats :=
  { (after retention start events).counters with
    succeeded := since (cutoff retention (timeAfter start events)) (times true (noted start events))
    failed := since (cutoff retention (timeAfter start events)) (times false (noted start events)) }

/-- What is left after dropping depends on the counters and on what was noted. -/
theorem pruned_after (usable : Usable retention start events) :
    (after retention start events).pruned (timeAfter start events) =
      .ok (retained retention start events) := by
  obtain ⟨period, early, before, succeeded, failed⟩ := keeps_after usable
  rw [usable.pruned period, succeeded, failed, since_since before, since_since before]
  rfl

/-- How many calls succeeded, or failed, in the hour before an instant. -/
def lastHour (success : Bool) (now : Instant) (calls : List Noted) : Nat :=
  calls.countP fun c =>
    c.succeeded == success && decide (now - Instant.hour < c.time) && decide (c.time ≤ now)

/-- A summary tells what happened in the last hour and over all time. -/
structure Tells (start : Instant) (events : List Event) (summary : Summary) : Prop where
  time : summary.time = timeAfter start events
  successes : summary.recentSuccesses =
    lastHour true (timeAfter start events) (noted start events)
  failures : summary.recentFailures =
    lastHour false (timeAfter start events) (noted start events)
  /-- The share is a number from 0 to 100, and 0 if there were no calls. -/
  rate : if summary.recentSuccesses + summary.recentFailures = 0 then summary.rate = .int 0
    else ∃ d : Double, summary.rate = .double d ∧ d.Within 100
  total : summary.stats.total = countOf (noted start events)
  byMethod : ∀ name, summary.stats.byMethod.lookup name = countOf? (noted start events) name
  methodsOnce : (Entries.keys summary.stats.byMethod).Nodup
  byCode : ∀ key value, (codeMembers summary.stats.byCode).lookup key = some value ↔
    ∃ code ∈ (noted start events).filterMap Noted.code?, key = Digits.signedDecimal code ∧
      value = .int (((noted start events).filterMap Noted.code?).count code)
  sponsorships : summary.stats.sponsorships = events.countP Event.isSponsorship
  grants : summary.stats.grants = events.countP Event.isGrant
  gas : summary.gas = Digits.signedDecimal (gasOf events)

/-- The sum of the gas and all codes are numbers that are written. -/
structure Written (start : Instant) (events : List Event) : Prop where
  gas : (gasOf events).natAbs < Nat.pow 10 Integer.digitLimit
  codes : ∀ code ∈ (noted start events).filterMap Noted.code?,
    code.natAbs < Nat.pow 10 Integer.digitLimit

theorem countAfter_hour {success : Bool} :
    countAfter (timeAfter start events - Instant.hour) (times success (noted start events)) =
      lastHour success (timeAfter start events) (noted start events) := by
  unfold countAfter times lastHour
  rw [List.countP_map, List.countP_filter]
  refine List.countP_congr fun c member => ?_
  have past := (time_of_mem member).2
  simp [past, and_comm]

theorem rate_within {summary : Summary} :
    if summary.recentSuccesses + summary.recentFailures = 0 then summary.rate = .int 0
    else ∃ d : Double, summary.rate = .double d ∧ d.Within 100 := by
  unfold Summary.rate
  split
  · rename_i none
    rw [if_pos none]
  · rename_i some
    rw [if_neg some]
    exact ⟨_, rfl, Double.percent_within (Nat.le_add_right _ _) (Nat.pos_of_ne_zero some)⟩

/-- The hour before a summary starts at an instant. -/
theorem Usable.before_hour (usable : Usable retention start events) :
    (timeAfter start events).before .hour = .ok (timeAfter start events - Instant.hour) := by
  obtain ⟨hour, first, last⟩ := usable
  have begun := le_timeAfter start events
  refine if_pos ?_
  simp only [cutoff, Period.hour, Instant.hour, Instant.second] at *
  lia

/-- The summary of what is retained. -/
def retainedSummary (retention : Int) (start : Instant) (events : List Event) : Summary where
  time := timeAfter start events
  stats := retained retention start events
  recentSuccesses := countAfter (timeAfter start events - Instant.hour)
    (retained retention start events).succeeded
  recentFailures := countAfter (timeAfter start events - Instant.hour)
    (retained retention start events).failed
  gas := Digits.signedDecimal (gasOf events)

/-- There is a summary exactly if all numbers are written. -/
theorem summarize_after_iff (usable : Usable retention start events) {summary : Summary} :
    ((after retention start events).summarize (timeAfter start events)).2 = .ok summary ↔
      Written start events ∧ summary = retainedSummary retention start events := by
  have gas : (retained retention start events).gas = gasOf events :=
    (deeds_after retention start events).gas
  have codes : (retained retention start events).byCode =
      (tally ((noted start events).filterMap Noted.code?)).map fun e => (.int e.1, e.2) :=
    (counts_after retention start events).byCode
  rw [summarize_eq_ok_iff, pruned_after usable]
  simp only [Except.ok.injEq, exists_eq_left', summary_eq_ok_iff, usable.before_hour, gas,
    Integer.write?, codes, codes_written_iff]
  split
  · rename_i short
    simp only [Option.some.injEq]
    constructor
    · rintro ⟨_, _, rfl, rfl, codes, same⟩
      exact ⟨⟨short, codes⟩, same⟩
    · rintro ⟨written, same⟩
      exact ⟨_, _, rfl, rfl, written.codes, same⟩
  · rename_i long
    simp only [reduceCtorEq, false_and, and_false, exists_false, false_iff]
    exact fun given => long given.1.gas

/-- The summary of what is retained tells what happened. -/
theorem tells_retainedSummary (hour : 1 ≤ retention) (start : Instant) (events : List Event) :
    Tells start events (retainedSummary retention start events) := by
  have counts : Counts (noted start events) (retained retention start events) :=
    { counts_after retention start events with }
  have deeds : Deeds events (retained retention start events) :=
    { deeds_after retention start events with }
  have within : cutoff retention (timeAfter start events) ≤
      timeAfter start events - Instant.hour := by
    simp only [cutoff, Instant.hour, Instant.second]
    lia
  exact {
    time := rfl
    successes := (countAfter_since within _).trans countAfter_hour
    failures := (countAfter_since within _).trans countAfter_hour
    rate := rate_within
    total := counts.total
    byMethod := counts.byMethod
    methodsOnce := counts.methodsOnce
    byCode := by
      intro key value
      show (codeMembers (retained retention start events).byCode).lookup key = some value ↔ _
      rw [counts.byCode]
      exact lookup_codeMembers _ key value
    sponsorships := deeds.sponsorships
    grants := deeds.grants
    gas := rfl }

/-- A summary that is told is right, and there is one exactly if all numbers are written. -/
theorem told_iff (usable : Usable retention start events) :
    (∃ summary, ((after retention start events).summarize (timeAfter start events)).2 =
        .ok summary ∧ Tells start events summary) ↔ Written start events := by
  simp only [summarize_after_iff usable]
  constructor
  · rintro ⟨_, ⟨written, -⟩, -⟩
    exact written
  · exact fun written => ⟨_, ⟨written, rfl⟩, tells_retainedSummary usable.hour start events⟩

/-- What a window of statistics promises whatever is counted. -/
structure Tidy (retention : Int) (start : Instant) (events : List Event) : Prop where
  /-- After a call or a summary no time is kept that lies before the period of retention. -/
  kept : ∀ before e, events = before ++ [e] → e.prunes = true →
    ∀ t, t ∈ (after retention start events).succeeded ∨
        t ∈ (after retention start events).failed →
      cutoff retention (timeAfter start events) ≤ t
  /-- Without the summaries that were asked for, or with others, the same would be told. -/
  unaffected : ∀ others, unasked others = unasked events →
    ((after retention start others).summarize (timeAfter start others)).2 =
      ((after retention start events).summarize (timeAfter start events)).2

/-- What a window of statistics promises. -/
structure Exact (retention : Int) (start : Instant) (events : List Event) : Prop
    extends Tidy retention start events where
  told : ∃ summary, ((after retention start events).summarize (timeAfter start events)).2 =
    .ok summary ∧ Tells start events summary

theorem tidy (usable : Usable retention start events) : Tidy retention start events := by
  constructor
  case kept =>
    intro before e ends prunes t member
    subst ends
    have pruned := (keeps_after usable.of_snoc).pruned_step usable.of_snoc prunes
    rw [after_snoc, pruned.succeeded, pruned.failed] at member
    rw [timeAfter_of_prunes prunes]
    rcases member with member | member
    · exact le_of_mem_since (pairwise_times true start _) member
    · exact le_of_mem_since (pairwise_times false start _) member
  case unaffected =>
    intro others same
    obtain ⟨time, calls, counters⟩ := same_unasked retention start events
    obtain ⟨time', calls', counters'⟩ := same_unasked retention start others
    rw [same] at time' calls' counters'
    have usable' : Usable retention start others :=
      ⟨usable.hour, usable.first, by rw [← time', time]; exact usable.last⟩
    unfold summarize
    rw [pruned_after usable, pruned_after usable', retained, retained, ← time, ← calls,
      ← counters, ← time', ← calls', ← counters']

/-- The window is exact if and only if the sum of the gas and all codes are written; and in any
case it keeps no time for too long and is not changed by looking at it. -/
theorem exact_iff (usable : Usable retention start events) :
    (Exact retention start events ↔ Written start events) ∧ Tidy retention start events := by
  refine ⟨⟨fun exact => (told_iff usable).mp exact.told, fun written => ?_⟩, tidy usable⟩
  exact ⟨tidy usable, (told_iff usable).mpr written⟩

/-- Two calls more than an hour apart, the second one failing, and a summary between them. -/
def sparse : List Event :=
  [.call "pm_config" ⟨.object [("result", .null)], none, rfl⟩, .sponsorship 21000, .summary,
    .wait 4000000000, .grant,
    .call "pm_unknown" ⟨.object [("error", .object [("code", .int (-32601))])], some (-32601), rfl⟩]

/-- The window is exact for two calls more than an hour apart. -/
theorem exact_iff_sparse : Usable 24 0 sparse ∧ Written 0 sparse ∧ Exact 24 0 sparse := by
  have usable : Usable 24 0 sparse := ⟨by decide, by decide, by decide⟩
  have small {n : Nat} (small : n < 10 ^ 5) : n < Nat.pow 10 Integer.digitLimit := by
    have enough : 5 ≤ Integer.digitLimit := by decide
    generalize Integer.digitLimit = limit at enough ⊢
    exact small.trans_le (Nat.pow_le_pow_right (by decide) enough)
  have written : Written 0 sparse :=
    ⟨small (by decide), fun code member => by
      obtain rfl : code = -32601 := by simpa [sparse, noted, Event.noted] using member
      exact small (by decide)⟩
  exact ⟨usable, written, (exact_iff usable).1.mpr written⟩

/-- Half of the least number that has too many digits. -/
def halfTooLong : Nat :=
  5 * Nat.pow 10 (Integer.digitLimit - 1)

theorem halfTooLong_twice : halfTooLong + halfTooLong = Nat.pow 10 Integer.digitLimit := by
  have some : 0 < Integer.digitLimit := by decide
  unfold halfTooLong
  generalize Integer.digitLimit = limit at some ⊢
  obtain ⟨fewer, rfl⟩ : ∃ fewer, limit = fewer + 1 := ⟨limit - 1, by omega⟩
  have step : Nat.pow 10 (fewer + 1) = Nat.pow 10 fewer * 10 := pow_succ 10 fewer
  rw [step, Nat.add_sub_cancel]
  omega

/-- There is no summary after two sponsorships that together have too much gas to be written. -/
theorem not_exact_wide_gas :
    ¬ Exact 24 0 [.sponsorship halfTooLong, .sponsorship halfTooLong] := by
  intro exact
  have usable : Usable 24 0 [.sponsorship halfTooLong, .sponsorship halfTooLong] :=
    ⟨by decide, by decide, by decide⟩
  have short := ((told_iff usable).mp exact.told).gas
  have sum (gas : Nat) :
      gasOf [.sponsorship gas, .sponsorship gas] = ((gas + gas : Nat) : Int) := by
    simp [gasOf, Event.gas]
  rw [sum, Int.natAbs_natCast, halfTooLong_twice] at short
  exact Nat.lt_irrefl _ short

end CallStats

end Paymaster
