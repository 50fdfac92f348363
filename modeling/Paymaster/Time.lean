import Paymaster.Number.Double

/-!
# Time

An instant is a number of microseconds since the start of 1970, in the years 1 to 9999. A
period is a number of microseconds, forwards or backwards, of fewer than a thousand million
days. A sum that leaves the years has no instant, and a period with more days is not formed.
-/

namespace Paymaster

abbrev Instant : Type := Int

namespace Instant

def first : Instant := -62135596800000000

/-- The last microsecond of the year 9999. -/
def last : Instant := 253402300799999999

def second : Int := 1000000

def hour : Int := 3600 * second

def day : Int := 24 * hour

end Instant

/-! ## Faults -/

/-- Why there is no instant or no period. -/
inductive TimeFault where
  /-- A sum leaves the years 1 to 9999. -/
  | outOfRange
  | tooManyDays (days : Int)
  /-- A period has so many days that their number does not fit 32 bits. -/
  | uncountable
  deriving DecidableEq, Repr

def TimeFault.message : TimeFault → Text
  | .outOfRange => "date value out of range"
  | .tooManyDays days =>
    "days=" ++ Digits.signedDecimal days ++ "; must have magnitude <= 999999999"
  | .uncountable => "Python int too large to convert to C int"

/-! ## Periods -/

/-- The most days of a period in either direction. -/
def Period.mostDays : Int := 999999999

/-- A period. Its days are rounded down, so a period backwards may have less than a day
more than one forwards. -/
structure Period where
  micros : Int
  not_below : -Period.mostDays ≤ micros / Instant.day
  not_above : micros / Instant.day ≤ Period.mostDays
  deriving DecidableEq, Repr

namespace Period

/-- The period of a number of microseconds. -/
def ofMicros (micros : Int) : Except TimeFault Period :=
  let days := micros / Instant.day
  if h : -mostDays ≤ days ∧ days ≤ mostDays then .ok ⟨micros, h.1, h.2⟩
  else if -(Nat.pow 2 31 : Int) ≤ days ∧ days < (Nat.pow 2 31 : Int) then
    .error (.tooManyDays days)
  else .error .uncountable

/-- The period of a number of hours. -/
def ofHours (hours : Int) : Except TimeFault Period :=
  ofMicros (hours * Instant.hour)

def hour : Period := ⟨Instant.hour, by decide, by decide⟩

def day : Period := ⟨Instant.day, by decide, by decide⟩

end Period

namespace Instant

/-! ## Sums -/

/-- A number of microseconds as an instant. -/
def inRange (micros : Int) : Except TimeFault Instant :=
  if first ≤ micros ∧ micros ≤ last then .ok micros else .error .outOfRange

def after (t : Instant) (p : Period) : Except TimeFault Instant :=
  inRange (t + p.micros)

def before (t : Instant) (p : Period) : Except TimeFault Instant :=
  inRange (t - p.micros)

/-- The instant that many microseconds after another. -/
def shift (t : Instant) (micros : Int) : Except TimeFault Instant :=
  Period.ofMicros micros >>= t.after

/-- The instant that many microseconds after the start of 1970. -/
def ofMicros (micros : Int) : Except TimeFault Instant :=
  shift 0 micros

/-! ## Seconds -/

/-- The whole seconds of an instant: its quotient by a million as a double, the fraction
dropped. Far from 1970 the double may be the next second. -/
def unixSeconds (t : Instant) : Int :=
  ((Double.ofRatio (t < 0) t.natAbs 1000000).truncate?).getD 0

/-! ## Calendar -/

/-- Year, month and day of a number of days since the start of 1970. -/
def civil (days : Int) : Int × Nat × Nat :=
  let shifted := days + 719468
  let era := shifted / 146097
  let dayOfEra := (shifted % 146097).toNat
  let yearOfEra := (dayOfEra - dayOfEra / 1460 + dayOfEra / 36524 - dayOfEra / 146096) / 365
  let dayOfYear := dayOfEra - (365 * yearOfEra + yearOfEra / 4 - yearOfEra / 100)
  let shiftedMonth := (5 * dayOfYear + 2) / 153
  let dayOfMonth := dayOfYear - (153 * shiftedMonth + 2) / 5 + 1
  let month := if shiftedMonth < 10 then shiftedMonth + 3 else shiftedMonth - 9
  (yearOfEra + era * 400 + (if month ≤ 2 then 1 else 0), month, dayOfMonth)

/-- A fraction of a second in millionths behind a point; nothing if it is zero. -/
def fractionText (millionths : Nat) : Text :=
  if millionths = 0 then [] else '.' :: Digits.padded 10 6 millionths

/-- The calendar form of an instant, with a fraction of six digits unless it is zero and
with `Z` behind it. -/
def calendar (t : Instant) : Text :=
  let (year, month, dayOfMonth) := civil (t / day)
  let micros := (t % day).toNat
  let seconds := micros / 1000000
  Digits.padded 10 4 year.toNat ++ "-" ++ Digits.padded 10 2 month ++ "-"
    ++ Digits.padded 10 2 dayOfMonth ++ "T" ++ Digits.padded 10 2 (seconds / 3600) ++ ":"
    ++ Digits.padded 10 2 (seconds / 60 % 60) ++ ":" ++ Digits.padded 10 2 (seconds % 60)
    ++ fractionText (micros % 1000000) ++ "Z"

end Instant

end Paymaster
