/-
Readings of a clock.

A clock tells instants to the nanosecond.  What is recorded of a reading is what its text is
read as, so that a time in use is the one that is stored:

* **`Instant.text`** — RFC 3339 with six places and `Z`; further places are dropped;
* **`Instant.recorded`** — the time that a reading is recorded as.
-/
import PlanHistory.Timestamp

namespace PlanHistory

/-- An instant to the nanosecond: whole seconds since 1970 and the nanoseconds beyond.  A leap
second goes by the number of the second before it, with a thousand million nanoseconds and
more. -/
structure Instant where
  second : Int
  nano : Nat
  nano_lt : nano < 1000000000 ∨ (second % 60 = 59 ∧ nano < 2000000000)
deriving DecidableEq, Repr

namespace Instant

open CalendarDate (padded)

/-- The instant some nanoseconds after the start of 1970. -/
def ofNanos (nanos : Int) : Instant :=
  ⟨nanos / 1000000000, (nanos % 1000000000).toNat, by omega⟩

/-- The instant to the microsecond, without what is beyond. -/
def truncated (t : Instant) : Timestamp :=
  ⟨t.second, t.nano / 1000, by have := t.nano_lt; omega⟩

/-- RFC 3339 with six places and `Z`. -/
def text (t : Instant) : String :=
  let date := CalendarDate.ofDays (t.second / 86400)
  let secondOfDay := (t.second % 86400).toNat
  String.ofList <|
    CalendarDate.yearText date.year ++ '-' :: padded 2 date.month ++ '-' :: padded 2 date.day
      ++ 'T' :: padded 2 (secondOfDay / 3600) ++ ':' :: padded 2 (secondOfDay / 60 % 60)
      ++ ':' :: padded 2 (secondOfDay % 60 + t.nano / 1000000000)
      ++ '.' :: padded 6 (t.nano % 1000000000 / 1000) ++ ['Z']

/-- The time that a reading is recorded as. -/
def recorded (t : Instant) : Timestamp :=
  (Timestamp.ofText? t.text).getD t.truncated

end Instant

end PlanHistory
