import Sagas.Text.Digit
import Sagas.Time.Calendar

/-! Points in time to the nanosecond, with leap seconds, and the ISO 8601 texts written for them. -/
namespace Sagas

open Text

/-- Seconds from 1970-01-01 00:00:00 and nanoseconds into the second. During a leap second the
seconds stay at :59 and the nanoseconds run on from 1000000000. -/
structure Moment where
  seconds : Int
  nanos : Nat
deriving DecidableEq, Inhabited

namespace Moment

/-- 1970-01-01 00:00:00. -/
def epoch : Moment :=
  ⟨0, 0⟩

def date (m : Moment) : Calendar.Date :=
  Calendar.ofDays (Int.fdiv m.seconds 86400)

/-- The second of the day, a leap second counting as the second before it. -/
def secondOfDay (m : Moment) : Nat :=
  (m.seconds - Int.fdiv m.seconds 86400 * 86400).toNat

/-! ## Text -/

/-- Four digits, or a sign and at least four digits outside the years 0 to 9999. -/
def yearText (year : Int) : List Char :=
  if 0 ≤ year ∧ year ≤ 9999 then padded 4 year.toNat
  else (if year < 0 then '-' else '+') :: padded 4 year.natAbs

/-- The date as `YYYY-MM-DD`. -/
def dateText (d : Calendar.Date) : List Char :=
  yearText d.year ++ '-' :: padded 2 d.month ++ '-' :: padded 2 d.day

/-- The time of day as `HH:MM:SS`, a leap second being `:60`. -/
def clockText (m : Moment) : List Char :=
  let s := m.secondOfDay
  let second := s % 60 + (if m.nanos < 1000000000 then 0 else 1)
  padded 2 (s / 3600) ++ ':' :: padded 2 (s / 60 % 60) ++ ':' :: padded 2 second

/-- The fraction of the second in none, three, six or nine digits, the fewest that lose nothing. -/
def fractionText (m : Moment) : List Char :=
  let n := m.nanos % 1000000000
  if n = 0 then []
  else if n % 1000000 = 0 then '.' :: padded 3 (n / 1000000)
  else if n % 1000 = 0 then '.' :: padded 6 (n / 1000)
  else '.' :: padded 9 n

/-- Date and time without an offset. -/
def localText (m : Moment) : String :=
  String.ofList (dateText m.date ++ 'T' :: clockText m ++ fractionText m)

/-- Date and time of a moment in UTC, marked by `zone`. -/
def utcText (zone : String) (m : Moment) : String :=
  m.localText ++ zone

/-- Date and time in UTC with exactly six digits of fraction. -/
def microsecondText (m : Moment) : String :=
  String.ofList (dateText m.date ++ 'T' :: clockText m ++
    '.' :: padded 6 (m.nanos % 1000000000 / 1000) ++ ['Z'])

end Sagas.Moment
