import WarmCache.Text.Digits
import WarmCache.Time.Instant

/-!
# Calendar text of instants

Instants are written as dates of the proleptic Gregorian calendar in UTC. Years 0 to 9999 have
four digits; any other year has a sign and at least four digits. The fraction of a second is
left out if it is zero and otherwise has three, six or nine digits, the fewest that are exact.
A leap second is written as second 60.

* `Instant.isoText` : `2024-02-29T00:00:00.500Z`.
* `Instant.plainText` : `2024-02-29 00:00:00.500 UTC`.
-/

namespace WarmCache

/-- A day of the proleptic Gregorian calendar. -/
structure Date where
  year : Int
  month : Nat
  day : Nat
deriving DecidableEq, Repr

namespace Date

/-- The date of the day that is `days` days after 1970-01-01.

The count runs in 400-year eras of 146097 days whose years start on 1 March, so that a leap day
is the last day of its year. -/
def ofDays (days : Int) : Date :=
  let fromMarch := days + 719468
  let era := fromMarch / 146097
  let dayOfEra := (fromMarch % 146097).toNat
  let yearOfEra := (dayOfEra - dayOfEra / 1460 + dayOfEra / 36524 - dayOfEra / 146096) / 365
  let dayOfYear := dayOfEra - (365 * yearOfEra + yearOfEra / 4 - yearOfEra / 100)
  let monthFromMarch := (5 * dayOfYear + 2) / 153
  let day := dayOfYear - (153 * monthFromMarch + 2) / 5 + 1
  let month := if monthFromMarch < 10 then monthFromMarch + 3 else monthFromMarch - 9
  let year := era * 400 + yearOfEra
  ⟨if month ≤ 2 then year + 1 else year, month, day⟩

end Date

/-- The text of a year: four digits for years 0 to 9999, else a sign and at least four. -/
def yearText (year : Int) : String :=
  if 0 ≤ year ∧ year ≤ 9999 then Digits.decimal 4 year.toNat
  else (if year < 0 then "-" else "+") ++ Digits.decimal 4 year.natAbs

/-- The fraction of a second: nothing if zero, else a point and the fewest of three, six or
nine digits that are exact. -/
def fractionText (nanos : Nat) : String :=
  if nanos = 0 then ""
  else if nanos % 1000000 = 0 then "." ++ Digits.decimal 3 (nanos / 1000000)
  else if nanos % 1000 = 0 then "." ++ Digits.decimal 6 (nanos / 1000)
  else "." ++ Digits.decimal 9 nanos

namespace Instant

/-- The calendar day of an instant. -/
def date (t : Instant) : Date := Date.ofDays (t.secs / 86400)

/-- The date part of an instant's text. -/
def dateText (t : Instant) : String :=
  let d := t.date
  yearText d.year ++ "-" ++ Digits.decimal 2 d.month ++ "-" ++ Digits.decimal 2 d.day

/-- The time of day of an instant; the second of a leap second is one more than its own. -/
def timeText (t : Instant) : String :=
  let secs := (t.secs % 86400).toNat
  let second := secs % 60 + if t.inLeapSecond then 1 else 0
  Digits.decimal 2 (secs / 3600) ++ ":" ++ Digits.decimal 2 (secs / 60 % 60) ++ ":" ++
    Digits.decimal 2 second ++ fractionText (t.nanos % Span.nanosPerSec)

/-- Date and time joined by `T` and closed by `Z`. -/
def isoText (t : Instant) : String := t.dateText ++ "T" ++ t.timeText ++ "Z"

/-- Date and time joined by a blank and followed by `UTC`. -/
def plainText (t : Instant) : String := t.dateText ++ " " ++ t.timeText ++ " UTC"

end Instant

end WarmCache
