import WarmCache.Time.Instant

/-!
# Clocks

A clock tells the present instant. A manual clock stands still except when it is moved by hand
and counts whole milliseconds in a signed 64-bit word; a running clock follows the time that
passes in a session; a system clock follows real time.

* `ManualClock.advance`, `ManualClock.now` : a clock is moved, and read.
* `Clock.now`, `Clock.tick` : what a clock shows, and how it is moved by being read.
-/

namespace WarmCache

/-- The least number that a signed 64-bit word holds. -/
def wordMin : Int := -9223372036854775808
/-- The greatest number that a signed 64-bit word holds. -/
def wordMax : Int := 9223372036854775807

/-- A clock that is moved by hand and counts whole milliseconds. -/
structure ManualClock where
  millis : Int
deriving DecidableEq, Repr

namespace ManualClock

/-- A manual clock that shows `t`, rounded down to the millisecond. -/
def showing (t : Instant) : ManualClock := ⟨t.toMillis⟩

/-- Moves the clock on by the whole milliseconds of `d`; the count stops at `wordMax`. -/
def advance (c : ManualClock) (d : Span) : ManualClock :=
  let step := min (d.wholeMillis : Int) wordMax
  ⟨min (c.millis + step) wordMax⟩

/-- The instant the clock shows. A count outside the range of instants reads as the latest. -/
def now (c : ManualClock) : Instant :=
  let t := Instant.ofMillis c.millis
  if t.inRange then t else Instant.latest

end ManualClock

/-- The clock that a cache reads. -/
inductive Clock where
  /-- Moved by hand. -/
  | manual (clock : ManualClock)
  /-- Shows `start` when the session begins and follows the session's time. -/
  | running (start : Timestamp)
  /-- Follows real time, of which `reading` is the last that was taken. -/
  | system (reading : Timestamp)
deriving DecidableEq, Repr

namespace Clock

/-- The instant a clock shows after `elapsed` nanoseconds of a session. -/
def now (elapsed : Nat) : Clock → Instant
  | manual c => c.now
  | running start => (start.add (Span.ofNanos elapsed)).toInstant
  | system reading => reading.toInstant

/-- Real time never stands still: a system clock is a microsecond on by its next reading. -/
def tick : Clock → Clock
  | system reading => system (reading.add ⟨0, 1000⟩)
  | c => c

end Clock

end WarmCache
