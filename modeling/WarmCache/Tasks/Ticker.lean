import WarmCache.Time.Span

/-!
# Tickers

A ticker falls due at its deadline and is armed anew each time a tick is delivered. Deadlines are
exact, but a tick is only delivered at a whole millisecond, the first that is no earlier. A tick
that is delivered more than `Ticker.tolerance` after its deadline is late. After a late tick the
next deadline depends on what the ticker does about missed ticks: it skips to the first point of
its grid that lies ahead, or it waits a whole period from now.

Times are nanoseconds since the session began.

* `Ticker.deadline_le_of_isDue` : no tick is delivered before its deadline.
* `Ticker.lt_next` : the deadline always moves on.
* `Ticker.next_of_late_skip` : a ticker that skips is next due within one period.
-/

namespace WarmCache

/-- A span that is not zero. -/
structure Interval where
  span : Span
  pos : 0 < span.toNanos
deriving DecidableEq, Repr

namespace Interval

/-- The interval of a span, unless it is zero. -/
def ofSpan? (d : Span) : Option Interval := if h : 0 < d.toNanos then some ⟨d, h⟩ else none

/-- The length of an interval in nanoseconds. -/
def toNanos (i : Interval) : Nat := i.span.toNanos

end Interval

/-- What becomes of the ticks that a late one has overtaken. -/
inductive MissedTicks where
  /-- They are left out, and the grid of deadlines stays as it was. -/
  | skip
  /-- They are put off: the next tick is a period after the late one. -/
  | delay
deriving DecidableEq, Repr

/-- A deadline that comes back every `period`. -/
structure Ticker where
  deadline : Nat
  period : Nat
  missed : MissedTicks
  period_pos : 0 < period
deriving DecidableEq, Repr

namespace Ticker

/-- A tick is late when it comes more than five milliseconds after its deadline. -/
def tolerance : Nat := 5000000

/-- The first time that cannot be counted. Seconds are counted in a signed 64-bit word, and
from the start of the machine and not of the session. How much of the word is used up when a
session begins differs from one machine to the next; here it is a day. -/
def horizon : Nat := 9223372036854689408000000000

/-- The longest period, of thirty years. Only a first tick can take longer to come. -/
def longestPeriod : Nat := 946080000000000000

/-- The ticker of a task that begins at `now`, first due one interval later. There is none if
that deadline cannot be counted. -/
def start? (now : Nat) (i : Interval) (missed : MissedTicks) : Option Ticker :=
  if now + i.toNanos < horizon then
    some ⟨now + i.toNanos, min longestPeriod i.toNanos, missed,
      Nat.lt_min.2 ⟨by decide, i.pos⟩⟩
  else none

/-- The whole millisecond at which a tick can be delivered. -/
def dueMilli (t : Ticker) : Nat := Span.millisUp t.deadline

/-- Whether a tick can be delivered at `now`. -/
def isDue (t : Ticker) (now : Nat) : Bool := t.dueMilli ≤ now / Span.nanosPerMilli

/-- Whether a tick that is delivered at `now` is late. -/
def isLate (t : Ticker) (now : Nat) : Bool := tolerance + t.deadline < now

/-- The deadline after a tick that is delivered at `now`. -/
def next (t : Ticker) (now : Nat) : Nat :=
  if t.isLate now then
    match t.missed with
    | .skip => now + t.period - (now - t.deadline) % t.period
    | .delay => now + t.period
  else t.deadline + t.period

/-- The ticker after a tick that is delivered at `now`. -/
def deliver (t : Ticker) (now : Nat) : Ticker := { t with deadline := t.next now }

theorem deadline_le_of_isDue (t : Ticker) (now : Nat) (h : t.isDue now = true) :
    t.deadline ≤ now := by
  have due : t.dueMilli ≤ now / Span.nanosPerMilli := of_decide_eq_true h
  simp only [dueMilli, Span.millisUp, Span.nanosPerMilli] at due
  omega

theorem lt_next (t : Ticker) (now : Nat) : t.deadline < t.next now := by
  have hp := t.period_pos
  have hm := Nat.mod_lt (now - t.deadline) hp
  unfold next
  split
  · rename_i h
    simp only [isLate, decide_eq_true_eq] at h
    cases t.missed <;> dsimp only <;> omega
  · omega

theorem next_of_late_skip (t : Ticker) (now : Nat) (late : t.isLate now = true)
    (skips : t.missed = .skip) : now < t.next now ∧ t.next now ≤ now + t.period := by
  have hm := Nat.mod_lt (now - t.deadline) t.period_pos
  simp only [next, late, if_true, skips]
  omega

end Ticker

end WarmCache
