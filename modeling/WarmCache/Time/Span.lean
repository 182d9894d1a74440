/-!
# Spans of time

A span is a length of time in whole seconds and nanoseconds, never negative. Configured
lifetimes, intervals and the distances that a clock is moved are all spans.

* `Span.clampTtl` : the longest part of a lifetime that can be added to an instant.
* `Span.toNanos_ofNanos` : every length in nanoseconds is that of a span.
-/

namespace WarmCache

namespace Span

/-- One second in nanoseconds. -/
def nanosPerSec : Nat := 1000000000

/-- One millisecond in nanoseconds. -/
def nanosPerMilli : Nat := 1000000

/-- The part of a number of nanoseconds that does not make up whole seconds. -/
def subsecond (n : Nat) : Fin nanosPerSec := ⟨n % nanosPerSec, Nat.mod_lt n (by decide)⟩

instance : Coe Nat (Fin nanosPerSec) := ⟨subsecond⟩

instance (n : Nat) : OfNat (Fin nanosPerSec) n := ⟨subsecond n⟩

end Span

/-- A length of time of `secs` seconds and a part of another, in nanoseconds. -/
structure Span where
  secs : Nat
  part : Fin Span.nanosPerSec
deriving DecidableEq, Repr

namespace Span

/-- The nanoseconds of a span beyond its whole seconds. -/
def nanos (d : Span) : Nat := d.part

theorem nanos_lt (d : Span) : d.nanos < nanosPerSec := d.part.isLt

/-- The whole length in nanoseconds. -/
def toNanos (d : Span) : Nat := nanosPerSec * d.secs + d.nanos

/-- The span of a given number of nanoseconds. -/
def ofNanos (n : Nat) : Span := ⟨n / nanosPerSec, subsecond n⟩

/-- The span of a given number of milliseconds. -/
def ofMillis (n : Nat) : Span :=
  ⟨n / 1000, nanosPerMilli * (n % 1000), by simp only [nanosPerMilli, nanosPerSec]; omega⟩

/-- The span of a given number of seconds. -/
def ofSecs (n : Nat) : Span := ⟨n, 0⟩

/-- The whole milliseconds in a span; a part of a millisecond is dropped. -/
def wholeMillis (d : Span) : Nat := 1000 * d.secs + d.nanos / nanosPerMilli

/-- The milliseconds in a number of nanoseconds, a part of one counted as a whole. -/
def millisUp (n : Nat) : Nat := (999999 + n) / nanosPerMilli

/-- The longest lifetime that can be added to an instant: the largest number of whole
milliseconds that fits a signed 64-bit word. -/
def maxTtl : Span := ⟨9223372036854775, 807000000⟩

/-- Whether a span exceeds another: it has more seconds, or as many and more nanoseconds. -/
def exceeds (d e : Span) : Bool := e.secs < d.secs || (e.secs == d.secs && e.nanos < d.nanos)

/-- A lifetime longer than `maxTtl` counts as `maxTtl`. -/
def clampTtl (d : Span) : Span := if d.exceeds maxTtl then maxTtl else d

theorem toNanos_ofNanos (n : Nat) : (ofNanos n).toNanos = n := by
  simp only [ofNanos, toNanos]
  exact Nat.div_add_mod n nanosPerSec

end Span

end WarmCache
