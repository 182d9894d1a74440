import WarmCache.Time.Span

/-!
# Instants

An instant is a second since 1970-01-01T00:00:00Z and the nanoseconds into it. A nanosecond
count of 10⁹ or more places the instant inside a leap second, which belongs to the second it
extends. Instants are ordered by second, then by nanosecond, and lie between `Instant.earliest`
and `Instant.latest`.

* `Instant.add` : an instant later by a span, kept in range.
* `Instant.lt_trans`, `Instant.lt_or_eq_or_gt` : the order is linear.
* `Instant.toNanos_addUnbounded` : outside leap seconds a sum is exact.
* `Timestamp` : an instant in range.
-/

namespace WarmCache

/-- A point in time, `nanos` nanoseconds into second `secs` since the start of 1970. -/
structure Instant where
  secs : Int
  nanos : Nat
deriving DecidableEq, Repr, Inhabited

namespace Instant

/-- One instant precedes another if its second does, or if they share the second and its
nanoseconds do. -/
protected def lt (a b : Instant) : Prop :=
  a.secs < b.secs ∨ (a.secs = b.secs ∧ a.nanos < b.nanos)

instance : LT Instant := ⟨Instant.lt⟩

theorem lt_def {a b : Instant} :
    a < b ↔ a.secs < b.secs ∨ (a.secs = b.secs ∧ a.nanos < b.nanos) := Iff.rfl

instance (a b : Instant) : Decidable (a < b) :=
  inferInstanceAs (Decidable (a.secs < b.secs ∨ (a.secs = b.secs ∧ a.nanos < b.nanos)))

/-- The last instant there is: +262142-12-31T23:59:59.999999999Z. -/
def latest : Instant := ⟨8210266876799, 999999999⟩

/-- The first instant there is: -262143-01-01T00:00:00Z. -/
def earliest : Instant := ⟨-8334601228800, 0⟩

/-- An instant lies inside a leap second when its nanoseconds exceed an ordinary second. -/
def inLeapSecond (t : Instant) : Bool := Span.nanosPerSec ≤ t.nanos

/-- Nanoseconds since the start of 1970; a leap second's nanoseconds count on. -/
def toNanos (t : Instant) : Int := t.secs * Span.nanosPerSec + t.nanos

/-- Milliseconds since the start of 1970, rounded down; a leap second's milliseconds count on. -/
def toMillis (t : Instant) : Int := t.secs * 1000 + (t.nanos / Span.nanosPerMilli : Nat)

/-- The instant a number of milliseconds after the start of 1970. -/
def ofMillis (n : Int) : Instant :=
  ⟨n / 1000, Span.nanosPerMilli * (n % 1000).toNat⟩

/-- Whether an instant's second lies between those of `earliest` and `latest`. -/
def inRange (t : Instant) : Bool := earliest.secs ≤ t.secs && t.secs ≤ latest.secs

/-- The instant `d` after `nanos` nanoseconds into second `secs`, with a full second carried. -/
def carry (secs : Int) (nanos : Nat) (d : Span) : Instant :=
  let sum := nanos + d.nanos
  if sum < Span.nanosPerSec then ⟨secs + d.secs, sum⟩
  else ⟨secs + d.secs + 1, sum - Span.nanosPerSec⟩

/-- `t` later by `d`, with no bound. A sum that stays within the leap second of `t` keeps its
second; one that leaves it goes on from the same fraction of the second before. -/
def addUnbounded (t : Instant) (d : Span) : Instant :=
  if t.inLeapSecond then
    if d.secs = 0 ∧ t.nanos + d.nanos < 2 * Span.nanosPerSec then ⟨t.secs, t.nanos + d.nanos⟩
    else carry t.secs (t.nanos - Span.nanosPerSec) d
  else carry t.secs t.nanos d

/-- `t` later by `d`, but no later than `latest`. -/
def add (t : Instant) (d : Span) : Instant :=
  let sum := t.addUnbounded d
  if latest.secs < sum.secs then latest else sum

/-- `t` moved by a whole number of seconds, forwards or back, and kept within range. -/
def shiftSecs (t : Instant) (n : Int) : Instant :=
  let moved : Instant :=
    if t.inLeapSecond then
      if n = 0 then t
      else if 0 < n then ⟨t.secs + n, t.nanos - Span.nanosPerSec⟩
      else ⟨t.secs + 1 + n, t.nanos - Span.nanosPerSec⟩
    else ⟨t.secs + n, t.nanos⟩
  if latest.secs < moved.secs then latest
  else if moved.secs < earliest.secs then earliest else moved

/-- The leap seconds between two instants. By the time of day alone, a leap second counts if it is
the earlier of the two. -/
def leapSecondsBetween (t now : Instant) : Int :=
  if now.secs % 86400 < t.secs % 86400 then if now.inLeapSecond then 1 else 0
  else if t.secs % 86400 < now.secs % 86400 then if t.inLeapSecond then -1 else 0
  else 0

/-- How many nanoseconds `t` lies after `now`. -/
def nanosAfter (t now : Instant) : Int :=
  Span.nanosPerSec * (t.secs - now.secs + leapSecondsBetween t now) + (t.nanos - now.nanos)

/-- How many minutes `t` lies after `now`: the part of a millisecond is dropped, and what is left
is rounded to the nearest minute. -/
def minutesAfter (t now : Instant) : Int :=
  ((t.nanosAfter now).tdiv Span.nanosPerMilli + 30000) / 60000

theorem toNanos_carry (secs : Int) (nanos : Nat) (d : Span) :
    (carry secs nanos d).toNanos = (⟨secs, nanos⟩ : Instant).toNanos + d.toNanos := by
  by_cases h : nanos + d.nanos < Span.nanosPerSec
  · simp only [carry, h, if_true, toNanos, Span.toNanos]
    simp only [Span.nanosPerSec] at *
    omega
  · simp only [carry, h, if_false, toNanos, Span.toNanos]
    simp only [Span.nanosPerSec] at *
    omega

theorem toNanos_addUnbounded (t : Instant) (d : Span) (h : t.inLeapSecond = false) :
    (t.addUnbounded d).toNanos = t.toNanos + d.toNanos := by
  simp only [addUnbounded, h]
  exact toNanos_carry t.secs t.nanos d

theorem lt_trans {a b c : Instant} (hab : a < b) (hbc : b < c) : a < c := by
  simp only [lt_def] at *
  omega

theorem lt_or_eq_or_gt (a b : Instant) : a < b ∨ a = b ∨ b < a := by
  cases a
  cases b
  simp only [lt_def, Instant.mk.injEq]
  omega

/-- An instant whose second lies between the first and the last there is and whose nanoseconds
fill at most a leap second. -/
structure Valid (t : Instant) : Prop where
  earliest_le : earliest.secs ≤ t.secs
  le_latest : t.secs ≤ latest.secs
  nanos_lt : t.nanos < 2 * Span.nanosPerSec

instance (t : Instant) : Decidable t.Valid :=
  decidable_of_iff
    (earliest.secs ≤ t.secs ∧ t.secs ≤ latest.secs ∧ t.nanos < 2 * Span.nanosPerSec)
    ⟨fun ⟨first, last, nanos⟩ => ⟨first, last, nanos⟩,
      fun ⟨first, last, nanos⟩ => ⟨first, last, nanos⟩⟩

theorem Valid.latest : Valid Instant.latest :=
  ⟨by decide, by decide, by decide⟩

theorem carry_nanos_lt {secs : Int} {nanos : Nat} {d : Span}
    (hn : nanos < Span.nanosPerSec) : (carry secs nanos d).nanos < Span.nanosPerSec := by
  have hd := d.nanos_lt
  simp only [carry]
  split
  · assumption
  · simp only [Span.nanosPerSec] at *
    omega

theorem le_carry_secs (secs : Int) (nanos : Nat) (d : Span) :
    secs + d.secs ≤ (carry secs nanos d).secs := by
  simp only [carry]
  split
  · exact Int.le_refl _
  · simp only
    omega

theorem le_addUnbounded_secs (t : Instant) (d : Span) :
    t.secs + d.secs ≤ (t.addUnbounded d).secs := by
  unfold addUnbounded
  split
  · split
    · next h =>
      rw [h.1]
      exact Int.le_of_eq (Int.add_zero _)
    · exact le_carry_secs _ _ _
  · exact le_carry_secs _ _ _

/-- A sum falls within an ordinary second, or it stays in the leap second that it began in. -/
theorem addUnbounded_nanos {t : Instant} {d : Span} (ht : t.nanos < 2 * Span.nanosPerSec) :
    (t.addUnbounded d).nanos < Span.nanosPerSec ∨
      Span.nanosPerSec ≤ t.nanos ∧ (t.addUnbounded d).secs = t.secs ∧
        (t.addUnbounded d).nanos < 2 * Span.nanosPerSec := by
  unfold addUnbounded
  cases leap : t.inLeapSecond with
  | true =>
    have inside : Span.nanosPerSec ≤ t.nanos := of_decide_eq_true leap
    simp only [if_true]
    split
    · next stays => exact .inr ⟨inside, rfl, stays.2⟩
    · refine .inl (carry_nanos_lt ?_)
      omega
  | false =>
    have outside : ¬ Span.nanosPerSec ≤ t.nanos := of_decide_eq_false leap
    simp only [Bool.false_eq_true, if_false]
    exact .inl (carry_nanos_lt (Nat.not_le.1 outside))

theorem Valid.add {t : Instant} {d : Span} (ht : t.Valid) : (t.add d).Valid := by
  unfold Instant.add
  simp only
  split
  · exact .latest
  · next kept =>
    refine ⟨?_, Int.not_lt.1 kept, ?_⟩
    · have later := le_addUnbounded_secs t d
      have first := ht.earliest_le
      omega
    · rcases addUnbounded_nanos ht.nanos_lt with h | ⟨_, _, h⟩
      · exact Nat.lt_of_lt_of_le h (by decide)
      · exact h

end Instant

/-- An instant in range, such as clocks show. -/
structure Timestamp extends Instant where
  valid : toInstant.Valid
deriving DecidableEq, Repr

namespace Timestamp

/-- The last timestamp there is. -/
def latest : Timestamp := ⟨.latest, .latest⟩

/-- An instant that is given from outside, or the last there is in place of one out of range. -/
def ofInstant (t : Instant) : Timestamp := if valid : t.Valid then ⟨t, valid⟩ else latest

instance : Coe Instant Timestamp := ⟨ofInstant⟩

/-- A timestamp later by `d`, but no later than `latest`. -/
def add (t : Timestamp) (d : Span) : Timestamp := ⟨t.toInstant.add d, t.valid.add⟩

end Timestamp

end WarmCache
