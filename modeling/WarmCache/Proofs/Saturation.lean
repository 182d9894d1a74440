import WarmCache.Proofs.Occupancy

/-!
# Expiries at the end of time

An expiry is a sum that stops at the last instant there is, and a lifetime that is too long to be
added is cut beforehand. The cut never shows: what comes out is the plain sum, or the last instant
if the second of the sum is past its second. That is the earlier of the two, unless the sum began
past the last instant already, which is possible only in the leap second that follows it.

Results:
1. `expiryFrom_ofTtl`: the expiry of an entry, for any lifetime and any reading of the clock.
2. `capped_eq_earlier`: it is the earlier of the plain sum and the last instant.
3. `Clock.now_valid`: a clock never leaves the range of instants.
-/

namespace WarmCache

/-! ## Instants -/

namespace Instant

/-- The earlier of two instants. -/
def earlier (a b : Instant) : Instant := if b < a then b else a

/-- The last instant, in place of one whose second is past it. -/
def capped (t : Instant) : Instant := if latest.secs < t.secs then latest else t

/-- From an instant that is not past the last one, a sum is past it only in a later second. -/
theorem capped_eq_earlier {t : Instant} {d : Span} (ht : t.Valid) (kept : ¬ latest < t) :
    (t.addUnbounded d).capped = earlier (t.addUnbounded d) latest := by
  have past : latest < t.addUnbounded d ↔ latest.secs < (t.addUnbounded d).secs := by
    refine ⟨fun past => ?_, .inl⟩
    -- within the last second only its leap second is past the last instant, and `t` is not in it
    have nanos := addUnbounded_nanos (d := d) ht.nanos_lt
    simp only [lt_def, latest, Span.nanosPerSec] at *
    omega
  simp only [capped, earlier, past]

theorem lt_iff_toNanos {a b : Instant} (ha : a.nanos < Span.nanosPerSec)
    (hb : b.nanos < Span.nanosPerSec) : a < b ↔ a.toNanos < b.toNanos := by
  simp only [lt_def, toNanos, Span.nanosPerSec] at *
  omega

theorem toNanos_capped {t : Instant} (ht : t.nanos < Span.nanosPerSec) :
    t.capped.toNanos = min t.toNanos latest.toNanos := by
  unfold capped
  split <;> simp only [toNanos, latest, Span.nanosPerSec] at * <;> omega

theorem ordinary_addUnbounded {t : Instant} {d : Span} (ht : t.nanos < Span.nanosPerSec) :
    (t.addUnbounded d).nanos < Span.nanosPerSec := by
  rcases addUnbounded_nanos (Nat.lt_of_lt_of_le ht (by decide)) with h | ⟨leap, _⟩
  · exact h
  · exact absurd ht (Nat.not_lt.2 leap)

/-- Outside leap seconds sums are exact until they are cut. -/
theorem toNanos_capped_add {t : Instant} {d : Span} (ht : t.nanos < Span.nanosPerSec) :
    (t.addUnbounded d).capped.toNanos = min (t.toNanos + d.toNanos) latest.toNanos := by
  rw [toNanos_capped (ordinary_addUnbounded ht),
    toNanos_addUnbounded t d (decide_eq_false (Nat.not_le_of_lt ht))]

end Instant

namespace Span

/-- A lifetime that is cut would have led past the last instant, and so does what is left. -/
theorem secs_of_exceeds {d : Span} (h : d.exceeds maxTtl = true) : maxTtl.secs ≤ d.secs := by
  simp only [exceeds, Bool.or_eq_true, Bool.and_eq_true, decide_eq_true_eq, beq_iff_eq] at h
  omega

end Span

/-- An entry expires a lifetime after it is written, but in no second after the last there is,
however long the lifetime is. -/
theorem expiryFrom_ofTtl (ttl : Span) {t : Instant} (first : Instant.earliest.secs ≤ t.secs) :
    (ExpiryPolicy.ofTtl ttl).expiryFrom t = (t.addUnbounded ttl).capped := by
  have whole : (ExpiryPolicy.ofTtl ttl).expiryFrom t = (t.addUnbounded ttl.clampTtl).capped := rfl
  rw [whole]
  unfold Span.clampTtl
  split
  · next long =>
    have past : ∀ d : Span, Span.maxTtl.secs ≤ d.secs →
        Instant.latest.secs < (t.addUnbounded d).secs := by
      intro d hd
      have later := t.le_addUnbounded_secs d
      simp only [Span.maxTtl, Instant.earliest, Instant.latest] at *
      omega
    rw [Instant.capped, if_pos (past _ (Nat.le_refl _)), Instant.capped,
      if_pos (past ttl (Span.secs_of_exceeds long))]
  · rfl

/-! ## Clocks -/

theorem ManualClock.now_valid (c : ManualClock) : c.now.Valid := by
  unfold now
  simp only
  split
  · next within =>
    simp only [Instant.inRange, Bool.and_eq_true, decide_eq_true_eq] at within
    have part : (Instant.ofMillis c.millis).nanos < Span.nanosPerSec := by
      simp only [Instant.ofMillis, Span.nanosPerMilli, Span.nanosPerSec]
      omega
    exact ⟨within.1, within.2, Nat.lt_of_lt_of_le part (by decide)⟩
  · exact .latest

/-- A clock shows instants in range only. -/
theorem Clock.now_valid (c : Clock) (elapsed : Nat) : (c.now elapsed).Valid := by
  cases c with
  | manual clock => exact clock.now_valid
  | running start => exact (start.add (Span.ofNanos elapsed)).valid
  | system reading => exact reading.valid

namespace Session

/-- A step moves a clock only by a reading or by hand. -/
theorem Step.clock {s t : Session} (h : Step s t) :
    t.clock = s.clock ∨ t.clock = s.clock.tick ∨
      ∃ before after, s.clock = .manual before ∧ t.clock = .manual after := by
  cases h with
  | request q => exact .inr (s.answered q).clock.2
  | look index =>
    have looked := s.doPiece_look index
    generalize s.doPiece (.look index) = after at looked
    cases looked with
    | idle => exact .inl rfl
    | passed => exact .inl rfl
  | @cycleEnds index result =>
    rcases s.endCycle_cases index result with eq | ⟨_, _, _, _, _, _, eq⟩
    · rw [eq]
      exact .inl rfl
    · rw [eq]
      exact .inl rfl
  | _ => exact .inl rfl

theorem now_valid (s : Session) : s.now.Valid := s.clock.now_valid s.elapsed

end Session

end WarmCache
