import WarmCache.Proofs.Lifetimes

/-!
# When entries expire

Away from leap seconds an instant is a number of nanoseconds, and so is a lifetime. In these
numbers an expiry is the sum of the two, or the last instant there is if the sum is past it. That
the lifetime was cut to what can be added to an instant does not show in it.

Results:
1. `Instant.Ordinary.lt_iff`: instants are ordered as their numbers.
2. `toNanos_expiryFrom`: the number of an expiry.
3. `isExpiredAt_expiryFrom`: the readings at which it has passed.
4. `expiry_is_capped_sum`: both, and what follows from them.
-/

namespace WarmCache

namespace Instant

/-- An instant outside leap seconds that is no later than the last there is. -/
structure Ordinary (t : Instant) : Prop where
  earliest_le : earliest.secs ≤ t.secs
  le_latest : t.secs ≤ latest.secs
  nanos_lt : t.nanos < Span.nanosPerSec

namespace Ordinary

variable {t u : Instant}

theorem valid (h : t.Ordinary) : t.Valid :=
  ⟨h.earliest_le, h.le_latest, Nat.lt_of_lt_of_le h.nanos_lt (by decide)⟩

theorem latest : Instant.latest.Ordinary := ⟨by decide, by decide, by decide⟩

theorem lt_iff (ht : t.Ordinary) (hu : u.Ordinary) : t < u ↔ t.toNanos < u.toNanos :=
  lt_iff_toNanos ht.nanos_lt hu.nanos_lt

theorem eq_of_toNanos (ht : t.Ordinary) (hu : u.Ordinary) (same : t.toNanos = u.toNanos) :
    t = u := by
  rcases lt_or_eq_or_gt t u with before | same' | after
  · rw [ht.lt_iff hu] at before
    omega
  · exact same'
  · rw [hu.lt_iff ht] at after
    omega

theorem toNanos_le_latest (h : t.Ordinary) : t.toNanos ≤ Instant.latest.toNanos := by
  have second := h.le_latest
  have below := h.nanos_lt
  simp only [toNanos, Instant.latest, Span.nanosPerSec] at *
  omega

theorem add (h : t.Ordinary) (d : Span) : (t.add d).Ordinary :=
  ⟨h.valid.add.earliest_le, h.valid.add.le_latest, add_nanos_lt h.nanos_lt⟩

end Ordinary

end Instant

section Expiry

variable {ttl : Span} {now : Instant}

/-- The expiry of an entry in numbers: the plain sum, but no later than the last instant. -/
theorem toNanos_expiryFrom (ordinary : now.Ordinary) :
    ((ExpiryPolicy.ofTtl ttl).expiryFrom now).toNanos =
      min (now.toNanos + ttl.toNanos) Instant.latest.toNanos := by
  rw [expiryFrom_ofTtl ttl ordinary.earliest_le,
    Instant.toNanos_capped_add ordinary.nanos_lt]

theorem ordinary_expiryFrom (ordinary : now.Ordinary) :
    ((ExpiryPolicy.ofTtl ttl).expiryFrom now).Ordinary :=
  ordinary.add ttl.clampTtl

/-- An expiry has passed at the readings that are past the plain sum, and at no others. -/
theorem isExpiredAt_expiryFrom (first : Instant.earliest.secs ≤ now.secs) {reading : Instant}
    (kept : ¬ Instant.latest < reading) :
    isExpiredAt ((ExpiryPolicy.ofTtl ttl).expiryFrom now) reading = true ↔
      now.addUnbounded ttl < reading := by
  rw [expiryFrom_ofTtl ttl first, isExpiredAt, decide_eq_true_eq, Instant.capped]
  split
  · next past =>
    -- neither the last instant nor a sum in a later second comes before the reading
    simp only [Instant.lt_def] at *
    omega
  · exact Iff.rfl

end Expiry

/-- Expiries for every lifetime and every reading of the clock outside leap seconds. The expiry is
the earlier of the plain sum, with the lifetime as it was given, and the last instant; there always
is one. It is no earlier than the reading and moves on with the reading and with the lifetime. An
entry that was stamped with it has not expired at that reading, has expired at exactly the readings
that are past the plain sum, and never does if the expiry is the last instant, as long as it is
read by a clock that does not stand in a leap second. -/
theorem expiry_is_capped_sum (ttl : Span) {now : Instant} (ordinary : now.Ordinary) :
    let expiry := (ExpiryPolicy.ofTtl ttl).expiryFrom now
    (expiry.Ordinary ∧
        expiry.toNanos = min (now.toNanos + ttl.toNanos) Instant.latest.toNanos) ∧
      ¬ expiry < now ∧
      (∀ later : Instant, later.Ordinary → ¬ later < now →
        ¬ (ExpiryPolicy.ofTtl ttl).expiryFrom later < expiry) ∧
      (∀ longer : Span, ttl.toNanos ≤ longer.toNanos →
        ¬ (ExpiryPolicy.ofTtl longer).expiryFrom now < expiry) ∧
      ∀ {α : Type} (value : Value α), value.expires = none →
        let entry := Entry.stamp expiry value
        entry.isExpiredAt now = false ∧
          (∀ reading : Instant, reading.Ordinary →
            (entry.isExpiredAt reading = true ↔ now.toNanos + ttl.toNanos < reading.toNanos)) ∧
          (∀ reading : Instant, ¬ Instant.latest < reading →
            (entry.isExpiredAt reading = true ↔ now.addUnbounded ttl < reading)) ∧
          (Instant.latest.toNanos ≤ now.toNanos + ttl.toNanos → expiry = Instant.latest ∧
            ∀ (clock : Clock) (elapsed : Nat), clock.Ordinary →
              entry.isExpiredAt (clock.now elapsed) = false) := by
  intro expiry
  have within : expiry.Ordinary := ordinary_expiryFrom ordinary
  have number : expiry.toNanos = min (now.toNanos + ttl.toNanos) Instant.latest.toNanos :=
    toNanos_expiryFrom ordinary
  have last := ordinary.toNanos_le_latest
  have notBefore : ¬ expiry < now := by
    rw [within.lt_iff ordinary, number]
    omega
  refine ⟨⟨within, number⟩, notBefore, fun later ordinary' after => ?_,
    fun longer le => ?_, fun value own => ?_⟩
  · rw [ordinary'.lt_iff ordinary] at after
    rw [(ordinary_expiryFrom ordinary').lt_iff within,
      toNanos_expiryFrom ordinary', number]
    omega
  · rw [(ordinary_expiryFrom ordinary).lt_iff within,
      toNanos_expiryFrom ordinary, number]
    omega
  · intro entry
    have expires : entry.expires = expiry := by
      show value.expires.getD expiry = expiry
      rw [own]
      rfl
    have asked : ∀ reading, entry.isExpiredAt reading = isExpiredAt expiry reading := by
      intro reading
      rw [Entry.isExpiredAt, expires]
    refine ⟨?_, fun reading ordinary' => ?_, fun reading kept => ?_, fun long => ?_⟩
    · rw [asked]
      exact decide_eq_false notBefore
    · have before := ordinary'.toNanos_le_latest
      rw [asked, isExpiredAt, decide_eq_true_eq, within.lt_iff ordinary', number]
      omega
    · rw [asked]
      exact isExpiredAt_expiryFrom ordinary.earliest_le kept
    · have same : expiry = Instant.latest := by
        refine within.eq_of_toNanos .latest ?_
        rw [number]
        omega
      refine ⟨same, fun clock elapsed ordinary' => ?_⟩
      rw [asked, same]
      exact decide_eq_false (ordinary'.not_past elapsed)

/-- The longest lifetime that can be configured, given at the last nanosecond before 1970: the
entry never expires. A short one, given before 1970 as well, carries a second. -/
theorem expiry_is_capped_sum_extremes :
    let longest : Span := ⟨18446744073709551615, 999999999⟩
    let short : Span := ⟨1, 999999999⟩
    let forever := (ExpiryPolicy.ofTtl longest).expiryFrom ⟨-1, 999999999⟩
    let soon := (ExpiryPolicy.ofTtl short).expiryFrom ⟨-5, 2⟩
    forever = Instant.latest ∧ soon = ⟨-3, 1⟩ ∧
      (∀ c : ManualClock, (Entry.stamp forever (Value.ofItem 0)).isExpiredAt c.now = false) ∧
      (Entry.stamp soon (Value.ofItem 0)).isExpiredAt ⟨-3, 1⟩ = false ∧
      (Entry.stamp soon (Value.ofItem 0)).isExpiredAt ⟨-3, 2⟩ = true := by
  intro longest short forever soon
  have long : Instant.Ordinary ⟨-1, 999999999⟩ := ⟨by decide, by decide, by decide⟩
  have early : Instant.Ordinary ⟨-5, 2⟩ := ⟨by decide, by decide, by decide⟩
  obtain ⟨_, _, _, _, never⟩ := expiry_is_capped_sum longest long
  obtain ⟨_, _, _, _, passes⟩ := expiry_is_capped_sum short early
  obtain ⟨same, unread⟩ := (never (Value.ofItem 0) rfl).2.2.2 (by decide)
  obtain ⟨_, exactly, _⟩ := passes (Value.ofItem 0) rfl
  refine ⟨same, by decide, fun c => unread (.manual c) 0 trivial, ?_, ?_⟩
  · rw [← Bool.not_eq_true, exactly _ ⟨by decide, by decide, by decide⟩]
    decide
  · rw [exactly _ ⟨by decide, by decide, by decide⟩]
    decide

end WarmCache
