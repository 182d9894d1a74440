import WarmCache.Proofs.Lifetimes

/-!
# What a clock shows that is moved by hand

A clock that is moved by hand counts in a 64-bit word and cuts twice: a step that is too long, and
a count that would not fit. The end of the word lies beyond the last instant there is, so neither
cut shows. The clock reads as if it had counted without bounds and were capped once, when it is
read.

Results:
1. `Counts.moved`: the count is the plain one, or both are past the last instant.
2. `Counts.now_eq`: what a clock shows depends on the plain count only.
3. `hand_moves_add_up`: both for any moves from any start, and what follows from them.
-/

namespace WarmCache

/-- What is done by hand to a clock. -/
inductive ClockMove where
  | advance (d : Span)
  | set (t : Timestamp)
deriving DecidableEq, Repr

namespace ClockMove

/-- The action of a session that makes a move. -/
def action : ClockMove → PolicyAction
  | advance d => .advance d
  | set t => .setClock (.fixed t.toInstant)

/-- The instant that was set last, `start` if none was, and the advances since then. -/
def sinceSet (start : Instant) (moves : List ClockMove) : Instant × List Span :=
  moves.foldl (fun (base, since) move =>
    match move with
    | advance d => (base, since ++ [d])
    | set t => (t.toInstant, [])) (start, [])

/-- A count of milliseconds without bounds after a move. An instant that is set is rounded down. -/
def count (n : Int) : ClockMove → Int
  | advance d => n + d.wholeMillis
  | set t => t.toNanos / Span.nanosPerMilli

end ClockMove

namespace Span

/-- The whole milliseconds of spans, one by one. -/
def wholeMillisOf (ds : List Span) : Nat := ds.foldr (fun d n => d.wholeMillis + n) 0

/-- The length of spans together. -/
def lengthOf (ds : List Span) : Nat := ds.foldr (fun d n => d.toNanos + n) 0

theorem wholeMillisOf_append (first more : List Span) :
    wholeMillisOf (first ++ more) = wholeMillisOf first + wholeMillisOf more := by
  induction first with
  | nil => exact (Nat.zero_add _).symm
  | cons d rest ih =>
    show d.wholeMillis + wholeMillisOf (rest ++ more) =
      d.wholeMillis + wholeMillisOf rest + wholeMillisOf more
    rw [ih, Nat.add_assoc]

theorem wholeMillisOf_perm {first second : List Span} (perm : first.Perm second) :
    wholeMillisOf first = wholeMillisOf second := by
  refine perm.foldr_eq' (fun d _ e _ n => ?_) 0
  omega

/-- Spans of whole milliseconds have lost nothing. -/
theorem lengthOf_whole {ds : List Span} (whole : ∀ d ∈ ds, nanosPerMilli ∣ d.nanos) :
    lengthOf ds = nanosPerMilli * wholeMillisOf ds := by
  induction ds with
  | nil => rfl
  | cons d rest ih =>
    have one : d.toNanos = nanosPerMilli * d.wholeMillis := by
      obtain ⟨millis, eq⟩ := whole d List.mem_cons_self
      simp only [toNanos, wholeMillis, eq, nanosPerMilli, nanosPerSec]
      omega
    have more := ih fun e he => whole e (List.mem_cons_of_mem d he)
    show d.toNanos + lengthOf rest = nanosPerMilli * (d.wholeMillis + wholeMillisOf rest)
    rw [one, more, Nat.mul_add]

end Span

namespace Instant

/-! ## Milliseconds -/

theorem toMillis_eq (t : Instant) : t.toMillis = t.toNanos / Span.nanosPerMilli := by
  simp only [toMillis, toNanos, Span.nanosPerSec, Span.nanosPerMilli]
  omega

theorem toNanos_ofMillis (n : Int) : (ofMillis n).toNanos = Span.nanosPerMilli * n := by
  simp only [toNanos, ofMillis, Span.nanosPerSec, Span.nanosPerMilli]
  omega

theorem latest_lt_ofMillis {n : Int} : latest < ofMillis n ↔ latest.toMillis < n := by
  simp only [lt_def, latest, ofMillis, toMillis, Span.nanosPerMilli]
  omega

theorem inRange_ofMillis {n : Int} (first : earliest.toMillis ≤ n) :
    (ofMillis n).inRange = true ↔ n ≤ latest.toMillis := by
  rw [inRange, Bool.and_eq_true, decide_eq_true_eq, decide_eq_true_eq]
  simp only [earliest, latest, ofMillis, toMillis, Span.nanosPerMilli] at *
  omega

/-- The earlier of a millisecond and the last instant, as numbers. -/
theorem toNanos_earlier_latest (n : Int) :
    (earlier (ofMillis n) latest).toNanos = min (Span.nanosPerMilli * n) latest.toNanos := by
  unfold earlier
  split
  · next past =>
    rw [latest_lt_ofMillis, toMillis_eq] at past
    simp only [Span.nanosPerMilli] at *
    omega
  · next kept =>
    rw [latest_lt_ofMillis, toMillis_eq] at kept
    rw [toNanos_ofMillis]
    simp only [Span.nanosPerMilli] at *
    omega

end Instant

namespace ManualClock

/-! ## Counts -/

/-- The clock after a move. -/
def move (c : ManualClock) : ClockMove → ManualClock
  | .advance d => c.advance d
  | .set t => .showing t.toInstant

/-- The clock after moves in order. -/
def moved (c : ManualClock) (moves : List ClockMove) : ManualClock := moves.foldl move c

/-- A clock counts `exact` milliseconds, or it and `exact` are both past the last instant. It stays
within its word and no earlier than the first instant. -/
structure Counts (c : ManualClock) (exact : Int) : Prop where
  exact_or_past : c.millis = exact ∨
    Instant.latest.toMillis < c.millis ∧ Instant.latest.toMillis < exact
  earliest_le : Instant.earliest.toMillis ≤ c.millis
  le_wordMax : c.millis ≤ wordMax

namespace Counts

variable {c : ManualClock} {exact : Int}

theorem showing (t : Timestamp) : (ManualClock.showing t.toInstant).Counts t.toMillis := by
  obtain ⟨first, last, nanos⟩ := t.valid
  refine ⟨.inl rfl, ?_, ?_⟩
  · simp only [ManualClock.showing, Instant.toMillis, Instant.earliest, Span.nanosPerMilli] at *
    omega
  · simp only [ManualClock.showing, Instant.toMillis, Instant.latest, wordMax, Span.nanosPerMilli,
      Span.nanosPerSec] at *
    omega

/-- From no earlier than the first instant, a count that is cut is past the last one. -/
theorem advance (h : c.Counts exact) (d : Span) :
    (c.advance d).Counts (exact + d.wholeMillis) := by
  obtain ⟨count, first, within⟩ := h
  refine ⟨?_, ?_, ?_⟩
  all_goals
    simp only [ManualClock.advance, Instant.toMillis, Instant.earliest, Instant.latest, wordMax,
      Span.nanosPerMilli] at *
    omega

theorem move (h : c.Counts exact) (m : ClockMove) :
    (c.move m).Counts (m.count exact) := by
  cases m with
  | advance d => exact h.advance d
  | set t =>
    have shown := Counts.showing t
    rw [Instant.toMillis_eq] at shown
    exact shown

theorem moved (h : c.Counts exact) (moves : List ClockMove) :
    (c.moved moves).Counts (moves.foldl ClockMove.count exact) := by
  induction moves generalizing c exact with
  | nil => exact h
  | cons m rest ih => exact ih (h.move m)

/-- The reading leaves the range of instants at its upper end only. -/
theorem inRange_iff (h : c.Counts exact) :
    (Instant.ofMillis c.millis).inRange = true ↔ ¬ Instant.latest < Instant.ofMillis exact := by
  have first := h.earliest_le
  have count := h.exact_or_past
  rw [Instant.inRange_ofMillis first, Instant.latest_lt_ofMillis]
  omega

theorem now_eq (h : c.Counts exact) :
    c.now = Instant.earlier (Instant.ofMillis exact) Instant.latest := by
  unfold ManualClock.now Instant.earlier
  simp only [h.inRange_iff]
  rcases h.exact_or_past with same | ⟨_, past⟩
  · rw [same]
    split <;> simp_all
  · rw [← Instant.latest_lt_ofMillis] at past
    rw [if_pos past, if_neg (not_not.2 past)]

theorem toNanos_now (h : c.Counts exact) :
    c.now.toNanos = min (Span.nanosPerMilli * exact) Instant.latest.toNanos := by
  rw [h.now_eq, Instant.toNanos_earlier_latest]

/-- A clock whose count is further on shows no earlier instant. -/
theorem not_now_lt (h : c.Counts exact) {d : ManualClock} {further : Int} (hd : d.Counts further)
    (le : exact ≤ further) : ¬ d.now < c.now := by
  rw [Instant.lt_iff_toNanos d.now_nanos_lt c.now_nanos_lt, hd.toNanos_now, h.toNanos_now]
  simp only [Span.nanosPerMilli]
  omega

end Counts

theorem moved_append (c : ManualClock) (first more : List ClockMove) :
    c.moved (first ++ more) = (c.moved first).moved more :=
  List.foldl_append

end ManualClock

namespace ClockMove

/-! ## Plain counts -/

/-- The milliseconds that a clock would show after moves if it counted without bounds: the instant
that was set last, rounded down, and the whole milliseconds of each advance since. -/
def exactMillis (start : Instant) (moves : List ClockMove) : Int :=
  let (base, since) := sinceSet start moves
  base.toNanos / Span.nanosPerMilli + Span.wholeMillisOf since

theorem foldl_count (start : Instant) (moves : List ClockMove) :
    moves.foldl count (start.toNanos / Span.nanosPerMilli) = exactMillis start moves := by
  induction moves using List.reverseRecOn with
  | nil => exact (Int.add_zero _).symm
  | append_singleton before last ih =>
    rw [List.foldl_append, ih]
    simp only [exactMillis, sinceSet, List.foldl_append]
    cases last with
    | advance d =>
      simp only [List.foldl_cons, List.foldl_nil, count, Span.wholeMillisOf_append]
      simp only [Span.wholeMillisOf, List.foldr_cons, List.foldr_nil]
      omega
    | set t => exact (Int.add_zero _).symm

theorem foldl_count_advances (n : Int) (ds : List Span) :
    (ds.map advance).foldl count n = n + Span.wholeMillisOf ds := by
  induction ds generalizing n with
  | nil => exact (Int.add_zero n).symm
  | cons d rest ih =>
    rw [List.map_cons, List.foldl_cons, ih]
    simp only [count, Span.wholeMillisOf, List.foldr_cons]
    omega

end ClockMove

namespace Session

/-- In a session that has such a clock its actions make the moves. -/
theorem clock_of_moves {s : Session} {c : ManualClock} (hand : s.clock = .manual c)
    (moves : List ClockMove) :
    (moves.foldl (fun s m => (s.performPolicy m.action).1) s).clock = .manual (c.moved moves) := by
  induction moves generalizing s c with
  | nil => exact hand
  | cons m rest ih =>
    refine ih (c := c.move m) ?_
    cases m <;> simp only [ClockMove.action, performPolicy, hand, ManualClock.move, instantOf]

end Session

/-- A clock that is moved by hand, from any start and through any moves, leap seconds and the ends
of time included. It shows the earlier of the last instant and the plain count of milliseconds. The
count it keeps fits its word and never falls below the first instant, so that it reads as the last
instant for a count past that one only. An advance does not move it back. Between two moves that
set it, advances may come in any order, and those of whole milliseconds in any portions, and it
reads the same from then on. In a session it reads so too. -/
theorem hand_moves_add_up (start : Timestamp) (moves : List ClockMove) :
    let clock := (ManualClock.showing start.toInstant).moved moves
    let exact := ClockMove.exactMillis start.toInstant moves
    (clock.now = Instant.earlier (Instant.ofMillis exact) Instant.latest ∧
        clock.now.toNanos = min (Span.nanosPerMilli * exact) Instant.latest.toNanos) ∧
      (wordMin ≤ clock.millis ∧ clock.millis ≤ wordMax ∧
        Instant.earliest.toMillis ≤ clock.millis ∧
        ((Instant.ofMillis clock.millis).inRange = false ↔
          Instant.latest < Instant.ofMillis exact)) ∧
      (∀ d, ¬ (clock.advance d).now < clock.now) ∧
      (∀ (first second : List Span) (later : List ClockMove),
        first.Perm second ∨ ((∀ d ∈ first ++ second, Span.nanosPerMilli ∣ d.nanos) ∧
          Span.lengthOf first = Span.lengthOf second) →
        (clock.moved (first.map .advance ++ later)).now =
          (clock.moved (second.map .advance ++ later)).now) ∧
      ∀ s : Session, s.clock = .manual (.showing start.toInstant) →
        (moves.foldl (fun s m => (s.performPolicy m.action).1) s).now = clock.now := by
  intro clock exact
  have counts : clock.Counts exact := by
    have shown := ManualClock.Counts.showing start
    rw [Instant.toMillis_eq] at shown
    have all := shown.moved moves
    rw [ClockMove.foldl_count] at all
    exact all
  refine ⟨⟨counts.now_eq, counts.toNanos_now⟩, ⟨?_, counts.le_wordMax, counts.earliest_le, ?_⟩,
    fun d => ?_, fun first second later same => ?_, fun s hand => ?_⟩
  · exact Int.le_trans (by decide) counts.earliest_le
  · rw [← Bool.not_eq_true, counts.inRange_iff, not_not]
  · exact counts.not_now_lt (counts.advance d) (by omega)
  · have advances : ∀ ds : List Span, (clock.moved (ds.map .advance ++ later)).Counts
        (later.foldl ClockMove.count (exact + Span.wholeMillisOf ds)) := by
      intro ds
      rw [← ClockMove.foldl_count_advances, ← List.foldl_append]
      exact counts.moved _
    have total : Span.wholeMillisOf first = Span.wholeMillisOf second := by
      rcases same with perm | ⟨whole, length⟩
      · exact Span.wholeMillisOf_perm perm
      · rw [List.forall_mem_append] at whole
        rw [Span.lengthOf_whole whole.1, Span.lengthOf_whole whole.2] at length
        exact Nat.eq_of_mul_eq_mul_left (by decide) length
    rw [(advances first).now_eq, (advances second).now_eq, total]
  · show Clock.now _ _ = _
    rw [Session.clock_of_moves hand]
    rfl

/-- A clock that starts in the leap second after the last instant and is moved on past the end of
its word; then it is set into a leap second of 1969 and advanced by one and a half milliseconds and
by half of one, of which one counts. -/
theorem hand_moves_add_up_leap :
    let start : Timestamp := ⟨⟨8210266876799, 1999999999⟩, by decide⟩
    let clock := ManualClock.showing start.toInstant
    let past : List ClockMove := [.advance ⟨18446744073709551615, 999999999⟩]
    let back : List ClockMove := [.set ⟨⟨-1, 1999999999⟩, by decide⟩]
    let parts : List Span := [⟨0, 1500000⟩, ⟨0, 500000⟩]
    (clock.moved past).now = Instant.latest ∧
      (clock.moved (past ++ back)).now = ⟨0, 999000000⟩ ∧
      ((clock.moved (past ++ back)).moved (parts.map .advance)).now = ⟨1, 0⟩ ∧
      ((clock.moved (past ++ back)).moved (parts.reverse.map .advance)).now = ⟨1, 0⟩ := by
  intro start clock past back parts
  obtain ⟨⟨first, _⟩, _⟩ := hand_moves_add_up start past
  obtain ⟨⟨second, _⟩, _, _, reorder, _⟩ := hand_moves_add_up start (past ++ back)
  obtain ⟨⟨third, _⟩, _⟩ := hand_moves_add_up start (past ++ back ++ parts.map .advance)
  have turned := reorder parts.reverse parts [] (.inl parts.reverse_perm)
  rw [List.append_nil, List.append_nil] at turned
  rw [ManualClock.moved_append] at third
  refine ⟨first.trans (by decide), second.trans (by decide), third.trans (by decide), ?_⟩
  exact turned.trans (third.trans (by decide))

end WarmCache
