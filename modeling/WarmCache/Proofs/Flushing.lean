import WarmCache.Proofs.Ledger
import WarmCache.Proofs.NamedCalls

/-!
# One flush after another

A flush asks each entry one question, whether it had expired by then. An entry that is gone by
either of two readings of the clock is gone by the later of them, and no entry is counted twice,
because the first flush that finds it takes it out. So flushes add up: without writes between them
two of them come to one at the later reading, whichever of them came first.

Results:
1. `flush_flush`: two flushes are one, entries, slots and statistics alike.
2. `replies_fresh_flushed`: a full cache has room for as many new keys as a flush took out.
3. `lookAll_cache`: at one instant any number of flush tasks come to one flush.
4. `flushes_add_up`: what a flush does, and these three.
-/

namespace WarmCache

namespace Instant

/-- The later of two instants. -/
def later (a b : Instant) : Instant := if a < b then b else a

theorem lt_later {e a b : Instant} : e < later a b ↔ e < a ∨ e < b := by
  unfold later
  split
  · next before => exact ⟨.inr, fun h => h.elim (fun first => lt_trans first before) id⟩
  · next notBefore =>
    refine ⟨.inl, fun h => h.elim id fun second => ?_⟩
    simp only [lt_def] at *
    omega

end Instant

theorem isExpiredAt_later (expires a b : Instant) :
    isExpiredAt expires (.later a b) = (isExpiredAt expires a || isExpiredAt expires b) := by
  simp only [isExpiredAt, Instant.lt_later, Bool.decide_or]

theorem Counters.recordFlushed_add (c : Counters) (m n : Nat) :
    (c.recordFlushed m).recordFlushed n = c.recordFlushed (m + n) := by
  simp only [recordFlushed, UInt64.ofNat_add, UInt64.add_assoc]

namespace Cache

variable {α : Type}

/-! ## Two flushes -/

theorem entries_flush_flush (c : Cache α) (t u : Instant) :
    ((c.flush t).1.flush u).1.entries = (c.flush (.later t u)).1.entries := by
  simp only [flush, List.filter_filter, Entry.isExpiredAt, isExpiredAt_later, Bool.not_or,
    Bool.and_comm]

theorem removed_flush_flush (c : Cache α) (t u : Instant) :
    (c.flush t).2 + ((c.flush t).1.flush u).2 = (c.flush (.later t u)).2 := by
  have first := c.size_flush t
  have second := (c.flush t).1.size_flush u
  have single := c.size_flush (.later t u)
  have left : ((c.flush t).1.flush u).1.size = (c.flush (.later t u)).1.size :=
    congrArg List.length (c.entries_flush_flush t u)
  omega

theorem flush_flush (c : Cache α) (t u : Instant) :
    ((c.flush t).1.flush u).1 = (c.flush (.later t u)).1 := by
  have entries := c.entries_flush_flush t u
  have slots : c.slots - (c.flush t).2 - ((c.flush t).1.flush u).2 =
      c.slots - (c.flush (.later t u)).2 := by
    rw [← c.removed_flush_flush t u]
    omega
  have counters : (c.counters.recordFlushed (c.flush t).2).recordFlushed
      ((c.flush t).1.flush u).2 = c.counters.recordFlushed (c.flush (.later t u)).2 := by
    rw [Counters.recordFlushed_add, c.removed_flush_flush]
  show ({ c with
    entries := ((c.flush t).1.flush u).1.entries
    slots := c.slots - (c.flush t).2 - ((c.flush t).1.flush u).2
    counters := (c.counters.recordFlushed (c.flush t).2).recordFlushed
      ((c.flush t).1.flush u).2 } : Cache α) = (c.flush (.later t u)).1
  rw [entries, slots, counters]
  rfl

/-- What is left of a flush has not expired by the same reading. -/
theorem flush_again (c : Cache α) (t : Instant) :
    (c.flush t).1.flush t = ((c.flush t).1, 0) := by
  have same : Instant.later t t = t := by
    unfold Instant.later
    split <;> rfl
  have cache := c.flush_flush t t
  have removed := c.removed_flush_flush t t
  rw [same] at cache removed
  exact Prod.ext cache (by omega)

/-! ## Room after a flush -/

/-- Of distinct new keys as many fit into a cache as it lacks entries. -/
theorem replies_fresh {c : Cache α} (count : c.Accounted) {limit : Nat}
    (limited : c.limit = some limit) {sets : List (Instant × String × Value α)}
    (nodup : (sets.map fun x => x.2.1).Nodup)
    (fresh : ∀ x ∈ sets, c.entries.contains x.2.1 = false) :
    c.replies (EntryMap.setAll sets) =
      List.replicate (min sets.length (limit - c.size)) .done ++
        List.replicate (sets.length - (limit - c.size)) (.refused (.capacityExceeded limit)) := by
  have reads : (EntryMap.ofTable c.entries).Reads c.entries := ⟨count.nodup_keys, fun _ => rfl⟩
  have absent : ∀ x ∈ sets, x.2.1 ∉ (EntryMap.ofTable c.entries).keys := by
    intro x hx
    rw [← reads.contains_iff, fresh x hx]
    exact Bool.false_ne_true
  rw [replies_of_reads count reads, limited, EntryMap.replies_fresh _ _ _ nodup absent,
    ← reads.length_eq]
  rfl

theorem replies_fresh_flushed {c : Cache α} (count : c.Accounted) {limit : Nat}
    (limited : c.limit = some limit) (full : c.slots = limit) (t : Instant)
    {sets : List (Instant × String × Value α)} (nodup : (sets.map fun x => x.2.1).Nodup)
    (fresh : ∀ x ∈ sets, (c.flush t).1.entries.contains x.2.1 = false) :
    (c.flush t).1.replies (EntryMap.setAll sets) =
      List.replicate (min sets.length (c.flush t).2) .done ++
        List.replicate (sets.length - (c.flush t).2) (.refused (.capacityExceeded limit)) := by
  have room : limit - (c.flush t).1.size = (c.flush t).2 := by
    have split := c.size_flush t
    have entries : c.slots = c.size := count.slots_eq
    omega
  rw [replies_fresh (count.flush t) limited nodup fresh, room]

end Cache

namespace Session

/-! ## Flush tasks at one instant -/

/-- The session after looks at tasks, one after the other. -/
def lookAll (s : Session) (indices : List Nat) : Session :=
  indices.foldl (fun s index => s.doPiece (.look index)) s

/-- At how many of these looks a flush task takes a tick, and so flushes. -/
def flushesIn (s : Session) : List Nat → Nat
  | [] => 0
  | index :: rest => (s.lookOps index).length + (s.doPiece (.look index)).flushesIn rest

theorem lookOps_cases (s : Session) (index : Nat) :
    s.lookOps index = [] ∨ s.lookOps index = [.flush s.now] := by
  unfold lookOps
  split
  · split
    · exact .inr rfl
    · exact .inl rfl
  · exact .inl rfl

/-- A look takes no time, and no clock is read anew for it. -/
theorem now_look (s : Session) (index : Nat) : (s.doPiece (.look index)).now = s.now := by
  have looked := s.doPiece_look index
  generalize s.doPiece (.look index) = after at looked
  cases looked with
  | idle => rfl
  | passed => rfl

theorem lookAll_cache (s : Session) (indices : List Nat) :
    ∃ taken, (s.lookAll indices).cache =
      (if s.flushesIn indices = 0 then s.cache else (s.cache.flush s.now).1).claim taken := by
  induction indices generalizing s with
  | nil => exact ⟨s.cache.workerRunning, rfl⟩
  | cons index rest ih =>
    obtain ⟨taken, all⟩ := ih (s.doPiece (.look index))
    obtain ⟨before, cache⟩ := s.cache_look index
    rw [s.now_look, cache] at all
    have counted : s.flushesIn (index :: rest) =
      (s.lookOps index).length + (s.doPiece (.look index)).flushesIn rest := rfl
    refine ⟨taken, all.trans ?_⟩
    rw [counted]
    generalize (s.doPiece (.look index)).flushesIn rest = more
    rcases s.lookOps_cases index with idle | flush
    · rw [idle, List.length_nil, Nat.zero_add]
      split <;> rfl
    · have again : ((s.cache.flush s.now).1.flush s.now).1 = (s.cache.flush s.now).1 := by
        rw [s.cache.flush_again]
      have some' : [CacheOp.flush (α := Int) s.now].length + more ≠ 0 := by
        rw [List.length_singleton]
        omega
      rw [flush, if_neg some']
      split
      · rfl
      · show ((s.cache.flush s.now).1.flush s.now).1.claim taken = _
        rw [again]

end Session

/-- What a flush does to any cache whose count of slots is right. It takes out exactly the entries
whose expiry lies before its reading, tells how many they were and adds as many to the statistics,
gives back as many slots, and leaves all else as it was; so as many new keys fit into a cache that
was full. A second flush, with no write before it, leaves what one flush at the later of the two
readings would have left, and the two numbers add up to its number. The second of two flushes at
one reading finds nothing. When flush tasks take their ticks at one instant, however many and in
whatever order, the cache is left as by a single flush, the worker flag apart. -/
theorem flushes_add_up {α : Type} {c : Cache α} (count : c.Accounted) (t u : Instant) :
    (∀ key, (c.flush t).1.entries.find? key =
        (c.entries.find? key).filter fun e => !decide (e.expires < t)) ∧
      ((c.flush t).2 = (c.entries.countP fun pair => decide (pair.2.expires < t)) ∧
        (c.flush t).1 = { c with
          entries := (c.flush t).1.entries
          slots := c.slots - (c.flush t).2
          counters := { c.counters with
            flushed := c.counters.flushed + UInt64.ofNat (c.flush t).2 } } ∧
        (c.flush t).1.Accounted) ∧
      (∀ (limit : Nat) (sets : List (Instant × String × Value α)),
        c.limit = some limit → c.slots = limit → (sets.map fun x => x.2.1).Nodup →
        (∀ x ∈ sets, (c.flush t).1.entries.contains x.2.1 = false) →
        (c.flush t).1.replies (EntryMap.setAll sets) =
          List.replicate (min sets.length (c.flush t).2) .done ++
            List.replicate (sets.length - (c.flush t).2) (.refused (.capacityExceeded limit))) ∧
      (((c.flush t).1.flush u).1 = (c.flush (.later t u)).1 ∧
        (c.flush t).2 + ((c.flush t).1.flush u).2 = (c.flush (.later t u)).2) ∧
      (c.flush t).1.flush t = ((c.flush t).1, 0) ∧
      ∀ (s : Session) (indices : List Nat), ∃ taken, (s.lookAll indices).cache =
        (if s.flushesIn indices = 0 then s.cache else (s.cache.flush s.now).1).claim taken := by
  refine ⟨fun key => Keyed.find?_filter _ key count.nodup_keys,
    ⟨List.countP_eq_length_filter.symm, rfl, count.flush t⟩,
    fun limit sets limited full nodup fresh =>
      c.replies_fresh_flushed count limited full t nodup fresh,
    ⟨c.flush_flush t u, c.removed_flush_flush t u⟩, c.flush_again t,
    fun s indices => s.lookAll_cache indices⟩

/-- A full cache of two entries, one of which expires in the leap second before the reading and one
at the reading itself. The first goes, and there is room for one key. A clock that has been put
back makes no difference. -/
theorem flushes_add_up_leap :
    let empty : Cache Nat := .new (.ofTtl ⟨60, 0⟩) (some 2)
    let c := empty.applyAll
      [.set ⟨0, 0⟩ "a" ⟨1, some ⟨59, 1500000000⟩, none⟩, .set ⟨0, 0⟩ "b" ⟨2, some ⟨60, 0⟩, none⟩]
    let left := (c.flush ⟨60, 0⟩).1
    c.slots = 2 ∧ (c.flush ⟨60, 0⟩).2 = 1 ∧ left.slots = 1 ∧
      left.entries.find? "a" = none ∧ left.entries.find? "b" = some ⟨2, ⟨60, 0⟩, none⟩ ∧
      left.replies (EntryMap.setAll [(⟨0, 0⟩, "c", .ofItem 3), (⟨0, 0⟩, "d", .ofItem 4)]) =
        [.done, .refused (.capacityExceeded 2)] ∧
      (left.flush ⟨59, 1000000000⟩).1 = left ∧ (left.flush ⟨59, 1000000000⟩).2 = 0 := by
  intro empty c left
  have count : c.Accounted := (Cache.Accounted.new _ _).applyAll _
  have one : (c.flush ⟨60, 0⟩).2 = 1 := by decide
  obtain ⟨found, ⟨_, frame, _⟩, fits, ⟨cache, removed⟩, _⟩ :=
    flushes_add_up count ⟨60, 0⟩ ⟨59, 1000000000⟩
  have same : Instant.later ⟨60, 0⟩ ⟨59, 1000000000⟩ = ⟨60, 0⟩ := by decide
  rw [same] at cache removed
  refine ⟨rfl, one, ?_, found "a", found "b", ?_, cache, ?_⟩
  · show (c.flush ⟨60, 0⟩).1.slots = 1
    rw [frame, one]
    rfl
  · have replies := fits 2 [(⟨0, 0⟩, "c", .ofItem 3), (⟨0, 0⟩, "d", .ofItem 4)] rfl rfl
      (by decide) (by decide)
    rw [one] at replies
    exact replies
  · exact Nat.add_eq_left.1 removed

end WarmCache
