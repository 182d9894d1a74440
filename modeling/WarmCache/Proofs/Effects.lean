import WarmCache.Proofs.Slots

/-!
# What operations come to

Every operation on the entries of a cache comes to something that its caller can tell: a lookup
finds its key or does not, a set inserts, overwrites or is refused, and so on. These effects, in
order, are the history of a cache, and its statistics are sums over it.

Results:
1. `counters_applyAll`: each counter is the number of its effects, as a 64-bit word.
2. `size_applyAll`: the number of entries is what was inserted, less what was deleted and flushed.
-/

namespace WarmCache

/-- What an operation on the entries comes to. -/
inductive Effect where
  /-- A lookup found its key. -/
  | hit
  /-- A lookup did not find its key. -/
  | miss
  /-- A set stored an entry under a new key. -/
  | inserted
  /-- A set overwrote the entry under its key. -/
  | overwritten
  /-- A set was refused. -/
  | rejected
  /-- A delete took an entry out. -/
  | deleted
  /-- A delete did not find its key. -/
  | absent
  /-- A flush told that it took out so many entries. -/
  | flushed (count : Nat)
  /-- The outcome of a refresh callback was settled so. -/
  | settled (settled : Settled)
deriving DecidableEq, Repr

namespace Effect

/-- How many entries a flush takes out. -/
def flushes : Effect → Nat
  | flushed count => count
  | _ => 0

/-- How many entries flushes took out. -/
def flushedIn (effects : List Effect) : Nat := effects.foldr (fun e n => e.flushes + n) 0

theorem flushedIn_append (first more : List Effect) :
    flushedIn (first ++ more) = flushedIn first + flushedIn more := by
  induction first with
  | nil => exact (Nat.zero_add _).symm
  | cons e rest ih =>
    show e.flushes + flushedIn (rest ++ more) = e.flushes + flushedIn rest + flushedIn more
    rw [ih, Nat.add_assoc]

end Effect

/-- The counters after an operation that came to this. -/
def Counters.record (c : Counters) : Effect → Counters
  | .hit => c.recordHit
  | .miss => c.recordMiss
  | .rejected => c.recordRejected
  | .flushed count => c.recordFlushed count
  | .settled .replaced => c.recordRefresh
  | .settled .failed => c.recordRefreshFailure
  | _ => c

namespace Cache

variable {α : Type}

/-- What an operation on this cache comes to. -/
def effect (c : Cache α) : CacheOp α → Effect
  | .set now key value =>
    match (c.set now key value).2 with
    | .ok () => if c.entries.contains key then .overwritten else .inserted
    | .error _ => .rejected
  | .get key => if (c.get key).2.isSome then .hit else .miss
  | .delete key => if c.entries.contains key then .deleted else .absent
  | .flush now => .flushed (c.flush now).2
  | .settle now key callback result => .settled (c.settle now key callback result).2

/-- What operations in order come to. -/
def effects (c : Cache α) : List (CacheOp α) → List Effect
  | [] => []
  | op :: rest => c.effect op :: (c.apply op).effects rest

/-! ## One operation -/

/-- What an operation that came to this effect made of the cache. -/
inductive Did (c : Cache α) : Cache α → Effect → Prop
  | hit : Did c { c with counters := c.counters.recordHit } .hit
  | miss : Did c { c with counters := c.counters.recordMiss } .miss
  | inserted {key : String} (e : Entry α) : c.entries.contains key = false →
      Did c { c with entries := c.entries.put key e, slots := c.slots + 1 } .inserted
  | overwritten {key : String} (e : Entry α) : c.entries.contains key = true →
      Did c { c with entries := c.entries.put key e } .overwritten
  | rejected : Did c { c with counters := c.counters.recordRejected } .rejected
  | deleted {key : String} : c.entries.contains key = true →
      Did c { c with entries := c.entries.remove key, slots := c.slots - 1 } .deleted
  | absent : Did c c .absent
  | flushed (now : Instant) : Did c (c.flush now).1 (.flushed (c.flush now).2)
  | replaced {key : String} (e : Entry α) : c.entries.contains key = true →
      Did c { c with entries := c.entries.put key e, counters := c.counters.recordRefresh }
        (.settled .replaced)
  | failed : Did c { c with counters := c.counters.recordRefreshFailure } (.settled .failed)
  | discarded : Did c c (.settled .discarded)

theorem did (c : Cache α) (op : CacheOp α) : Did c (c.apply op) (c.effect op) := by
  cases op with
  | set now key value =>
    simp only [apply, effect]
    rcases c.set_cases key with present | ⟨absent, room⟩ | ⟨absent, limit, hl, full⟩
    · rw [set_of_contains present, if_pos present]
      exact .overwritten _ present
    · rw [set_of_hasRoom absent room, absent]
      exact .inserted _ absent
    · rw [set_of_full absent hl full]
      exact .rejected
  | get key =>
    simp only [apply, effect]
    rcases c.get_cases key with ⟨_, _, eq⟩ | ⟨_, eq⟩
    · rw [eq]
      exact .hit
    · rw [eq]
      exact .miss
  | delete key =>
    simp only [apply, effect]
    cases present : c.entries.contains key with
    | true =>
      rw [delete_of_contains present]
      exact .deleted present
    | false =>
      rw [delete_of_not_contains present]
      exact .absent
  | flush now => exact .flushed now
  | settle now key callback result =>
    simp only [apply, effect]
    cases result with
    | error message => exact .failed
    | ok item =>
      cases present : c.entries.contains key with
      | true =>
        rw [settle_ok_of_contains present]
        exact .replaced _ present
      | false =>
        rw [settle_ok_of_not_contains present]
        exact .discarded

theorem counters_apply (c : Cache α) (op : CacheOp α) :
    (c.apply op).counters = c.counters.record (c.effect op) := by
  have did := c.did op
  generalize c.apply op = after at did ⊢
  generalize c.effect op = effect at did ⊢
  cases did <;> rfl

theorem size_flush (c : Cache α) (now : Instant) :
    (c.flush now).1.size + (c.flush now).2 = c.size := by
  have split := List.length_eq_length_filter_add (l := c.entries)
    fun pair => pair.2.isExpiredAt now
  rw [Nat.add_comm] at split
  exact split.symm

theorem size_apply (c : Cache α) (op : CacheOp α) :
    (c.apply op).size + [c.effect op].count .deleted + Effect.flushedIn [c.effect op] =
      c.size + [c.effect op].count .inserted := by
  have did := c.did op
  generalize c.apply op = after at did ⊢
  generalize c.effect op = effect at did ⊢
  cases did with
  | inserted _ absent => exact Keyed.length_put_of_not_contains _ _ _ absent
  | overwritten _ present => exact Keyed.length_put_of_contains _ _ _ present
  | deleted present => exact Keyed.length_remove_of_contains _ _ present
  | flushed now => exact c.size_flush now
  | replaced _ present => exact Keyed.length_put_of_contains _ _ _ present
  | hit => rfl
  | miss => rfl
  | rejected => rfl
  | absent => rfl
  | failed => rfl
  | discarded => rfl

/-! ## Operations in order -/

/-- The counters of a history, one 64-bit word for each kind of effect. -/
def countersOf (effects : List Effect) : Counters where
  hits := .ofNat (effects.count .hit)
  misses := .ofNat (effects.count .miss)
  refreshes := .ofNat (effects.count (.settled .replaced))
  refreshFailures := .ofNat (effects.count (.settled .failed))
  flushed := .ofNat (Effect.flushedIn effects)
  rejected := .ofNat (effects.count .rejected)

theorem countersOf_concat (effects : List Effect) (e : Effect) :
    countersOf (effects ++ [e]) = (countersOf effects).record e := by
  simp only [countersOf, List.count_append, Effect.flushedIn_append, UInt64.ofNat_add]
  cases e with
  | settled settled => cases settled <;> simp [Effect.flushedIn, Effect.flushes, Counters.record,
      Counters.recordRefresh, Counters.recordRefreshFailure]
  | _ => simp [Effect.flushedIn, Effect.flushes, Counters.record, Counters.recordHit,
      Counters.recordMiss, Counters.recordRejected, Counters.recordFlushed]

theorem counters_applyAll {c : Cache α} {before : List Effect}
    (counts : c.counters = countersOf before) (ops : List (CacheOp α)) :
    (c.applyAll ops).counters = countersOf (before ++ c.effects ops) := by
  induction ops generalizing c before with
  | nil => simpa [applyAll, effects] using counts
  | cons op rest ih =>
    have one : (c.apply op).counters = countersOf (before ++ [c.effect op]) := by
      rw [counters_apply, counts, countersOf_concat]
    have all := ih one
    rw [List.append_assoc] at all
    exact all

theorem size_applyAll (c : Cache α) (ops : List (CacheOp α)) :
    (c.applyAll ops).size + (c.effects ops).count .deleted + Effect.flushedIn (c.effects ops) =
      c.size + (c.effects ops).count .inserted := by
  induction ops generalizing c with
  | nil => rfl
  | cons op rest ih =>
    have one := c.size_apply op
    have all := ih (c.apply op)
    have split : c.effects (op :: rest) = [c.effect op] ++ (c.apply op).effects rest := rfl
    rw [split, List.count_append, List.count_append, Effect.flushedIn_append]
    change ((c.apply op).applyAll rest).size + _ + _ = _
    omega

end Cache

end WarmCache
