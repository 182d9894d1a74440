import WarmCache.Entry
import WarmCache.Error
import WarmCache.Keyed
import WarmCache.Stats

/-!
# The cache

A cache keeps entries under keys up to a limit. It counts the slots that are taken on its own,
apart from the entries, and admits a new key only if a slot is free. Lookups pay no regard to
expiry; `Cache.flush` removes what has expired.

A refresh first takes a snapshot of the callbacks, `Cache.refreshable`, and then settles each
outcome by itself, `Cache.settle`, so that anything may happen to the cache in between.

* `Cache.mem_refreshable` : the snapshot names exactly the entries that have a callback.
* `Cache.settle_failed` : a failed callback changes no entry.
-/

namespace WarmCache

/-- Entries under keys, the slots they take, and what happened so far. -/
structure Cache (α : Type) where
  entries : Keyed (Entry α)
  slots : Int
  limit : Option Nat
  policy : ExpiryPolicy
  counters : Counters
  workerRunning : Bool

/-- What became of one fetched outcome. -/
inductive Settled where
  /-- The item took the place of the entry's old one. -/
  | replaced
  /-- The callback failed and the entry stays as it was. -/
  | failed
  /-- The key was gone, and the item with it. -/
  | discarded
deriving DecidableEq, Repr

/-- How many outcomes of one refresh were settled in each way. -/
structure Summary where
  refreshed : Nat
  failed : Nat
  discarded : Nat
deriving DecidableEq, Repr, Inhabited

namespace Summary

/-- The summary of a refresh that has settled nothing yet. -/
def empty : Summary := ⟨0, 0, 0⟩

/-- A summary with one more outcome. -/
def count (s : Summary) : Settled → Summary
  | .replaced => { s with refreshed := s.refreshed + 1 }
  | .failed => { s with failed := s.failed + 1 }
  | .discarded => { s with discarded := s.discarded + 1 }

/-- The number of outcomes settled. -/
def total (s : Summary) : Nat := s.refreshed + s.failed + s.discarded

theorem total_count (s : Summary) (o : Settled) : (s.count o).total = s.total + 1 := by
  cases o <;> simp only [count, total] <;> omega

end Summary

namespace Cache

variable {α : Type}

/-- A cache without entries. -/
def new (policy : ExpiryPolicy) (limit : Option Nat) : Cache α :=
  ⟨[], 0, limit, policy, .zero, false⟩

/-- The number of entries. -/
def size (c : Cache α) : Nat := c.entries.length

/-- Whether there are no entries. -/
def isEmpty (c : Cache α) : Bool := c.entries.isEmpty

/-- The expiry of an entry that is written at `now`. -/
def expiryFrom (c : Cache α) (now : Instant) : Instant := c.policy.expiryFrom now

/-- Looks up an entry, expired or not, and counts the lookup. -/
def get (c : Cache α) (key : String) : Cache α × Option (Entry α) :=
  match c.entries.find? key with
  | some e => ({ c with counters := c.counters.recordHit }, some e)
  | none => ({ c with counters := c.counters.recordMiss }, none)

/-- Looks up an item. -/
def getItem (c : Cache α) (key : String) : Cache α × Option α :=
  let (c, found) := c.get key
  (c, found.map Entry.item)

/-- Takes a slot, if there is a free one. -/
def reserveSlot (c : Cache α) : Option (Cache α) :=
  match c.limit with
  | some limit =>
    if (limit : Int) ≤ c.slots then none else some { c with slots := c.slots + 1 }
  | none => some { c with slots := c.slots + 1 }

/-- Writes a value at `now`. A key that is present is always overwritten; a new one needs a
free slot and is refused without it. -/
def set (c : Cache α) (now : Instant) (key : String) (value : Value α) :
    Cache α × Except CacheError Unit :=
  let entry := Entry.stamp (c.expiryFrom now) value
  if c.entries.contains key then ({ c with entries := c.entries.put key entry }, .ok ())
  else
    match c.reserveSlot with
    | some c => ({ c with entries := c.entries.put key entry }, .ok ())
    | none =>
      ({ c with counters := c.counters.recordRejected },
        .error (.capacityExceeded (c.limit.getD 0)))

/-- Removes an entry and gives its slot back; an absent key is ignored. -/
def delete (c : Cache α) (key : String) : Cache α :=
  if c.entries.contains key then
    { c with entries := c.entries.remove key, slots := c.slots - 1 }
  else c

/-- Removes every entry that has expired by `now` and tells how many there were. -/
def flush (c : Cache α) (now : Instant) : Cache α × Nat :=
  let kept := c.entries.filter fun pair => !pair.2.isExpiredAt now
  let removed := (c.entries.filter fun pair => pair.2.isExpiredAt now).length
  ({ c with
      entries := kept
      slots := c.slots - removed
      counters := c.counters.recordFlushed removed }, removed)

/-- The keys that can be refreshed, each with its callback. -/
def refreshable (c : Cache α) : List (String × Callback) :=
  c.entries.filterMap fun pair => pair.2.refresh.map fun callback => (pair.1, callback)

/-- Settles what a callback of an earlier snapshot came to, at `now`. An item replaces the
entry under the key whatever that entry is, but is discarded if the key is gone. -/
def settle (c : Cache α) (now : Instant) (key : String) (callback : Callback) :
    Except String α → Cache α × Settled
  | .error _ => ({ c with counters := c.counters.recordRefreshFailure }, .failed)
  | .ok item =>
    if c.entries.contains key then
      ({ c with
          entries := c.entries.put key ⟨item, c.expiryFrom now, some callback⟩
          counters := c.counters.recordRefresh }, .replaced)
    else (c, .discarded)

/-- The counters together with the number of entries. -/
def stats (c : Cache α) : Stats := ⟨c.counters, c.size⟩

/-- The inspection text of a cache, which shows how many entries there are but none of them. -/
def outline (c : Cache α) : Outline :=
  .record "ConfigCache"
    [("entries", .ofNat c.size), ("limit", .ofOption (c.limit.map .ofNat)),
      ("policy", c.policy.outline), ("worker_running", .ofBool c.workerRunning)] true

theorem mem_refreshable {c : Cache α} {key : String} {callback : Callback} :
    (key, callback) ∈ c.refreshable ↔
      ∃ e, (key, e) ∈ c.entries ∧ e.refresh = some callback := by
  simp only [refreshable, List.mem_filterMap, Option.map_eq_some_iff, Prod.mk.injEq, Prod.exists]
  constructor
  · rintro ⟨k, e, hmem, cb, hcb, rfl, rfl⟩
    exact ⟨e, hmem, hcb⟩
  · rintro ⟨e, hmem, hcb⟩
    exact ⟨key, e, hmem, callback, hcb, rfl, rfl⟩

theorem settle_failed (c : Cache α) (now : Instant) (key : String) (callback : Callback)
    (message : String) :
    ((c.settle now key callback (.error message)).1).entries = c.entries := rfl

end Cache

end WarmCache
