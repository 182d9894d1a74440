import WarmCache.Text.Outline
import WarmCache.Text.Quoted

/-!
# Statistics

Counters of what a cache did: lookups that found their key and those that did not, entries
replaced by a refresh, refresh callbacks that failed, entries flushed and new keys rejected.
Each is a 64-bit word. A snapshot adds the number of entries.

* `Stats.hitRate` : the share of lookups that were hits, 0 without lookups.
-/

namespace WarmCache

/-- The running counters of a cache. -/
structure Counters where
  hits : UInt64
  misses : UInt64
  refreshes : UInt64
  refreshFailures : UInt64
  flushed : UInt64
  rejected : UInt64
deriving DecidableEq, Repr

namespace Counters

/-- The counters of a new cache. -/
def zero : Counters := ⟨0, 0, 0, 0, 0, 0⟩

instance : Inhabited Counters := ⟨zero⟩

/-- One more lookup that found its key. -/
def recordHit (c : Counters) : Counters := { c with hits := c.hits + 1 }

/-- One more lookup that did not find its key. -/
def recordMiss (c : Counters) : Counters := { c with misses := c.misses + 1 }

/-- One more entry replaced by a refresh. -/
def recordRefresh (c : Counters) : Counters := { c with refreshes := c.refreshes + 1 }

/-- One more callback that failed during a refresh. -/
def recordRefreshFailure (c : Counters) : Counters :=
  { c with refreshFailures := c.refreshFailures + 1 }

/-- So many more entries flushed. -/
def recordFlushed (c : Counters) (count : Nat) : Counters :=
  { c with flushed := c.flushed + UInt64.ofNat count }

/-- One more new key rejected. -/
def recordRejected (c : Counters) : Counters := { c with rejected := c.rejected + 1 }

end Counters

/-- A snapshot of the counters together with the number of entries. -/
structure Stats extends Counters where
  totalEntries : Nat
deriving DecidableEq, Repr

namespace Stats

/-- The snapshot of a new cache. -/
def zero : Stats := ⟨.zero, 0⟩

/-- Hits as a share of all lookups, as a double; 0 if there were none. -/
def hitRate (s : Stats) : Float :=
  let total := s.hits + s.misses
  if total = 0 then 0.0 else s.hits.toFloat / total.toFloat

/-- The names and values of a snapshot in their fixed order. -/
def fields (s : Stats) : List (String × Nat) :=
  [("hits", s.hits.toNat), ("misses", s.misses.toNat), ("refreshes", s.refreshes.toNat),
    ("refresh_failures", s.refreshFailures.toNat), ("flushed", s.flushed.toNat),
    ("rejected", s.rejected.toNat), ("total_entries", s.totalEntries)]

/-- The snapshot as a JSON object without blanks. -/
def json (s : Stats) : String :=
  jsonObject (s.fields.map fun field => (field.1, toString field.2))

/-- The inspection text of a snapshot. -/
def outline (s : Stats) : Outline :=
  .record "CacheStats" (s.fields.map fun field => (field.1, .ofNat field.2)) true

end Stats

end WarmCache
