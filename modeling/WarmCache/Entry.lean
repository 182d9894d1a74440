import WarmCache.Callback
import WarmCache.Expiry
import WarmCache.Time.Calendar

/-!
# Entries

A value is what a caller hands to the cache; an entry is what the cache keeps of it. They differ
in the expiry, which a value may leave to the cache.

* `Entry.stamp` : the entry of a value.
-/

namespace WarmCache

/-- An item on its way into the cache. -/
structure Value (α : Type) where
  item : α
  expires : Option Instant
  refresh : Option Callback
deriving Repr

/-- A stored item, when it expires and how to fetch it anew. -/
structure Entry (α : Type) where
  item : α
  expires : Instant
  refresh : Option Callback
deriving Repr, DecidableEq

/-- The outline of a callback, whose inside is not shown. -/
def Callback.outline : Outline := .leaf "RefreshCallback(..)"

namespace Value

/-- A bare item. -/
def ofItem {α : Type} (item : α) : Value α := ⟨item, none, none⟩

/-- The inspection text of a value whose item is a number. -/
def outline (v : Value Int) : Outline :=
  .record "CacheValue"
    [("item", .ofInt v.item), ("expires", .ofOption (v.expires.map fun t => .leaf t.isoText)),
      ("refresh", .ofOption (v.refresh.map fun _ => Callback.outline))] true

end Value

namespace Entry

variable {α : Type}

/-- The entry for a value; `otherwise` is the expiry of one that brings none. -/
def stamp (otherwise : Instant) (v : Value α) : Entry α :=
  ⟨v.item, v.expires.getD otherwise, v.refresh⟩

/-- Whether an entry can fetch its item anew. -/
def isRefreshable (e : Entry α) : Bool := e.refresh.isSome

/-- Whether an entry has expired by `now`. -/
def isExpiredAt (e : Entry α) (now : Instant) : Bool := WarmCache.isExpiredAt e.expires now

/-- The inspection text of an entry whose item is a number. -/
def outline (e : Entry Int) : Outline :=
  .record "CacheEntry"
    [("item", .ofInt e.item), ("expires", .leaf e.expires.isoText),
      ("refresh", .ofOption (e.refresh.map fun _ => Callback.outline))] true

end Entry

end WarmCache
