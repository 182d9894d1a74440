import WarmCache.Text.Outline
import WarmCache.Time.Clock

/-!
# Expiry

Entries without an expiry of their own expire a fixed lifetime after they are written. An entry
has expired only once its expiry lies strictly in the past.

* `ExpiryPolicy.expiryFrom` : the expiry of an entry that is written at an instant.
* `isExpiredAt` : whether an expiry lies in the past.
-/

namespace WarmCache

/-- Whether an entry with this expiry has expired by `now`: only if `now` is strictly later. -/
def isExpiredAt (expires now : Instant) : Bool := decide (expires < now)

/-- The lifetime given to entries that bring no expiry of their own. -/
structure ExpiryPolicy where
  ttl : Span
deriving DecidableEq, Repr

namespace ExpiryPolicy

/-- The policy of a lifetime; one that is too long to be added to an instant is cut. -/
def ofTtl (d : Span) : ExpiryPolicy := ⟨d.clampTtl⟩

/-- The expiry of an entry that is written at `now`. -/
def expiryFrom (p : ExpiryPolicy) (now : Instant) : Instant := now.add p.ttl

/-- The inspection text of a policy, which hides the clock. -/
def outline (p : ExpiryPolicy) : Outline :=
  .record "ExpiryPolicy"
    [("ttl",
      .record "TimeDelta" [("secs", .ofNat p.ttl.secs), ("nanos", .ofNat p.ttl.nanos)] true)]
    false

end ExpiryPolicy

end WarmCache
