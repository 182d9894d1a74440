import WarmCache.Text.Outline

/-!
# Refusals

The four causes for which the cache or one of its background tasks refuses a request.
-/

namespace WarmCache

/-- Why a request was refused. -/
inductive CacheError where
  /-- A new key came to a cache that holds as many entries as it may. -/
  | capacityExceeded (limit : Nat)
  /-- The cache has a refresh worker already. -/
  | alreadyRunning
  /-- A background task was to run at an interval of zero. -/
  | invalidInterval
  /-- There is nothing that background tasks could run on. -/
  | noRuntime
deriving DecidableEq, Repr

namespace CacheError

/-- The text shown to a user. -/
def message : CacheError → String
  | capacityExceeded limit =>
    "cache is full, cannot add more than " ++ toString limit ++ " entries"
  | alreadyRunning => "refresh worker has already been started"
  | invalidInterval => "interval must be greater than zero"
  | noRuntime => "no tokio runtime available to run the worker"

/-- The name of the cause. -/
def kind : CacheError → String
  | capacityExceeded _ => "CapacityExceeded"
  | alreadyRunning => "AlreadyRunning"
  | invalidInterval => "InvalidInterval"
  | noRuntime => "NoRuntime"

/-- The inspection text of a refusal. -/
def outline : CacheError → Outline
  | capacityExceeded limit => .record "CapacityExceeded" [("limit", .ofNat limit)] true
  | e => .leaf e.kind

end CacheError

end WarmCache
