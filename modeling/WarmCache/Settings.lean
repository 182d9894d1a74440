import WarmCache.Text.Blank
import WarmCache.Text.Decimal
import WarmCache.Text.Outline
import WarmCache.Time.Clock

/-!
# Settings

The lifetime of entries, the two intervals of the background tasks and the capacity limit, as
they are read from environment variables. A variable that is unset, is not valid UTF-8 or does
not hold a number in range leaves its setting at the default.

* `Settings.load` : the settings of an environment.
* `Settings.capacityLimit_eq_none_iff` : exactly the negative limits mean no limit.
-/

namespace WarmCache

/-- The bytes of each environment variable that is set. -/
abbrev Environment := String → Option ByteArray

/-- How long entries live, how often background tasks run and how many entries fit. -/
structure Settings where
  ttlSecs : Nat
  refreshSecs : Nat
  flushSecs : Nat
  limit : Int
deriving DecidableEq, Repr

namespace Settings

/-- Entries live five minutes, are refreshed every three and flushed every minute, and there
is no limit on their number. -/
def default : Settings := ⟨300, 180, 60, -1⟩

instance : Inhabited Settings := ⟨default⟩

/-- The greatest number that an unsigned 64-bit word holds. -/
def maxUnsigned : Nat := 18446744073709551615

/-- The text of a variable, if it is set to valid UTF-8. -/
def variableText (env : Environment) (name : String) : Option String :=
  (env name).bind String.fromUTF8?

/-- A variable's text without the blanks around it. -/
def variableChars (env : Environment) (name : String) : Option (List Char) :=
  (variableText env name).map fun text => trim text.toList

/-- The number of seconds in a variable, or else `otherwise`. -/
def readSecs (env : Environment) (name : String) (otherwise : Nat) : Nat :=
  ((variableChars env name).bind (readNatural maxUnsigned)).getD otherwise

/-- The limit in a variable, or else `otherwise`. -/
def readLimit (env : Environment) (name : String) (otherwise : Int) : Int :=
  ((variableChars env name).bind (readInteger wordMin wordMax)).getD otherwise

/-- The settings that the environment asks for. -/
def load (env : Environment) : Settings where
  ttlSecs := readSecs env "CACHE_TTL_SECS" default.ttlSecs
  refreshSecs := readSecs env "CACHE_REFRESH_INTERVAL_SECS" default.refreshSecs
  flushSecs := readSecs env "CACHE_FLUSH_INTERVAL_SECS" default.flushSecs
  limit := readLimit env "CACHE_LIMIT" default.limit

/-- The lifetime of entries. -/
def ttl (s : Settings) : Span := .ofSecs s.ttlSecs

/-- The time between two refresh cycles. -/
def refreshInterval (s : Settings) : Span := .ofSecs s.refreshSecs

/-- The time between two flushes. -/
def flushInterval (s : Settings) : Span := .ofSecs s.flushSecs

/-- The greatest number of entries; a negative limit means that there is none. -/
def capacityLimit (s : Settings) : Option Nat := if s.limit < 0 then none else some s.limit.toNat

/-- The inspection text of the settings. -/
def outline (s : Settings) : Outline :=
  .record "CacheConfig"
    [("ttl_secs", .ofNat s.ttlSecs), ("refresh_interval_secs", .ofNat s.refreshSecs),
      ("flush_interval_secs", .ofNat s.flushSecs), ("limit", .ofInt s.limit)] true

theorem capacityLimit_eq_none_iff (s : Settings) : s.capacityLimit = none ↔ s.limit < 0 := by
  unfold capacityLimit
  split <;> simp_all

end Settings

end WarmCache
