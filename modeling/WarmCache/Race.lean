import WarmCache.Shards

/-!
# Threads that race for slots

Several threads write to one cache at the same time. Either each brings keys that no other has,
or all of them set and delete one key again and again. Which thread comes first is open, but the
totals are not; here each thread has a turn in every round.

* `Race.totals` : how many sets went well, and what is left.
-/

namespace WarmCache

namespace Race

/-- What the threads do. -/
inductive Mode where
  /-- Each thread sets keys that no other thread has. -/
  | distinctKeys
  /-- Every thread sets and deletes one key, again and again. -/
  | sharedKey
deriving DecidableEq, Repr

/-- What every set writes. -/
def entry : Entry Int := ⟨0, .latest, none⟩

/-- The calls of a thread that goes `each` times round. -/
def calls (mode : Mode) (each thread : Nat) : List (ShardCall Int) :=
  match mode with
  | .distinctKeys =>
    (List.range each).map fun round => .set (toString thread ++ "-" ++ toString round) entry
  | .sharedKey =>
    (List.replicate each [ShardCall.set "shared" entry, ShardCall.delete "shared"]).flatten

/-- The calls of all threads. -/
def programs (mode : Mode) (threads each : Nat) : List (List (ShardCall Int)) :=
  (List.range threads).map (calls mode each)

/-- The totals of a race. -/
structure Totals where
  stored : Nat
  rejected : Nat
  size : Nat
  statsRejected : Nat
deriving DecidableEq, Repr

/-- How often the threads had this reply. -/
def count (c : Sharded Int) (reply : ShardReply) : Nat :=
  c.threads.foldr (fun t n => t.replies.count reply + n) 0

/-- The totals of a state. -/
def totalsOf (c : Sharded Int) : Totals :=
  ⟨count c .stored, count c .rejected, c.shared.entries.length, c.shared.rejected.toNat⟩

/-- A division of keys into sixteen shards. -/
def shardOf (key : String) : Nat := key.toList.foldr (fun c n => c.toNat + n) 0 % 16

/-- The most steps that a set or a delete can take. -/
def stepsOfCall : Nat := 5

/-- The totals when each thread has a turn in every round. In a round at least one thread makes
a step, unless all are done. -/
def totals (limit : Option Nat) (mode : Mode) (threads each : Nat) : Totals :=
  let programs := programs mode threads each
  let rounds := stepsOfCall * programs.foldr (fun calls n => calls.length + n) 0
  totalsOf (Sharded.runRounds shardOf rounds (.start limit programs))

end Race

end WarmCache
