import WarmCache.Cache

/-!
# The cache under many threads

The entries are divided into shards, each under a lock of its own, and the slots of all shards
are counted together. A call takes the lock of its shard, tests whether its key is there, changes
the count of slots, changes the entries and gives the lock back, each in a step of its own. The
steps of several threads may come in any order that the locks allow.

A new key takes its slot before it comes into the entries, and a removed one gives its slot back
before it leaves them. In between the count of slots and the number of entries differ.

* `Thread.step?` : one step of a thread.
* `Sharded.run` : the steps of several threads under a schedule.
-/

namespace WarmCache

/-- A call that a thread makes. Values come with their expiry stamped. -/
inductive ShardCall (α : Type) where
  | set (key : String) (entry : Entry α)
  | delete (key : String)
  /-- Flushes one shard of what has expired by `now`. -/
  | flush (shard : Nat) (now : Instant)
  /-- Puts a refreshed entry in place of the one under its key, if there is one. -/
  | replace (key : String) (entry : Entry α)
deriving Repr

/-- What a call comes to. -/
inductive ShardReply where
  | stored
  | rejected
  | deleted
  | flushed (count : Nat)
  | settled (s : Settled)
deriving DecidableEq, Repr

/-- How far a thread has come with the first of its calls. -/
inductive Point (α : Type) where
  /-- It has not begun. -/
  | outside
  /-- It has the lock. -/
  | entered
  /-- It saw an entry to overwrite or to remove. -/
  | occupied (key : String)
  /-- It saw no such entry. -/
  | vacant
  /-- It took a slot for an entry that is not in yet. -/
  | reserved (key : String) (entry : Entry α)
  /-- It gave back the slot of an entry that is not out yet. -/
  | released (key : String)
  /-- It is done but for the lock. -/
  | leaving (reply : ShardReply)
deriving Repr

/-- A thread: the calls it has yet to finish, how far it is with the first, how many entries the
flush under way has removed, and the replies so far, latest first. -/
structure Thread (α : Type) where
  calls : List (ShardCall α)
  point : Point α
  removed : Nat
  replies : List ShardReply
deriving Repr

/-- What the threads share. A lock is held by the thread that is listed with its shard. -/
structure Shared (α : Type) where
  entries : Keyed (Entry α)
  slots : Int
  limit : Option Nat
  rejected : UInt64
  locks : List (Nat × Nat)

namespace ShardCall

variable {α : Type}

/-- The shard that a call works on, where `shardOf` divides the keys. -/
def shard (shardOf : String → Nat) : ShardCall α → Nat
  | set key _ => shardOf key
  | delete key => shardOf key
  | flush shard _ => shard
  | replace key _ => shardOf key

/-- The key that a call would overwrite or remove, if it is there. -/
def target? (shardOf : String → Nat) (entries : Keyed (Entry α)) : ShardCall α → Option String
  | set key _ => if entries.contains key then some key else none
  | delete key => if entries.contains key then some key else none
  | flush shard now =>
    let expired := fun pair : String × Entry α =>
      shardOf pair.1 == shard && pair.2.isExpiredAt now
    (List.find? expired entries).map Prod.fst
  | replace key _ => if entries.contains key then some key else none

end ShardCall

namespace Shared

variable {α : Type}

/-- Writes an entry. -/
def put (s : Shared α) (key : String) (entry : Entry α) : Shared α :=
  { s with entries := s.entries.put key entry }

/-- Takes an entry out. -/
def remove (s : Shared α) (key : String) : Shared α :=
  { s with entries := s.entries.remove key }

/-- Whether there is a free slot. -/
def hasFreeSlot (s : Shared α) : Bool :=
  match s.limit with
  | some limit => s.slots < limit
  | none => true

/-- Whether the lock of a shard is held. -/
def isLocked (s : Shared α) (shard : Nat) : Bool := s.locks.any fun lock => lock.1 == shard

/-- Gives the lock of a shard to a thread. -/
def lock (s : Shared α) (shard thread : Nat) : Shared α :=
  { s with locks := (shard, thread) :: s.locks }

/-- Takes the lock of a shard back. -/
def unlock (s : Shared α) (shard : Nat) : Shared α :=
  { s with locks := s.locks.filter fun lock => lock.1 != shard }

end Shared

namespace Thread

variable {α : Type}

/-- A thread that has made none of its calls. -/
def ofCalls (calls : List (ShardCall α)) : Thread α := ⟨calls, .outside, 0, []⟩

/-- The step after a thread saw an entry to overwrite or to remove. -/
def stepOccupied (s : Shared α) (t : Thread α) (key : String) :
    ShardCall α → Shared α × Thread α
  | .set _ entry => (s.put key entry, { t with point := .leaving .stored })
  | .replace _ entry => (s.put key entry, { t with point := .leaving (.settled .replaced) })
  | .delete _ => ({ s with slots := s.slots - 1 }, { t with point := .released key })
  | .flush _ _ => ({ s with slots := s.slots - 1 }, { t with point := .released key })

/-- The step after a thread saw that there is no such entry. A new key takes a slot if one is
free at this step. -/
def stepVacant (s : Shared α) (t : Thread α) : ShardCall α → Shared α × Thread α
  | .set key entry =>
    if s.hasFreeSlot then
      ({ s with slots := s.slots + 1 }, { t with point := .reserved key entry })
    else ({ s with rejected := s.rejected + 1 }, { t with point := .leaving .rejected })
  | .replace _ _ => (s, { t with point := .leaving (.settled .discarded) })
  | .delete _ => (s, { t with point := .leaving .deleted })
  | .flush _ _ => (s, { t with point := .leaving (.flushed t.removed) })

/-- The step after a thread gave back a slot: the entry goes, and a flush looks for the next. -/
def stepReleased (s : Shared α) (t : Thread α) (key : String) :
    ShardCall α → Shared α × Thread α
  | .flush _ _ => (s.remove key, { t with point := .entered, removed := t.removed + 1 })
  | _ => (s.remove key, { t with point := .leaving .deleted })

/-- One step of thread number `id`. There is none if it has no calls left or waits for a lock. -/
def step? (shardOf : String → Nat) (id : Nat) (s : Shared α) (t : Thread α) :
    Option (Shared α × Thread α) :=
  match t.calls with
  | [] => none
  | call :: rest =>
    match t.point with
    | .outside =>
      if s.isLocked (call.shard shardOf) then none
      else some (s.lock (call.shard shardOf) id, { t with point := .entered })
    | .entered =>
      match call.target? shardOf s.entries with
      | some key => some (s, { t with point := .occupied key })
      | none => some (s, { t with point := .vacant })
    | .occupied key => some (t.stepOccupied s key call)
    | .vacant => some (t.stepVacant s call)
    | .reserved key entry => some (s.put key entry, { t with point := .leaving .stored })
    | .released key => some (t.stepReleased s key call)
    | .leaving reply =>
      some (s.unlock (call.shard shardOf), ⟨rest, .outside, 0, reply :: t.replies⟩)

end Thread

/-- A cache and the threads that use it. -/
structure Sharded (α : Type) where
  shared : Shared α
  threads : List (Thread α)

namespace Sharded

variable {α : Type}

/-- An empty cache and threads that have made none of their calls. -/
def start (limit : Option Nat) (programs : List (List (ShardCall α))) : Sharded α :=
  ⟨⟨[], 0, limit, 0, []⟩, programs.map Thread.ofCalls⟩

/-- The turn of a thread: it makes a step if it can. -/
def turn (shardOf : String → Nat) (c : Sharded α) (id : Nat) : Sharded α :=
  match c.threads[id]?.bind fun t => t.step? shardOf id c.shared with
  | some (shared, t) => ⟨shared, c.threads.set id t⟩
  | none => c

/-- Turns in the order of a schedule. -/
def run (shardOf : String → Nat) (c : Sharded α) (schedule : List Nat) : Sharded α :=
  schedule.foldl (turn shardOf) c

/-- Whether all threads have finished their calls. -/
def isDone (c : Sharded α) : Bool := c.threads.all fun t => t.calls.isEmpty

/-- Rounds in which every thread has one turn, at most `rounds` of them. -/
def runRounds (shardOf : String → Nat) : (rounds : Nat) → Sharded α → Sharded α
  | 0, c => c
  | rounds + 1, c =>
    if c.isDone then c else runRounds shardOf rounds (c.run shardOf (List.range c.threads.length))

end Sharded

end WarmCache
