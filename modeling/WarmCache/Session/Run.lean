import WarmCache.Session.Settle
import WarmCache.Settings

/-!
# Running a session

A session is run move by move. After each move the background settles before the next begins,
and the number of entries is noted.

* `Session.run` : the answers to all moves, and the session at the end.
* `Session.remainder` : what is left at the end.
-/

namespace WarmCache

/-- The answer to a move, and the number of entries once the background had settled. -/
structure Reading where
  answer : Answer
  size : Nat

/-- What is left at the end of a session. -/
structure Remainder where
  size : Nat
  isEmpty : Bool
  stats : Stats
  workerRunning : Bool
  calls : List (String × Nat)
  entries : List (String × ShownEntry)

/-- The time a cache reads. -/
inductive TimeSource where
  /-- A clock that is moved by hand, from a given instant. -/
  | manual (start : Instant)
  /-- A clock that is moved by hand, from the present. -/
  | manualFromPresent
  /-- A clock that follows the time of the session. -/
  | running (start : Timestamp)
  /-- Real time. -/
  | system
deriving Repr

namespace TimeSource

/-- A present. Where it matters, instants are only shown by their distance from it, so that any
other would do. -/
def somePresent : Timestamp := ⟨⟨1748736000, 0⟩, by decide⟩

/-- The clock of a time source as the session begins. -/
def clock : TimeSource → Clock
  | manual start => .manual (.showing start)
  | manualFromPresent => .manual (.showing somePresent.toInstant)
  | running start => .running start
  | system => .system somePresent

/-- Whether instants are shown by their distance from the present. -/
def isRelative : TimeSource → Bool
  | manual _ => false
  | manualFromPresent => true
  | running _ => false
  | system => true

end TimeSource

namespace Session

/-- The session of a new cache. -/
def ofCache (ttl : Span) (limit : Option Nat) (time : TimeSource) (hasRuntime : Bool) : Session :=
  start (.new (.ofTtl ttl) limit) time.clock time.isRelative hasRuntime

/-- The session of a cache that the settings describe, which reads real time. -/
def ofSettings (settings : Settings) (hasRuntime : Bool) : Session :=
  ofCache settings.ttl settings.capacityLimit .system hasRuntime

/-- Makes a move, before the background settles. -/
def act (s : Session) : Move → Session × Answer
  | .run command => s.finish command.work
  | .sleep d =>
    let (s, reached) := s.sleep d
    (s, if reached then .nothing else .cycleBlocked)
  | .jump d => ({ s with elapsed := s.elapsed + d.toNanos }, .nothing)

/-- Makes a move and lets the background settle. -/
def move (s : Session) (m : Move) : Session × Reading :=
  let (s, answer) := s.act m
  let s := s.settle
  (s, ⟨answer, s.cache.size⟩)

/-- Makes moves one after the other. -/
def run (s : Session) : List Move → Session × List Reading
  | [] => (s, [])
  | m :: rest =>
    let (s, reading) := s.move m
    let (s, readings) := s.run rest
    (s, reading :: readings)

/-- What is left at the end, with the entries under the keys that are asked for. -/
def remainder (s : Session) (keys : List String) : Remainder where
  size := s.cache.size
  isEmpty := s.cache.isEmpty
  stats := s.cache.stats
  workerRunning := s.cache.workerRunning
  calls := s.journal.calls
  entries := keys.filterMap fun key =>
    (s.cache.entries.find? key).map fun e => (key, s.shownEntry e)

/-- Runs moves and tells what is left of the keys that they set. -/
def play (s : Session) (moves : List Move) : List Reading × Remainder :=
  let (s, readings) := s.run moves
  (readings, s.remainder (moves.flatMap Move.setKeys).eraseDups)

end Session

end WarmCache
