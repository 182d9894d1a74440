import WarmCache.Session.Source
import WarmCache.Session.Stops
import WarmCache.Session.Work

/-!
# The state of a session

A session has one cache and its clock, the sources behind the callbacks, what was noted and
reported, the copies of entries that were kept, the stop channels, and the background: gates,
refreshes on threads of their own, and tasks.

Work in the background is put aside at a gate and is ready again once it is let through. The
cycle of a refresh worker is kept beside its task, because it outlives a task that is aborted.
-/

namespace WarmCache

/-- How far work in the background has come. -/
inductive Progress (α : Type) where
  /-- It may go on. -/
  | ready (rest : Work α)
  /-- It waits at a gate. -/
  | waiting (gate : String) (rest : Work α)
  /-- It has its result. -/
  | finished (result : α)

namespace Progress

variable {α : Type}

/-- Whether work waits at a gate. -/
def isWaiting : Progress α → Bool
  | waiting _ _ => true
  | _ => false

/-- Whether work may go on. -/
def isReady : Progress α → Bool
  | ready _ => true
  | _ => false

/-- Whether work waits at this gate. -/
def waitsAt (name : String) : Progress α → Bool
  | waiting gate _ => gate == name
  | _ => false

/-- Work that waits at this gate is ready again. -/
def letThrough (name : String) : Progress α → Progress α
  | waiting gate rest => if gate = name then ready rest else waiting gate rest
  | p => p

end Progress

/-- What a refresh is or comes to. -/
abbrev RefreshProgress := Progress (Except String Summary)

/-- A background task and the refresh cycle that it began, while there is one. -/
structure Member where
  task : Task
  cycle : Option RefreshProgress

namespace Member

/-- Whether a refresh worker or its cycle still exists, so that the cache is taken. -/
def holdsCache (m : Member) : Bool :=
  m.task.kind == .refreshWorker && (!m.task.hasEnded || m.cycle.isSome)

/-- Whether the cycle waits at a gate. -/
def isBlocked (m : Member) : Bool := m.cycle.any Progress.isWaiting

end Member

/-- The background of a session. -/
structure Background where
  openGates : List String
  threads : List RefreshProgress
  threadNames : Keyed Nat
  members : List Member
  taskNames : Keyed Nat

namespace Background

/-- Nothing runs and all gates are closed. -/
def empty : Background := ⟨[], [], [], [], []⟩

/-- How many wait at a gate. -/
def waitingAt (b : Background) (gate : String) : Nat :=
  (b.threads.filter fun p => p.waitsAt gate).length +
    (b.members.filter fun m => m.cycle.any fun p => p.waitsAt gate).length

/-- Lets through those who wait at a gate. -/
def release (b : Background) (gate : String) : Background :=
  { b with
    threads := b.threads.map fun p => p.letThrough gate
    members := b.members.map fun m => { m with cycle := m.cycle.map fun p => p.letThrough gate } }

/-- Opens a gate for good and lets through those who wait at it. -/
def unlock (b : Background) (gate : String) : Background :=
  { b.release gate with openGates := gate :: b.openGates }

/-- Whether the cycle of some task waits at a gate. -/
def isBlocked (b : Background) : Bool := b.members.any Member.isBlocked

/-- The earliest whole millisecond at which a tick can be delivered. -/
def nextDueMilli? (b : Background) : Option Nat :=
  (b.members.filterMap fun m => m.task.dueMilli?).min?

end Background

/-- What was noted and reported, newest first, and how often each source was called. -/
structure Journal where
  calls : Keyed Nat
  trace : List TraceRecord
  events : List Event

namespace Journal

/-- Nothing noted. -/
def empty : Journal := ⟨[], [], []⟩

/-- Counts a call. -/
def countCall (j : Journal) (name : String) : Journal :=
  { j with calls := j.calls.put name ((j.calls.find? name).getD 0 + 1) }

/-- Notes the end of an attempt. -/
def note (j : Journal) (record : TraceRecord) : Journal := { j with trace := record :: j.trace }

/-- Reports an event. -/
def report (j : Journal) (event : Event) : Journal := { j with events := event :: j.events }

/-- Reads the journal. A reading of the trace or of the events clears it. -/
def perform (j : Journal) : NoteAction → Journal × Answer
  | .calls => (j, .calls j.calls)
  | .trace sorted =>
    let records := j.trace.reverse
    ({ j with trace := [] },
      .trace (if sorted then records.mergeSort TraceRecord.comesBefore else records))
  | .logs sorted =>
    let events := j.events.reverse
    ({ j with events := [] }, .logs (if sorted then events.mergeSort Event.comesBefore else events))

end Journal

/-- A session under way. -/
structure Session where
  cache : Cache Int
  clock : Clock
  /-- Whether instants are shown by their distance from the present. -/
  relative : Bool
  /-- Nanoseconds since the session began. -/
  elapsed : Nat
  /-- Whether there is something here that background tasks could run on. -/
  hasRuntime : Bool
  sources : List Source
  held : Keyed (Entry Int)
  journal : Journal
  stops : Stops
  background : Background

namespace Session

/-- A session that has not begun. -/
def start (cache : Cache Int) (clock : Clock) (relative hasRuntime : Bool) : Session :=
  ⟨cache, clock, relative, 0, hasRuntime, [], [], .empty, .empty, .empty⟩

/-- The instant that the clock shows. -/
def now (s : Session) : Instant := s.clock.now s.elapsed

/-- The instant that is meant. -/
def instantOf (s : Session) : Moment → Instant
  | .fixed t => t
  | .inSecs n => s.now.shiftSecs n

/-- The instant that the clock shows at its next reading. -/
def nextReading (s : Session) : Instant := s.clock.tick.now s.elapsed

/-- An instant as this session shows it, once it is known. -/
def shown (s : Session) (t : Instant) : ShownInstant :=
  if s.relative then if t = .latest then .latest else .inMinutes (t.minutesAfter s.nextReading)
  else .fixed t

/-- An entry as this session shows it, once it is known. -/
def shownEntry (s : Session) (e : Entry Int) : ShownEntry :=
  ⟨e.item, s.shown e.expires, e.isRefreshable, e.isExpiredAt s.nextReading⟩

/-- Reports an event. -/
def report (s : Session) (event : Event) : Session :=
  { s with journal := s.journal.report event }

end Session

end WarmCache
