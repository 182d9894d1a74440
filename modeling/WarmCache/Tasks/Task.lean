import WarmCache.Tasks.StopChannel
import WarmCache.Tasks.Ticker

/-!
# Background tasks

A task runs beside its callers: a refresh worker begins a refresh cycle at every tick, a flush
task flushes at every tick. A task is looked at whenever it may go on. At each look it first
gives way to an abort, then to its stop signal, and only then to its ticker; while its cycle is
under way it sees none but an abort.

* `Task.look_of_ended` : an ended task does nothing more.
* `Task.look_ticked` : a tick is never delivered once the task can see a stop.
-/

namespace WarmCache

/-- The two kinds of background task. -/
inductive TaskKind where
  /-- Refreshes the cache at every tick. -/
  | refreshWorker
  /-- Flushes the cache at every tick. -/
  | flusher
deriving DecidableEq, Repr

namespace TaskKind

/-- A refresh worker skips the ticks that it missed; a flush task puts them off. -/
def missedTicks : TaskKind → MissedTicks
  | refreshWorker => .skip
  | flusher => .delay

end TaskKind

/-- How a task came to its end. -/
inductive TaskEnd where
  /-- It saw its stop signal. -/
  | stopped
  /-- It was aborted. -/
  | cancelled
  /-- It panicked. -/
  | panicked (message : String)
deriving DecidableEq, Repr

/-- How far a task has come. -/
inductive Phase where
  /-- It has not run yet. -/
  | fresh
  /-- It waits for its next tick or its stop. -/
  | waiting (ticker : Ticker)
  /-- A refresh cycle that it began is under way. -/
  | working (ticker : Ticker)
  /-- It is gone. -/
  | ended (how : TaskEnd)
deriving DecidableEq, Repr

/-- A background task. -/
structure Task where
  kind : TaskKind
  interval : Interval
  signal : StopSignal
  phase : Phase
  abortRequested : Bool
deriving DecidableEq, Repr

/-- What a task does at one look. -/
inductive TaskStep where
  /-- Nothing: it cannot go on now. -/
  | idle
  /-- It begins and arms its ticker. -/
  | begun
  /-- It begins and panics, because its first deadline is beyond counting. -/
  | overflowed
  /-- It delivers a tick, whose work is to be done now. -/
  | ticked
  /-- It sees its stop signal and ends. -/
  | stopped
  /-- It gives way to an abort. -/
  | cancelled
deriving DecidableEq, Repr

namespace Task

/-- A task that was just spawned. -/
def spawn (kind : TaskKind) (interval : Interval) (signal : StopSignal) : Task :=
  ⟨kind, interval, signal, .fresh, false⟩

/-- The panic of a task whose first deadline is beyond counting. -/
def overflowMessage : String := "overflow when adding duration to instant"

/-- Whether a task is gone. -/
def hasEnded (t : Task) : Bool :=
  match t.phase with
  | .ended _ => true
  | _ => false

/-- The first look of a task: it arms its ticker, or panics because it cannot. -/
def begin (now : Nat) (t : Task) : Task × TaskStep :=
  match Ticker.start? now t.interval t.kind.missedTicks with
  | some ticker => ({ t with phase := .waiting ticker }, .begun)
  | none => ({ t with phase := .ended (.panicked overflowMessage) }, .overflowed)

/-- A task takes the tick of its ticker. A refresh worker has a cycle under way from then on. -/
def tick (now : Nat) (ticker : Ticker) (t : Task) : Task :=
  match t.kind with
  | .refreshWorker => { t with phase := .working (ticker.deliver now) }
  | .flusher => { t with phase := .waiting (ticker.deliver now) }

/-- A look of a waiting task: first at its stop signal, then at its ticker. -/
def lookWaiting (now : Nat) (channel : StopChannel) (ticker : Ticker) (t : Task) :
    Task × TaskStep :=
  let seen := t.signal.wait channel
  let t := { t with signal := seen.1 }
  if seen.2 then ({ t with phase := .ended .stopped }, .stopped)
  else if ticker.isDue now then (t.tick now ticker, .ticked)
  else (t, .idle)

/-- One look of a task at `now`, with its stop channel as it is. -/
def look (now : Nat) (channel : StopChannel) (t : Task) : Task × TaskStep :=
  match t.phase with
  | .ended _ => (t, .idle)
  | phase =>
    if t.abortRequested then ({ t with phase := .ended .cancelled }, .cancelled)
    else
      match phase with
      | .fresh => t.begin now
      | .waiting ticker => t.lookWaiting now channel ticker
      | _ => (t, .idle)

/-- A task whose refresh cycle has come to its end. -/
def cycleEnded (t : Task) : Task :=
  match t.phase with
  | .working ticker => { t with phase := .waiting ticker }
  | _ => t

/-- The whole millisecond at which the tick that a task waits for can be delivered. -/
def dueMilli? (t : Task) : Option Nat :=
  match t.phase with
  | .waiting ticker => some ticker.dueMilli
  | _ => none

theorem look_of_ended (now : Nat) (channel : StopChannel) (t : Task) (how : TaskEnd)
    (h : t.phase = .ended how) : t.look now channel = (t, .idle) := by
  simp [look, h]

theorem begin_ne_ticked (now : Nat) (t : Task) : (t.begin now).2 ≠ .ticked := by
  unfold begin
  generalize Ticker.start? now t.interval t.kind.missedTicks = armed
  cases armed <;> simp

theorem lookWaiting_ticked (now : Nat) (channel : StopChannel) (ticker : Ticker) (t : Task)
    (h : (t.lookWaiting now channel ticker).2 = .ticked) :
    t.signal.isStopped channel = false := by
  rw [← StopSignal.wait_eq_isStopped]
  cases hw : (t.signal.wait channel).2 with
  | false => rfl
  | true => simp [lookWaiting, hw] at h

theorem look_ticked (now : Nat) (channel : StopChannel) (t : Task)
    (h : (t.look now channel).2 = .ticked) : t.signal.isStopped channel = false := by
  unfold look at h
  split at h
  · simp at h
  · split at h
    · simp at h
    · split at h
      · exact absurd h (begin_ne_ticked now t)
      · exact lookWaiting_ticked now channel _ t h
      · simp at h

end Task

end WarmCache
