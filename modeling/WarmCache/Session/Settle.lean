import WarmCache.Session.Perform

/-!
# The background of a session

Work in the background goes on one piece at a time, as long as any can go on at the present
time. Aborts come first, then background refreshes, then tasks that may go on by themselves, and
last refresh cycles, which do not hold up the tasks beside them. A session settles when nothing is
left that can go on; time passes only between.

* `Session.pieces`, `Session.doPiece` : the pieces of background work that can be done, in any
  order that one likes; the session takes the first.
* `Session.settle` : all background work that can be done at the present time.
* `Session.sleep` : time passes evenly, and each tick is delivered at its own time.
-/

namespace WarmCache

/-- A piece of background work, by the number of the task or thread that it belongs to. -/
inductive Piece where
  /-- A task is looked at. -/
  | look (index : Nat)
  /-- A background refresh goes on. -/
  | thread (index : Nat)
  /-- The refresh cycle of a task goes on. -/
  | cycle (index : Nat)
deriving DecidableEq, Repr

namespace Member

/-- How many pieces of work a task has before it at `now`, at most: its cycle, its beginning, its
end, and each tick that is due with the cycle it brings. -/
def backlog (now : Nat) (m : Member) : Nat :=
  let ofCycle := if m.cycle.any Progress.isReady then 1 else 0
  match m.task.phase with
  | .fresh => ofCycle + 2
  | .waiting ticker => ofCycle + 1 + 2 * (now + 1 - ticker.deadline)
  | .working ticker => ofCycle + 1 + 2 * (now + 1 - ticker.deadline)
  | .ended _ => ofCycle

end Member

namespace Session

/-- Puts back a background task. A refresh worker that is gone, and its cycle with it, gives up
its claim on the cache. -/
def putMember (s : Session) (index : Nat) (m : Member) : Session :=
  let b := s.background
  let held := b.members[index]?.any Member.holdsCache
  let running := if held && !m.holdsCache then false else s.cache.workerRunning
  { s with
    cache := { s.cache with workerRunning := running }
    background := { b with members := b.members.set index m } }

/-- Reports how a refresh cycle ended. -/
def reportCycle (s : Session) : Except String Summary → Session
  | .ok summary => s.report (.cycleComplete summary)
  | .error message => s.report (.cyclePanicked message)

/-- A refresh cycle is over. Its task, if it is still there and is not to be aborted, reports it
and waits again. -/
def endCycle (s : Session) (index : Nat) (result : Except String Summary) : Session :=
  match s.background.members[index]? with
  | none => s
  | some m =>
    if m.task.hasEnded || m.task.abortRequested then s.putMember index { m with cycle := none }
    else (s.reportCycle result).putMember index ⟨m.task.cycleEnded, none⟩

/-- Goes on with a refresh cycle, to its end or to the next closed gate. -/
def resumeCycle (s : Session) (index : Nat) (rest : Work (Except String Summary)) : Session :=
  match s.advance rest with
  | (s, .finished result) => s.endCycle index result
  | (s, p) =>
    match s.background.members[index]? with
    | none => s
    | some m => s.putMember index { m with cycle := some p }

/-- Goes on with a background refresh, to its end or to the next closed gate. Its thread is not
one of those that background tasks could run on. -/
def resumeThread (s : Session) (index : Nat) (rest : Work (Except String Summary)) : Session :=
  let (after, p) := { s with hasRuntime := false }.advance rest
  let b := after.background
  { after with
    hasRuntime := s.hasRuntime
    background := { b with threads := b.threads.set index p } }

/-- The work of a tick: a refresh worker has a new cycle, a flush task flushes and reports. -/
def tickWork (s : Session) (index : Nat) (task : Task) : Session :=
  match task.kind with
  | .refreshWorker => s.putMember index ⟨task, some (.ready Work.wholeRefresh)⟩
  | .flusher =>
    let s := s.putMember index ⟨task, none⟩
    let (cache, removed) := s.cache.flush s.now
    { s with cache }.report (.flushed removed)

/-- What a look of task `index` made of it, `task`, and what that brings about. -/
def applyLook (s : Session) (index : Nat) (m : Member) (task : Task) : TaskStep → Session
  | .idle => s
  | .begun => (s.report (.begun task.kind task.interval)).putMember index { m with task }
  | .overflowed => (s.report (.begun task.kind task.interval)).putMember index { m with task }
  | .ticked => s.tickWork index task
  | .stopped => (s.report (.stopped task.kind)).putMember index { m with task }
  | .cancelled => s.putMember index { m with task }

/-- A look of a task at the present time. -/
def look (s : Session) (m : Member) : Task × TaskStep :=
  m.task.look s.elapsed (s.stops.channel m.task.signal.channel)

/-- A look of a task and what that brings about. -/
def stepMember (s : Session) (index : Nat) (m : Member) : Session :=
  let (task, step) := s.look m
  s.applyLook index m task step

/-- Does a piece of background work. -/
def doPiece (s : Session) : Piece → Session
  | .look index =>
    match s.background.members[index]? with
    | some m => s.stepMember index m
    | none => s
  | .thread index =>
    match s.background.threads[index]? with
    | some (.ready rest) => s.resumeThread index rest
    | _ => s
  | .cycle index =>
    match s.background.members[index]?.bind Member.cycle with
    | some (.ready rest) => s.resumeCycle index rest
    | _ => s

/-- The tasks that give way to an abort at their next look. -/
def abortPieces (s : Session) : List Piece :=
  s.background.members.zipIdx.filterMap fun (m, index) =>
    if m.task.abortRequested && !m.task.hasEnded then some (.look index) else none

/-- The background refreshes that may go on. -/
def threadPieces (s : Session) : List Piece :=
  s.background.threads.zipIdx.filterMap fun (p, index) =>
    if p.isReady then some (.thread index) else none

/-- The refresh cycles that may go on. -/
def cyclePieces (s : Session) : List Piece :=
  s.background.members.zipIdx.filterMap fun (m, index) =>
    if m.cycle.any Progress.isReady then some (.cycle index) else none

/-- The tasks that do something when they are looked at. -/
def lookPieces (s : Session) : List Piece :=
  s.background.members.zipIdx.filterMap fun (m, index) =>
    if (s.look m).2 = .idle then none else some (.look index)

/-- All background work that can be done at the present time, the first to be done first. -/
def pieces (s : Session) : List Piece :=
  s.abortPieces ++ s.threadPieces ++ s.lookPieces ++ s.cyclePieces

/-- The session after the next piece of background work, if there is any. -/
def step? (s : Session) : Option Session := s.pieces.head?.map s.doPiece

/-- Does background work as long as there is any, for at most so many pieces. -/
def settleWithin : Nat → Session → Session
  | 0, s => s
  | pieces + 1, s =>
    match s.step? with
    | some s => settleWithin pieces s
    | none => s

/-- How many pieces of background work there are at most at the present time, apart from those
that callbacks add. -/
def backlog (s : Session) : Nat :=
  s.background.members.foldr (fun m n => m.backlog s.elapsed + n) 0 +
    (s.background.threads.filter Progress.isReady).length

/-- How many pieces of background work callbacks may add without time passing. -/
def sparePieces : Nat := 1000000

/-- Does all background work that can be done at the present time. -/
def settle (s : Session) : Session := settleWithin (sparePieces + s.backlog) s

/-- Lets time pass from millisecond `t` until `target`, stopping at every millisecond on the way at
which a tick can be delivered. At each of them the clock stands `past` nanoseconds further. Time
stands still as soon as a refresh cycle waits at a gate; the second part of the result tells
whether the target was reached. -/
def passMillis (past target t : Nat) (s : Session) : Session × Bool :=
  if s.background.isBlocked then (s, decide (target ≤ t))
  else
    match s.background.nextDueMilli? with
    | none => ({ s with elapsed := Span.nanosPerMilli * target + past }, true)
    | some d =>
      if t < d ∧ d ≤ target then
        passMillis past target d { s with elapsed := Span.nanosPerMilli * d + past }.settle
      else ({ s with elapsed := Span.nanosPerMilli * target + past }, true)
termination_by target - t

/-- The time at which a sleep of length `d` ends. A sleep is cut as the period of a ticker is. -/
def wakeTime (s : Session) (d : Span) : Nat := s.elapsed + min Ticker.longestPeriod d.toNanos

/-- Lets time pass evenly and in whole milliseconds up to `wakeTime`, unless a refresh cycle waits
at a gate. -/
def sleep (s : Session) (d : Span) : Session × Bool :=
  if s.background.isBlocked then (s, false)
  else
    passMillis (s.elapsed % Span.nanosPerMilli) (Span.millisUp (s.wakeTime d))
      (s.elapsed / Span.nanosPerMilli) s

end Session

end WarmCache
