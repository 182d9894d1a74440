import WarmCache.Session.State

/-!
# How a session answers requests

Every request of work is answered in one step, by a change of the session and a reply. Gates hold
up work in the background only.

* `Session.answer` : the answer to a request.
* `Session.finish` : runs work to its end, past all gates.
* `Session.advance` : runs work to its end or to the first closed gate.
-/

namespace WarmCache

namespace Session

/-- Makes a source for a callback and gives back the callback. -/
def addSource (s : Session) (fetcher : Fetcher) : Session × Callback :=
  match fetcher with
  | .mk _ _ _ _ retries =>
    ({ s with sources := s.sources ++ [Source.ofFetcher fetcher] }, ⟨s.sources.length, retries⟩)

/-- Applies one setting to a value. -/
def applySetting (s : Session) (value : Value Int) : Build → Session × Value Int
  | .expires moment => (s, { value with expires := some (s.instantOf moment) })
  | .refresh fetcher =>
    let (s, callback) := s.addSource fetcher
    (s, { value with refresh := some callback })
  | .share slot retries =>
    match (s.held.find? slot).bind Entry.refresh with
    | some callback =>
      let callback :=
        match retries with
        | some n => callback.withRetries n
        | none => callback
      (s, { value with refresh := some callback })
    | none => (s, value)

/-- Builds a value from an item and settings, the later of which win. -/
def build (s : Session) (item : Int) (settings : List Build) : Session × Value Int :=
  settings.foldl (fun (s, value) setting => s.applySetting value setting) (s, Value.ofItem item)

/-- Sets a key. -/
def set (s : Session) (key : String) (value : Value Int) : Session × Except CacheError Unit :=
  let (cache, result) := s.cache.set s.now key value
  ({ s with cache }, result)

/-- Looks up an entry. -/
def get (s : Session) (key : String) : Session × Option (Entry Int) :=
  let (cache, found) := s.cache.get key
  ({ s with cache }, found)

/-- The answer that shows what was found of an entry. -/
def answerFound {α : Type} (found : Option α) (render : α → Answer) : Answer :=
  match found with
  | some a => render a
  | none => .nothing

/-- The keys made of a stem and the numbers from `first` on, with those numbers. -/
def numberedKeys (stem : String) (first : Int) (count : Nat) : List (String × Int) :=
  (List.range count).map fun i : Nat => (stem ++ toString (first + (i : Int)), first + (i : Int))

/-- Sets numbered keys to their numbers. -/
def setMany (s : Session) (keys : List (String × Int)) : Session × Answer :=
  let (s, ok, firstError) :=
    keys.foldl (fun ((s, ok, firstError) : Session × Nat × Option (Int × CacheError)) key =>
      match s.set key.1 (.ofItem key.2) with
      | (s, .ok ()) => (s, ok + 1, firstError)
      | (s, .error e) => (s, ok, firstError.or (some (key.2, e)))) (s, 0, none)
  (s, .manySet ok firstError)

/-- Looks up numbered keys. -/
def getMany (s : Session) (keys : List (String × Int)) : Session × Answer :=
  let (s, items) :=
    keys.foldl (fun ((s, items) : Session × List Int) key =>
      match s.get key.1 with
      | (s, some e) => (s, e.item :: items)
      | (s, none) => (s, items)) (s, [])
  let items := items.reverse
  (s, .manyFound items.length (items.foldr (· + ·) 0) items.head? items.getLast?)

/-- An outline in a layout. -/
def layOut (layout : Layout) (o : Outline) : Answer :=
  match layout with
  | .line => .text o.line
  | .block => .text o.block

/-- Carries out an action on the entries. -/
def performStore (s : Session) : StoreAction → Session × Answer
  | .get key =>
    let (s, found) := s.get key
    (s, answerFound found fun e => .entry (s.shownEntry e))
  | .getItem key =>
    let (cache, found) := s.cache.getItem key
    ({ s with cache }, answerFound found .number)
  | .delete key => ({ s with cache := s.cache.delete key }, .nothing)
  | .flush =>
    let (cache, removed) := s.cache.flush s.now
    ({ s with cache }, .number removed)
  | .setMany stem first count => s.setMany (numberedKeys stem first count)
  | .getMany stem first count => s.getMany (numberedKeys stem first count)
  | .deleteMany stem first count =>
    let cache := (numberedKeys stem first count).foldl (fun c key => c.delete key.1) s.cache
    ({ s with cache }, .nothing)
  | .size => (s, .number s.cache.size)
  | .isEmpty => (s, .flag s.cache.isEmpty)
  | .limit => (s, answerFound s.cache.limit fun n => .number n)
  | .workerRunning => (s, .flag s.cache.workerRunning)
  | .stats => (s, .stats s.cache.stats)
  | .showCache layout => (s, layOut layout s.cache.outline)
  | .showEntry key =>
    let (s, found) := s.get key
    (s, answerFound found fun e => .text e.outline.line)
  | .showExpiry key =>
    let (s, found) := s.get key
    (s, answerFound found fun e => .text e.expires.plainText)
  | .hold key slot =>
    let (s, found) := s.get key
    match found with
    | some e => ({ s with held := s.held.put slot e }, .entry (s.shownEntry e))
    | none => (s, .nothing)
  | .held slot =>
    match s.held.find? slot with
    | some e => (s, .entry (s.shownEntry e))
    | none => (s, .nothing)
  | .heldExpiredAt slot moment =>
    match s.held.find? slot with
    | some e => (s, .flag (e.isExpiredAt (s.instantOf moment)))
    | none => (s, .nothing)

/-- Carries out an action on the clock or the policy. -/
def performPolicy (s : Session) : PolicyAction → Session × Answer
  | .now => (s, .instant (s.shown s.now))
  | .expiryTime => (s, .instant (s.shown (s.cache.expiryFrom s.now)))
  | .ttl => (s, .span s.cache.policy.ttl)
  | .isExpired expires => (s, .flag (isExpiredAt (s.instantOf expires) s.nextReading))
  | .showPolicy layout => (s, layOut layout s.cache.policy.outline)
  | .advance d =>
    match s.clock with
    | .manual clock =>
      let s := { s with clock := .manual (clock.advance d) }
      (s, .instant (s.shown s.now))
    | _ => (s, .malformed "clock")
  | .setClock moment =>
    match s.clock with
    | .manual _ =>
      let s := { s with clock := .manual (.showing (s.instantOf moment)) }
      (s, .instant (.fixed s.now))
    | _ => (s, .malformed "clock")

/-- The background refresh of a name. -/
def threadOf? (s : Session) (name : String) : Option RefreshProgress :=
  (s.background.threadNames.find? name).bind fun i => s.background.threads[i]?

/-- Carries out an action on gates and background refreshes. A name that stands for nothing is
neither blocked nor finished. -/
def performGate (s : Session) : GateAction → Session × Answer
  | .unlock gate =>
    ({ s with background := s.background.unlock gate }, .number (s.background.waitingAt gate))
  | .release gate =>
    ({ s with background := s.background.release gate }, .number (s.background.waitingAt gate))
  | .spawnRefresh name =>
    let b := s.background
    ({ s with
        background :=
          { b with
            threads := b.threads ++ [.ready Work.wholeRefresh]
            threadNames := b.threadNames.put name b.threads.length } }, .nothing)
  | .isBlocked name => (s, .flag ((s.threadOf? name).any Progress.isWaiting))
  | .join name =>
    match s.threadOf? name with
    | some (.finished result) =>
      let b := s.background
      ({ s with background := { b with threadNames := b.threadNames.remove name } },
        .ofRefresh result)
    | _ => (s, .notFinished)

/-- Starts a background task, unless it is refused: first for an interval of zero, then for want
of a runtime, then, if it is a refresh worker, because the cache has one. A worker that is
started claims the cache. -/
def startTask (s : Session) (kind : TaskKind) (interval : Span) (signal : StopSignal) :
    Except CacheError Session :=
  match Interval.ofSpan? interval with
  | none => .error .invalidInterval
  | some interval =>
    if !s.hasRuntime then .error .noRuntime
    else if kind == .refreshWorker && s.cache.workerRunning then .error .alreadyRunning
    else
      let claimed := s.cache.workerRunning || kind == .refreshWorker
      let b := s.background
      .ok { s with
        cache := { s.cache with workerRunning := claimed }
        background := { b with members := b.members ++ [⟨.spawn kind interval signal, none⟩] } }

/-- The task of a name. -/
def memberOf? (s : Session) (name : String) : Option Member :=
  (s.background.taskNames.find? name).bind fun i => s.background.members[i]?

/-- Carries out an action on background tasks. -/
def performTask (s : Session) : TaskAction → Session × Answer
  | .start kind name interval signal =>
    match s.stops.signals.find? signal with
    | none => (s, .malformed signal)
    | some signal =>
      match s.startTask kind interval signal with
      | .error e => (s, .refused e)
      | .ok started =>
        let b := started.background
        let index := s.background.members.length
        ({ started with background := { b with taskNames := b.taskNames.put name index } },
          .started)
  | .abort name =>
    match s.background.taskNames.find? name with
    | some index =>
      let b := s.background
      let members := b.members.modify index fun m =>
        { m with task := { m.task with abortRequested := true } }
      ({ s with background := { b with members } }, .nothing)
    | none => (s, .nothing)
  | .hasEnded name => (s, .flag ((s.memberOf? name).any fun m => m.task.hasEnded))
  | .join name =>
    match (s.memberOf? name).map fun m : Member => m.task.phase with
    | some (Phase.ended how) =>
      let b := s.background
      let s := { s with background := { b with taskNames := b.taskNames.remove name } }
      match how with
      | .stopped => (s, .done)
      | .cancelled => (s, .cancelled)
      | .panicked message => (s, .panicked message)
    | _ => (s, .notFinished)

/-- Carries out an action. -/
def perform (s : Session) : Action → Session × Answer
  | .set key item settings =>
    let (s, value) := s.build item settings
    let (s, result) := s.set key value
    (s, .ofResult .done result)
  | .showValue item settings =>
    let (s, value) := s.build item settings
    (s, .text value.outline.line)
  | .store action => s.performStore action
  | .policy action => s.performPolicy action
  | .note action =>
    let (journal, answer) := s.journal.perform action
    ({ s with journal }, answer)
  | .channel action =>
    let (stops, answer) := s.stops.perform action
    ({ s with stops }, answer)
  | .gate action => s.performGate action
  | .task action => s.performTask action

/-- Begins an attempt against a source: it is counted, and the source goes on to its next
step. -/
def beginAttempt (s : Session) (index : Nat) : Session × Option Attempt :=
  match s.sources[index]? with
  | none => (s, none)
  | some source =>
    let n := source.attempts
    ({ s with
        sources := s.sources.set index { source with attempts := n + 1 }
        journal := s.journal.countCall source.name }, some ⟨source.name, n, source.step n⟩)

/-- Settles what the callback of a snapshot came to and reports a failure. -/
def settleOutcome (s : Session) (key : String) (callback : Callback)
    (result : Except String Int) : Session × Settled :=
  let s :=
    match result with
    | .error message => s.report (.refreshFailed key message)
    | .ok _ => s
  let (cache, settled) := s.cache.settle s.now key callback result
  ({ s with cache }, settled)

/-- The reply to a request, before the clock moves on. -/
def reply (s : Session) : (q : Request) → Session × Reply q
  | .act action => s.perform action
  | .snapshot => (s, s.cache.refreshable)
  | .settle key callback result => s.settleOutcome key callback result
  | .attempt source => s.beginAttempt source
  | .record note => ({ s with journal := s.journal.note note }, ())
  | .heldCallback slot => (s, (s.held.find? slot).bind Entry.refresh)

/-- The answer to a request. Real time has moved on when it is given. -/
def answer (s : Session) (q : Request) : Session × Reply q :=
  let (s, reply) := s.reply q
  ({ s with clock := s.clock.tick }, reply)

/-- Runs work to its end. The session's own calls wait at no gate. -/
def finish {α : Type} : Work α → Session → Session × α
  | .done result, s => (s, result)
  | .ask q next, s =>
    let (s, reply) := s.answer q
    finish (next reply) s
  | .gate _ rest, s => finish rest s

/-- Runs work to its end or until it comes to a gate that is not open. -/
def advance {α : Type} : Work α → Session → Session × Progress α
  | .done result, s => (s, .finished result)
  | .ask q next, s =>
    let (s, reply) := s.answer q
    advance (next reply) s
  | .gate name rest, s =>
    if s.background.openGates.contains name then advance rest s else (s, .waiting name rest)

end Session

end WarmCache
