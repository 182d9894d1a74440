import WarmCache.Session.Run
import WarmCache.Text.LogFilter

/-!
# The demonstration service

The service keeps the configuration of one remote service warm. It reads its settings, puts the
first version of the configuration into a cache, starts a refresh worker and a flush task, waits
to be told to shut down, stops both and reports what it has. Whatever goes wrong on the way ends
it with an error.

* `Demo.serve` : what the service reports and how it ends, whenever it is told to shut down.
* `Demo.run` : what is seen of it when it is told to shut down at once.
-/

namespace WarmCache

namespace Demo

/-- How the service is told to shut down. -/
inductive Signal where
  | interrupt
  | terminate
deriving DecidableEq, Repr

/-- What a run depends on besides its environment: the clock by which entries expire, the time at
which the service begins, in nanoseconds, the milliseconds for which it runs until it is told to
shut down, and how it is told. -/
structure Occasion where
  clock : Clock
  begins : Nat
  delay : Nat
  signal : Signal

namespace Occasion

/-- The service is told to shut down at once. -/
def atOnce (signal : Signal) : Occasion := ⟨TimeSource.system.clock, 0, 0, signal⟩

/-- What the clock shows when the first version is put into the cache. To fetch it took two
requests. -/
def seeding (o : Occasion) : Instant := o.clock.tick.tick.now o.begins

end Occasion

/-- What the service itself reports. -/
inductive Notice where
  | loaded (settings : Settings)
  | received (signal : Signal)
  | stopping
  | finalEntry (version : Int) (expires : Instant)
  | finalStats (stats : Stats)

/-- The service whose configuration is kept. -/
def serviceId : String := "2555417777820"

namespace Notice

/-- The level of a notice. -/
def level : Notice → Level
  | stopping => .warn
  | _ => .info

/-- The text of a notice, where `time` writes instants. -/
def text (time : Instant → String) : Notice → String
  | loaded s =>
    "Configuration loaded: ttl=" ++ toString s.ttlSecs ++ "s, refresh_interval=" ++
      toString s.refreshSecs ++ "s, flush_interval=" ++ toString s.flushSecs ++ "s, limit=" ++
      toString s.limit
  | received .interrupt => "Received Ctrl+C, initiating shutdown..."
  | received .terminate => "Received SIGTERM, initiating shutdown..."
  | stopping => "Background tasks signalled to stop"
  | finalEntry version expires =>
    "Final cached config for service " ++ serviceId ++ ": version " ++ toString version ++
      " (expires " ++ time expires ++ ")"
  | finalStats stats => "Cache stats: " ++ stats.outline.line

end Notice

/-- Why the service ended with an error. -/
inductive Failure where
  /-- The cache refused the entry or a task. -/
  | refused (e : CacheError)
  /-- The remote service gave no configuration. -/
  | notFetched (message : String)
  /-- A background task panicked. -/
  | taskPanicked (message : String)
deriving DecidableEq, Repr

namespace Failure

/-- The text shown to a user. -/
def text : Failure → String
  | refused e => e.message
  | notFetched message => message
  | taskPanicked message => panicText message

end Failure

/-- What the service reported up to its end, and what went wrong. -/
structure Result where
  notices : List Notice
  events : List Event
  failure : Option Failure

/-- The remote service, every fetch from which brings a newer version. -/
def remote : Fetcher := .mk "remote" (.mk none [] (.counted 0)) [] false []

/-- Fetches the first version and puts it into the cache, with a callback that fetches later
ones. -/
def seed (s : Session) : Session × Except Failure Unit :=
  let (s, callback) := s.addSource remote
  match s.finish (Work.call Work.maxDepth callback) with
  | (s, .ok version) =>
    let (s, result) := s.set serviceId ⟨version, none, some callback⟩
    (s, result.mapError Failure.refused)
  | (s, .failed message) => (s, .error (.notFetched message))
  | (s, .panicked message) => (s, .error (.notFetched message))

/-- Starts the refresh worker and then the flush task, both on one stop channel. -/
def startTasks (s : Session) (settings : Settings) : Except CacheError Session := do
  let s := { s with stops := (s.stops.create "stop").subscribe "stop" "refresh" }
  let signal (name : String) := (s.stops.signals.find? name).getD default
  let s ← s.startTask .refreshWorker settings.refreshInterval (signal "refresh")
  s.startTask .flusher settings.flushInterval (signal "stop")

/-- The first task, in the order they were started, that panicked. -/
def panicked? (s : Session) : Option String :=
  s.background.members.findSome? fun m =>
    match m.task.phase with
    | .ended (.panicked message) => some message
    | _ => none

/-- Asks the tasks to stop. -/
def askToStop (s : Session) : Session := { s with stops := s.stops.stop "stop" }

/-- Reports, after other notices, what is in the cache when the tasks are gone. -/
def report (s : Session) (notices : List Notice) : Result :=
  let events := s.journal.events.reverse
  match panicked? s with
  | some message => ⟨notices, events, some (.taskPanicked message)⟩
  | none =>
    let (s, found) := s.get serviceId
    let last :=
      match found with
      | some e => [Notice.finalEntry e.item e.expires]
      | none => []
    ⟨notices ++ last ++ [.finalStats s.cache.stats], events, none⟩

/-- Stops the tasks and reports what is in the cache. -/
def shutDown (s : Session) (notices : List Notice) (signal : Signal) : Result :=
  report (askToStop s).settle (notices ++ [.received signal, .stopping])

/-- The session in which the service begins. -/
def opening (settings : Settings) (o : Occasion) : Session :=
  { Session.ofSettings settings true with clock := o.clock, elapsed := o.begins }

/-- Lets so many milliseconds pass, with each tick at its own time. -/
def await (s : Session) (millis : Nat) : Session :=
  let t := s.elapsed / Span.nanosPerMilli
  (Session.passMillis (s.elapsed % Span.nanosPerMilli) (t + millis) t s).1

/-- Runs the service with its settings until it is told to shut down. -/
def serve (settings : Settings) (o : Occasion) : Result :=
  let notices := [Notice.loaded settings]
  match seed (opening settings o) with
  | (_, .error failure) => ⟨notices, [], some failure⟩
  | (s, .ok ()) =>
    match startTasks s settings with
    | .error e => ⟨notices, [], some (.refused e)⟩
    | .ok s => shutDown (await s.settle o.delay) notices o.signal

/-- What can be seen of a run: the exit code, the lines the service logs, the lines its tasks log
and the line it ends with if it fails. -/
structure Transcript where
  exitCode : Nat
  mainLines : List String
  taskLines : List String
  errorLines : List String
deriving DecidableEq, Repr

/-- The component that reports an event. -/
def component : Event → String
  | .begun .flusher _ => "config_cache::tasks::flush"
  | .stopped .flusher => "config_cache::tasks::flush"
  | .flushed _ => "config_cache::tasks::flush"
  | .refreshFailed _ _ => "config_cache::cache::store"
  | _ => "config_cache::tasks::refresh"

/-- The filter by which the service's own events are heard from level info on. -/
def ownEvents : LogFilter := [⟨some "config_cache".toList, none, none, Level.info.verbosity⟩]

/-- The filter in the environment, or `ownEvents` if there is none or it is malformed. A torn one
breaks the service off before it begins. -/
def logFilter? (env : Environment) : Option LogFilter :=
  match (Settings.variableText env "RUST_LOG").map LogFilter.parse with
  | some (.ok filter) => some filter
  | some (.error .torn) => none
  | _ => some ownEvents

/-- The line of an event that is heard. Besides its other fields every event has its text as a
field. -/
def line? (filter : LogFilter) (component : String) (fields : List String) (level : Level)
    (text : String) : Option String :=
  if filter.hears component ("message" :: fields) level.verbosity then
    some (level.text ++ " " ++ text)
  else none

/-- What is seen of a run whose events pass through a filter. -/
def transcript (filter : LogFilter) (time : Instant → String) (result : Result) : Transcript where
  exitCode := if result.failure.isSome then 1 else 0
  mainLines := result.notices.filterMap fun n =>
    line? filter "config_cache" [] n.level (n.text time)
  taskLines := result.events.filterMap fun e =>
    line? filter (component e) (e.fields.map Prod.fst) e.level e.text
  errorLines := result.failure.toList.map fun f => "Error: " ++ f.text

/-- What is seen of a run that breaks off. -/
def brokenOff : Transcript := ⟨101, [], [], []⟩

/-- What is seen of the service in an environment, where `time` writes the instants that it
reports. -/
def runOn (o : Occasion) (time : Instant → String) (env : Environment) : Transcript :=
  match logFilter? env with
  | some filter => transcript filter time (serve (Settings.load env) o)
  | none => brokenOff

/-- What is seen of the service when it is told to shut down before its first tick. -/
def run (time : Instant → String) (env : Environment) (signal : Signal) : Transcript :=
  runOn (.atOnce signal) time env

end Demo

end WarmCache
