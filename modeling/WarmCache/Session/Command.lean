import WarmCache.Callback
import WarmCache.Tasks.Task
import WarmCache.Time.Instant

/-!
# Commands

A session is a list of moves against one cache. A move runs a command or lets time pass. A
command is one action, a refresh, a call of a callback that was kept, or a batch of commands.

The callbacks that a session stores are scripts. A script lists the steps of a source, one for
each attempt; a step may wait at a gate and run commands of its own before it ends. So callbacks
may do to the cache whatever the session may do, except let time pass.
-/

namespace WarmCache

/-- A point in time as a session names it. -/
inductive Moment where
  /-- This instant. -/
  | fixed (t : Instant)
  /-- So many seconds after what the clock shows. -/
  | inSecs (n : Int)
deriving Repr

/-- The layout of an inspection text. -/
inductive Layout where
  | line
  | block
deriving DecidableEq, Repr

/-- How a step of a script ends. -/
inductive Ending where
  /-- With an item. -/
  | item (n : Int)
  /-- With an item that is higher by one at each attempt, the first being `base + 1`. -/
  | counted (base : Int)
  /-- With an error. -/
  | failed (message : String)
  /-- With a panic. -/
  | panicked (message : String)
deriving DecidableEq, Repr

namespace Ending

/-- What attempt number `n` comes to, counted from zero. -/
def outcome (n : Nat) : Ending → Outcome Int
  | item i => .ok i
  | counted base => .ok (base + n + 1)
  | failed message => .failed message
  | panicked message => .panicked message

end Ending

/-- Actions on the entries and on what the cache tells of itself. -/
inductive StoreAction where
  | get (key : String)
  | getItem (key : String)
  | delete (key : String)
  | flush
  /-- Sets `count` keys, each the stem and a number from `first` on, to their numbers. -/
  | setMany (stem : String) (first : Int) (count : Nat)
  | getMany (stem : String) (first : Int) (count : Nat)
  | deleteMany (stem : String) (first : Int) (count : Nat)
  | size
  | isEmpty
  | limit
  | workerRunning
  | stats
  | showCache (layout : Layout)
  | showEntry (key : String)
  | showExpiry (key : String)
  /-- Keeps a copy of an entry in a slot. -/
  | hold (key slot : String)
  | held (slot : String)
  | heldExpiredAt (slot : String) (moment : Moment)
deriving Repr

/-- Actions on the clock and the expiry policy. -/
inductive PolicyAction where
  | now
  | expiryTime
  | ttl
  | isExpired (expires : Moment)
  | showPolicy (layout : Layout)
  | advance (d : Span)
  | setClock (moment : Moment)
deriving Repr

/-- Readings of what was noted so far. -/
inductive NoteAction where
  | calls
  | trace (sorted : Bool)
  | logs (sorted : Bool)
deriving Repr

/-- Actions on stop channels, whose handles and signals have names. -/
inductive ChannelAction where
  | create (name : String)
  | stop (handle : String)
  | handleStopped (handle : String)
  | subscribe (handle signal : String)
  | cloneSignal (signal copy : String)
  | signalStopped (signal : String)
  | signalReady (signal : String)
  | dropHandle (handle : String)
  | dropSignal (signal : String)
deriving Repr

/-- Actions on gates and on the background refreshes that wait at them. -/
inductive GateAction where
  /-- Opens a gate for good. -/
  | unlock (gate : String)
  /-- Lets through those who wait at a gate now. -/
  | release (gate : String)
  | spawnRefresh (name : String)
  | isBlocked (name : String)
  | join (name : String)
deriving Repr

/-- Actions on background tasks. -/
inductive TaskAction where
  | start (kind : TaskKind) (name : String) (interval : Span) (signal : String)
  | abort (name : String)
  | hasEnded (name : String)
  | join (name : String)
deriving Repr

mutual

/-- What a session or a callback may do at once. -/
inductive Command where
  | act (action : Action)
  | refresh
  /-- Calls the callback of the entry kept in a slot. -/
  | call (slot : String)
  | batch (commands : List Command)

/-- A single step against the session. -/
inductive Action where
  | set (key : String) (item : Int) (build : List Build)
  | showValue (item : Int) (build : List Build)
  | store (action : StoreAction)
  | policy (action : PolicyAction)
  | note (action : NoteAction)
  | channel (action : ChannelAction)
  | gate (action : GateAction)
  | task (action : TaskAction)

/-- One setting of a value that is being built. -/
inductive Build where
  | expires (moment : Moment)
  | refresh (fetcher : Fetcher)
  /-- The callback of the entry kept in a slot, under a further grant of retries if any. -/
  | share (slot : String) (retries : Option Nat)

/-- A callback to be made: the steps of its source, of which there is at least one, whether the
steps are gone through again and again or the last one repeats, and its retries. -/
inductive Fetcher where
  | mk (name : String) (first : Step) (rest : List Step) (cyclic : Bool) (retries : List Nat)

/-- One step of a script: wait at a gate if there is one, run commands, end. -/
inductive Step where
  | mk (gate : Option String) (commands : List Command) (ending : Ending)

end

namespace Step

/-- The gate a step waits at. -/
def gate : Step → Option String
  | mk g _ _ => g

/-- The commands of a step. -/
def commands : Step → List Command
  | mk _ cs _ => cs

/-- The end of a step. -/
def ending : Step → Ending
  | mk _ _ e => e

end Step

/-- The retries of a callback to be made, the innermost first. -/
def Fetcher.retries : Fetcher → List Nat
  | mk _ _ _ _ retries => retries

/-- What a session does at one time: run a command, or let time pass. -/
inductive Move where
  | run (command : Command)
  /-- Lets time pass evenly, with every tick at its own time. -/
  | sleep (d : Span)
  /-- Lets time pass at one stroke, with ticks late. -/
  | jump (d : Span)

/-! ## The keys that commands set -/

mutual

/-- The keys named by the set actions of a command, in callbacks too. -/
def Command.setKeys : Command → List String
  | .act action => action.setKeys
  | .refresh => []
  | .call _ => []
  | .batch commands => Command.setKeysAll commands

/-- The keys named by the set actions of a list of commands. -/
def Command.setKeysAll : List Command → List String
  | [] => []
  | command :: rest => command.setKeys ++ Command.setKeysAll rest

/-- The keys named by a set action, its own and those in the callbacks it brings. -/
def Action.setKeys : Action → List String
  | .set key _ build => key :: Build.setKeysAll build
  | .showValue _ build => Build.setKeysAll build
  | _ => []

/-- The keys named in the callbacks of a value. -/
def Build.setKeysAll : List Build → List String
  | [] => []
  | setting :: rest => setting.setKeys ++ Build.setKeysAll rest

/-- The keys named in a callback. -/
def Build.setKeys : Build → List String
  | .refresh fetcher => fetcher.setKeys
  | _ => []

/-- The keys named in the script of a callback. -/
def Fetcher.setKeys : Fetcher → List String
  | .mk _ first rest _ _ => first.setKeys ++ Step.setKeysAll rest

/-- The keys named in a script. -/
def Step.setKeysAll : List Step → List String
  | [] => []
  | step :: rest => step.setKeys ++ Step.setKeysAll rest

/-- The keys named in a step. -/
def Step.setKeys : Step → List String
  | .mk _ commands _ => Command.setKeysAll commands

end

/-- The keys named by the set actions of a move. -/
def Move.setKeys : Move → List String
  | .run command => command.setKeys
  | _ => []

end WarmCache
