import WarmCache.Keyed
import WarmCache.Session.Answer
import WarmCache.Session.Command

/-!
# Named stop channels

The stop channels of a session, with names for their handles and signals. A name that is given
anew lets go of what it stood for; for a handle that closes its channel.

* `Stops.handleStopped?`, `Stops.signalStopped?` : whether a handle or a signal tells of a stop.
-/

namespace WarmCache

/-- All stop channels made so far, and what the names stand for. -/
structure Stops where
  channels : List StopChannel
  handles : Keyed Nat
  signals : Keyed StopSignal
deriving Repr

namespace Stops

/-- No channels yet. -/
def empty : Stops := ⟨[], [], []⟩

/-- The channel with a number. -/
def channel (s : Stops) (index : Nat) : StopChannel := s.channels[index]?.getD .idle

/-- Changes the channel with a number. -/
def modify (s : Stops) (index : Nat) (change : StopChannel → StopChannel) : Stops :=
  { s with channels := s.channels.modify index change }

/-- Drops the handle of a name, if it stands for one. -/
def dropHandle (s : Stops) (name : String) : Stops :=
  match s.handles.find? name with
  | some index => { s.modify index .dropHandle with handles := s.handles.remove name }
  | none => s

/-- Makes a channel, whose handle and signal go by one name. -/
def create (s : Stops) (name : String) : Stops :=
  let s := s.dropHandle name
  let index := s.channels.length
  { channels := s.channels ++ [.idle]
    handles := s.handles.put name index
    signals := s.signals.put name (.subscribe index .idle) }

/-- Asks for a stop by a handle. -/
def stop (s : Stops) (name : String) : Stops :=
  match s.handles.find? name with
  | some index => s.modify index .stop
  | none => s

/-- Whether a stop was asked for by a handle. -/
def handleStopped? (s : Stops) (name : String) : Option Bool :=
  (s.handles.find? name).map fun index => (s.channel index).requested

/-- Names another signal of a handle. -/
def subscribe (s : Stops) (handle signal : String) : Stops :=
  match s.handles.find? handle with
  | some index => { s with signals := s.signals.put signal (.subscribe index (s.channel index)) }
  | none => s

/-- Names a copy of a signal. -/
def cloneSignal (s : Stops) (signal copy : String) : Stops :=
  match s.signals.find? signal with
  | some made => { s with signals := s.signals.put copy made }
  | none => s

/-- Whether a signal reports a stop. -/
def signalStopped? (s : Stops) (name : String) : Option Bool :=
  (s.signals.find? name).map fun signal => signal.isStopped (s.channel signal.channel)

/-- Waits with a signal for one look: whether the wait was over at once. -/
def signalReady? (s : Stops) (name : String) : Stops × Option Bool :=
  match s.signals.find? name with
  | some signal =>
    let (signal, ready) := signal.wait (s.channel signal.channel)
    ({ s with signals := s.signals.put name signal }, some ready)
  | none => (s, none)

/-- The answer to a question about a name; of a name that stands for nothing, nothing is true. -/
def answerFlag (truth : Option Bool) : Answer := .flag (truth.getD false)

/-- Carries out an action on the channels. -/
def perform (s : Stops) : ChannelAction → Stops × Answer
  | .create name => (s.create name, .nothing)
  | .stop handle =>
    let s := s.stop handle
    (s, answerFlag (s.handleStopped? handle))
  | .handleStopped handle => (s, answerFlag (s.handleStopped? handle))
  | .subscribe handle signal =>
    (s.subscribe handle signal, answerFlag (s.handleStopped? handle))
  | .cloneSignal signal copy => (s.cloneSignal signal copy, .nothing)
  | .signalStopped signal => (s, answerFlag (s.signalStopped? signal))
  | .signalReady signal =>
    let (s, ready) := s.signalReady? signal
    (s, answerFlag ready)
  | .dropHandle handle => (s.dropHandle handle, .flag (s.handles.contains handle))
  | .dropSignal signal =>
    ({ s with signals := s.signals.remove signal }, .flag (s.signals.contains signal))

end Stops

end WarmCache
