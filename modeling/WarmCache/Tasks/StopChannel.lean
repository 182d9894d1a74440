/-!
# Stop channels

A stop channel joins one handle, which asks for a stop, to any number of signals, which wait for
it. The channel holds one truth value and counts how often it was written; each signal remembers
the count that it last saw. Dropping the handle closes the channel, which counts as a stop.

A signal can be asked in two ways: `isStopped` looks at the value and then at whether the
channel is closed, and `wait` is the first look of a waiting task.

* `StopSignal.wait_eq_isStopped` : the two ways agree, whatever the signal has seen.
-/

namespace WarmCache

/-- The shared state of a handle and its signals. -/
structure StopChannel where
  requested : Bool
  version : Nat
  handleAlive : Bool
deriving DecidableEq, Repr, Inhabited

/-- One observer of a channel, and the last write it saw. -/
structure StopSignal where
  channel : Nat
  seen : Nat
deriving DecidableEq, Repr, Inhabited

namespace StopChannel

/-- A channel on which nothing was asked for yet. -/
def idle : StopChannel := ⟨false, 0, true⟩

/-- Asks for a stop; asking again changes nothing that can be observed. -/
def stop (c : StopChannel) : StopChannel := { c with requested := true, version := c.version + 1 }

/-- Drops the handle and so closes the channel. -/
def dropHandle (c : StopChannel) : StopChannel := { c with handleAlive := false }

end StopChannel

namespace StopSignal

/-- A signal made from the handle of channel `index`, which has seen all earlier writes. -/
def subscribe (index : Nat) (c : StopChannel) : StopSignal := ⟨index, c.version⟩

/-- Whether the channel was written since the signal last looked; `none` once it is closed. -/
def changed? (s : StopSignal) (c : StopChannel) : Option Bool :=
  if c.handleAlive then some (c.version != s.seen) else none

/-- A stop was requested or the handle is gone. -/
def isStopped (s : StopSignal) (c : StopChannel) : Bool :=
  c.requested || (s.changed? c).isNone

/-- One look of a task that waits for the stop: the signal has seen the present value, and the
wait is over if that value asks for a stop or no other will ever come. -/
def wait (s : StopSignal) (c : StopChannel) : StopSignal × Bool :=
  ({ s with seen := c.version }, if c.requested then true else !c.handleAlive)

theorem wait_eq_isStopped (s : StopSignal) (c : StopChannel) :
    (s.wait c).2 = s.isStopped c := by
  cases hr : c.requested <;> cases ha : c.handleAlive <;>
    simp [wait, isStopped, changed?, hr, ha]

end StopSignal

end WarmCache
