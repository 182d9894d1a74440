import WarmCache.Proofs.Keys
import WarmCache.Proofs.Quiet

/-!
# What signals tell

The handle of a stop channel is asked for a stop any number of times, makes further signals and is
dropped at some time; a signal is copied, asked, waited with and dropped. All this may come in any
order. What a signal tells is held against what was done before. Which channel a name stands for,
and whether a stop was asked for there or the handle was dropped, is read off the list of actions
alone, which holds no values, no count of writes and nothing that a signal has seen.

A wait that was not over at its first look goes on and is looked at again whenever something may
have come. Then it does not look at the value unless that was written since.

Results:
1. `handleIn_eq_some_iff`, `used_cons`: what one action more makes of the past.
2. `tracks_after`: the channels are as their past says.
3. `isStopped_after`, `Waiting.lookAgain`: a channel is over exactly if its past says so, and that
   is what ends a wait, old or new.
4. `signals_tell_stops`: every signal and the handle tell the same, and never take it back.
-/

namespace WarmCache

namespace ChannelAction

/-- The name of the handle by which an action asks for a stop. -/
def asks? : ChannelAction → Option String
  | stop handle => some handle
  | _ => none

/-- The name of the handle that an action drops. A name that is given anew lets go of the handle
that it stood for. -/
def drops? : ChannelAction → Option String
  | dropHandle handle => some handle
  | create name => some name
  | _ => none

/-- No action does both. -/
theorem drops?_eq_none {action : ChannelAction} {name : String} (asks : action.asks? = some name) :
    action.drops? = none := by
  cases action with
  | stop handle => rfl
  | _ => cases asks

end ChannelAction

namespace StopSignal

/-- A further look of a wait that goes on. Only a value that the signal has not seen is looked at;
without one the wait is over if no other will ever come. -/
def lookAgain (s : StopSignal) (c : StopChannel) : StopSignal × Bool :=
  if c.version = s.seen then (s, !c.handleAlive) else s.wait c

end StopSignal

namespace Stops

/-! ## What was done -/

/-- The channels after `past`, which lists what was done to them, newest first. -/
def after : List ChannelAction → Stops
  | [] => .empty
  | action :: past => ((after past).perform action).1

/-- How many channels were made. -/
def madeIn : List ChannelAction → Nat
  | [] => 0
  | .create _ :: past => madeIn past + 1
  | _ :: past => madeIn past

/-- The channel whose handle goes by a name. -/
def handleIn : List ChannelAction → String → Option Nat
  | [], _ => none
  | .create made :: past, name => if made = name then some (madeIn past) else handleIn past name
  | .dropHandle dropped :: past, name => if dropped = name then none else handleIn past name
  | _ :: past, name => handleIn past name

/-- The channel that the signal of a name watches. A signal is made with its channel, by a handle or
from another signal. -/
def signalIn : List ChannelAction → String → Option Nat
  | [], _ => none
  | .create made :: past, name => if made = name then some (madeIn past) else signalIn past name
  | .subscribe handle made :: past, name =>
    if made = name then (handleIn past handle).or (signalIn past name) else signalIn past name
  | .cloneSignal signal copy :: past, name =>
    if copy = name then (signalIn past signal).or (signalIn past name) else signalIn past name
  | .dropSignal dropped :: past, name => if dropped = name then none else signalIn past name
  | _ :: past, name => signalIn past name

/-- At some time an action of the kind that `names?` picks out was done with the handle of a
channel. -/
def Used (names? : ChannelAction → Option String) (channel : Nat) (past : List ChannelAction) :
    Prop :=
  ∃ action earlier handle, (action :: earlier) <:+ past ∧ names? action = some handle ∧
    handleIn earlier handle = some channel

/-- A stop was asked for on a channel at least once, or its handle was dropped. -/
def IsOver (channel : Nat) (past : List ChannelAction) : Prop :=
  Used ChannelAction.asks? channel past ∨ Used ChannelAction.drops? channel past

/-- What is to be told of a channel that a name may stand for. -/
inductive Tells (past : List ChannelAction) : Option Nat → Option Bool → Prop
  /-- The name stands for nothing. -/
  | nothing : Tells past none none
  | isOver {channel : Nat} : IsOver channel past → Tells past (some channel) (some true)
  | goesOn {channel : Nat} : ¬ IsOver channel past → Tells past (some channel) (some false)

/-- A wait with this signal began before now and is not over as far as it knows. -/
inductive Waiting : List ChannelAction → StopSignal → Prop
  | begins {past : List ChannelAction} {signal : StopSignal} :
      (signal.wait ((after past).channel signal.channel)).2 = false →
      Waiting past (signal.wait ((after past).channel signal.channel)).1
  /-- Something is done, and nobody looks. -/
  | sleeps {past : List ChannelAction} {signal : StopSignal} (action : ChannelAction) :
      Waiting past signal → Waiting (action :: past) signal
  | looks {past : List ChannelAction} {signal : StopSignal} : Waiting past signal →
      (signal.lookAgain ((after past).channel signal.channel)).2 = false →
      Waiting past (signal.lookAgain ((after past).channel signal.channel)).1

variable {past later : List ChannelAction} {action : ChannelAction} {name : String}
  {channel : Nat}

/-- A name stands for the handle of the newest channel that was made under it, until that is
dropped. -/
theorem handleIn_eq_some_iff : handleIn (action :: past) name = some channel ↔
    (action = .create name ∧ channel = madeIn past) ∨
      (action.drops? ≠ some name ∧ handleIn past name = some channel) := by
  cases action with
  | create made =>
    by_cases same : made = name
    · simp [handleIn, ChannelAction.drops?, same, eq_comm]
    · simp [handleIn, ChannelAction.drops?, same]
  | dropHandle dropped =>
    by_cases same : dropped = name
    · simp [handleIn, ChannelAction.drops?, same]
    · simp [handleIn, ChannelAction.drops?, same]
  | _ => simp [handleIn, ChannelAction.drops?]

theorem madeIn_le_cons (action : ChannelAction) (past : List ChannelAction) :
    madeIn past ≤ madeIn (action :: past) := by
  cases action with
  | create name => exact Nat.le_succ _
  | _ => exact Nat.le_refl _

theorem handleIn_lt (h : handleIn past name = some channel) : channel < madeIn past := by
  induction past with
  | nil => cases h
  | cons action past ih =>
    rcases handleIn_eq_some_iff.1 h with ⟨rfl, rfl⟩ | ⟨_, old⟩
    · exact Nat.lt_succ_self _
    · exact Nat.lt_of_lt_of_le (ih old) (madeIn_le_cons action past)

/-- A handle goes by one name. -/
theorem handleIn_injective {other : String} (h : handleIn past name = some channel)
    (h' : handleIn past other = some channel) : name = other := by
  induction past with
  | nil => cases h
  | cons action past ih =>
    rcases handleIn_eq_some_iff.1 h with ⟨rfl, rfl⟩ | ⟨_, old⟩
    · rcases handleIn_eq_some_iff.1 h' with ⟨same, _⟩ | ⟨_, old'⟩
      · exact ChannelAction.create.inj same
      · exact absurd (handleIn_lt old') (Nat.lt_irrefl _)
    · rcases handleIn_eq_some_iff.1 h' with ⟨rfl, rfl⟩ | ⟨_, old'⟩
      · exact absurd (handleIn_lt old) (Nat.lt_irrefl _)
      · exact ih old old'

section Used

variable {names? : ChannelAction → Option String}

theorem used_nil : ¬ Used names? channel [] := by
  rintro ⟨action, earlier, handle, suffix, _⟩
  cases List.suffix_nil.1 suffix

/-- What is done now was done, besides all that was done before. -/
theorem used_cons : Used names? channel (action :: past) ↔
    (names? action).bind (handleIn past) = some channel ∨ Used names? channel past := by
  constructor
  · rintro ⟨action', earlier, handle, suffix, named, stands⟩
    rcases List.suffix_cons_iff.1 suffix with same | before
    · cases same
      exact .inl (Option.bind_eq_some_iff.2 ⟨handle, named, stands⟩)
    · exact .inr ⟨action', earlier, handle, before, named, stands⟩
  · rintro (now | ⟨action', earlier, handle, suffix, named, stands⟩)
    · obtain ⟨handle, named, stands⟩ := Option.bind_eq_some_iff.1 now
      exact ⟨action, past, handle, List.suffix_refl _, named, stands⟩
    · exact ⟨action', earlier, handle, suffix.trans (List.suffix_cons _ _), named, stands⟩

theorem Used.mono (h : Used names? channel past) (suffix : past <:+ later) :
    Used names? channel later := by
  obtain ⟨action, earlier, handle, before, named, stands⟩ := h
  exact ⟨action, earlier, handle, before.trans suffix, named, stands⟩

theorem Used.lt (h : Used names? channel past) : channel < madeIn past := by
  induction past with
  | nil => exact absurd h used_nil
  | cons action past ih =>
    refine Nat.lt_of_lt_of_le ?_ (madeIn_le_cons action past)
    rcases used_cons.1 h with now | before
    · obtain ⟨handle, _, stands⟩ := Option.bind_eq_some_iff.1 now
      exact handleIn_lt stands
    · exact ih before

end Used

/-- The handle that a name stands for was not dropped. -/
theorem not_used_of_handleIn (h : handleIn past name = some channel) :
    ¬ Used ChannelAction.drops? channel past := by
  induction past with
  | nil => exact used_nil
  | cons action past ih =>
    intro used
    rcases handleIn_eq_some_iff.1 h with ⟨_, rfl⟩ | ⟨kept, old⟩
    · rcases used_cons.1 used with now | before
      · obtain ⟨handle, _, stands⟩ := Option.bind_eq_some_iff.1 now
        exact Nat.lt_irrefl _ (handleIn_lt stands)
      · exact Nat.lt_irrefl _ before.lt
    · rcases used_cons.1 used with now | before
      · obtain ⟨handle, dropped, stands⟩ := Option.bind_eq_some_iff.1 now
        obtain rfl := handleIn_injective stands old
        exact kept dropped
      · exact ih old before

/-! ## What one action changes -/

section Perform

variable {s : Stops}

theorem channel_modify {index : Nat} (inside : index < s.channels.length)
    (change : StopChannel → StopChannel) (channel : Nat) :
    (s.modify index change).channel channel =
      if index = channel then change (s.channel channel) else s.channel channel := by
  simp only [Stops.channel, modify, List.getElem?_modify]
  by_cases same : index = channel
  · subst same
    simp [List.getElem?_eq_getElem inside]
  · simp [same]

/-- Every handle that a name stands for has a channel. -/
def Anchored (s : Stops) : Prop :=
  ∀ name index, s.handles.find? name = some index → index < s.channels.length

theorem channel_dropHandle (anchored : s.Anchored) (name : String) (channel : Nat) :
    (s.dropHandle name).channel channel =
      if s.handles.find? name = some channel then (s.channel channel).dropHandle
      else s.channel channel := by
  unfold dropHandle
  cases found : s.handles.find? name with
  | none => simp
  | some index =>
    refine (channel_modify (anchored name index found) .dropHandle channel).trans ?_
    simp

theorem channel_stop (anchored : s.Anchored) (name : String) (channel : Nat) :
    (s.stop name).channel channel =
      if s.handles.find? name = some channel then (s.channel channel).stop
      else s.channel channel := by
  unfold stop
  cases found : s.handles.find? name with
  | none => simp
  | some index =>
    refine (channel_modify (anchored name index found) .stop channel).trans ?_
    simp

/-- A channel that is made is as one that there is not. -/
theorem channel_create (name : String) (channel : Nat) :
    (s.create name).channel channel = (s.dropHandle name).channel channel := by
  simp only [create, Stops.channel, List.getElem?_append]
  split
  · rfl
  · next outside =>
    rw [List.getElem?_eq_none (Nat.le_of_not_lt outside)]
    cases channel - (s.dropHandle name).channels.length <;> rfl

/-- An action asks for a stop on a channel, drops its handle, or leaves it alone. -/
theorem channel_perform (anchored : s.Anchored) (action : ChannelAction) (channel : Nat) :
    (s.perform action).1.channel channel =
      if action.asks?.bind s.handles.find? = some channel then (s.channel channel).stop
      else if action.drops?.bind s.handles.find? = some channel then
        (s.channel channel).dropHandle
      else s.channel channel := by
  cases action with
  | create name => exact (channel_create name channel).trans (channel_dropHandle anchored name _)
  | stop handle => exact channel_stop anchored handle channel
  | dropHandle handle => exact channel_dropHandle anchored handle channel
  | _ => rw [Stops.channel, Session.channels_perform] <;> rfl

theorem length_dropHandle (s : Stops) (name : String) :
    (s.dropHandle name).channels.length = s.channels.length := by
  unfold dropHandle
  split
  · exact List.length_modify _ _ _
  · rfl

theorem handles_dropHandle (s : Stops) (name : String) :
    (s.dropHandle name).handles = s.handles.remove name := by
  unfold dropHandle
  split
  · rfl
  · next absent =>
    rw [Keyed.remove_of_not_contains]
    rw [Keyed.contains, absent, Option.isSome_none]

theorem length_perform (s : Stops) (action : ChannelAction) :
    (s.perform action).1.channels.length =
      match action with
      | .create _ => s.channels.length + 1
      | _ => s.channels.length := by
  cases action with
  | create name =>
    show ((s.dropHandle name).channels ++ [_]).length = _
    rw [List.length_append, length_dropHandle]
    rfl
  | stop handle =>
    simp only [perform, stop]
    split
    · exact List.length_modify _ _ _
    · rfl
  | dropHandle handle => exact s.length_dropHandle handle
  | _ => rw [Session.channels_perform]; rfl

theorem handles_perform (s : Stops) (action : ChannelAction) :
    (s.perform action).1.handles =
      match action with
      | .create name => (s.handles.remove name).put name s.channels.length
      | .dropHandle name => s.handles.remove name
      | _ => s.handles := by
  cases action with
  | create name =>
    show (s.dropHandle name).handles.put name (s.dropHandle name).channels.length = _
    rw [handles_dropHandle, length_dropHandle]
  | stop handle =>
    simp only [perform, stop]
    split <;> rfl
  | dropHandle handle => exact s.handles_dropHandle handle
  | subscribe handle name =>
    simp only [perform, subscribe]
    split <;> rfl
  | cloneSignal signal copy =>
    simp only [perform, cloneSignal]
    split <;> rfl
  | signalReady name =>
    simp only [perform, signalReady?]
    split <;> rfl
  | _ => rfl

/-- The signals that an action leaves, of which at most one is new. -/
theorem signals_perform (s : Stops) (action : ChannelAction) :
    (s.perform action).1.signals =
      match action with
      | .create name => s.signals.put name (.subscribe s.channels.length .idle)
      | .subscribe handle name =>
        (s.handles.find? handle).elim s.signals fun index =>
          s.signals.put name (.subscribe index (s.channel index))
      | .cloneSignal signal copy => (s.signals.find? signal).elim s.signals (s.signals.put copy)
      | .signalReady name =>
        (s.signals.find? name).elim s.signals fun signal =>
          s.signals.put name (signal.wait (s.channel signal.channel)).1
      | .dropSignal name => s.signals.remove name
      | _ => s.signals := by
  cases action with
  | create name =>
    show (s.dropHandle name).signals.put name (.subscribe (s.dropHandle name).channels.length _) = _
    rw [length_dropHandle]
    unfold dropHandle
    split <;> rfl
  | stop handle =>
    simp only [perform, stop]
    split <;> rfl
  | dropHandle handle =>
    simp only [perform, dropHandle]
    split <;> rfl
  | subscribe handle name =>
    simp only [perform, subscribe]
    cases s.handles.find? handle <;> rfl
  | cloneSignal signal copy =>
    simp only [perform, cloneSignal]
    cases s.signals.find? signal <;> rfl
  | signalReady name =>
    simp only [perform, signalReady?]
    cases s.signals.find? name <;> rfl
  | _ => rfl

end Perform

/-! ## The channels are as their past says -/

/-- What the channels hold is what their past says of them. -/
structure Tracks (past : List ChannelAction) (s : Stops) : Prop where
  made : s.channels.length = madeIn past
  handles : s.handles.find? = handleIn past
  signals : ∀ name, (s.signals.find? name).map StopSignal.channel = signalIn past name
  handleKeys : s.handles.keys.Nodup
  signalKeys : s.signals.keys.Nodup
  asked : ∀ channel,
    (s.channel channel).requested = true ↔ Used ChannelAction.asks? channel past
  dropped : ∀ channel,
    (s.channel channel).handleAlive = false ↔ Used ChannelAction.drops? channel past
  /-- Nothing is written to a channel but that a stop is asked for. -/
  written : ∀ channel,
    (s.channel channel).version = 0 ↔ (s.channel channel).requested = false

namespace Tracks

variable {s : Stops}

theorem empty : Tracks [] .empty where
  made := rfl
  handles := rfl
  signals _ := rfl
  handleKeys := List.nodup_nil
  signalKeys := List.nodup_nil
  asked _ := ⟨nofun, fun used => absurd used used_nil⟩
  dropped _ := ⟨nofun, fun used => absurd used used_nil⟩
  written _ := ⟨fun _ => rfl, fun _ => rfl⟩

theorem anchored (h : Tracks past s) : s.Anchored := by
  intro name index found
  rw [h.handles] at found
  rw [h.made]
  exact handleIn_lt found

theorem made_perform (h : Tracks past s) (action : ChannelAction) :
    (s.perform action).1.channels.length = madeIn (action :: past) := by
  rw [length_perform]
  cases action with
  | create name => exact congrArg (· + 1) h.made
  | _ => exact h.made

theorem handles_perform (h : Tracks past s) (action : ChannelAction) (name : String) :
    (s.perform action).1.handles.find? name = handleIn (action :: past) name := by
  have old : s.handles.find? name = handleIn past name := congrFun h.handles name
  rw [Stops.handles_perform]
  cases action with
  | create made =>
    simp only [handleIn]
    split
    · next same =>
      rw [same, Keyed.find?_put_self, h.made]
    · next other =>
      rw [Keyed.find?_put_other _ _ (Ne.symm other), Keyed.find?_remove_other _ (Ne.symm other),
        old]
  | dropHandle dropped =>
    simp only [handleIn]
    split
    · next same =>
      rw [same]
      exact Keyed.find?_remove_self _ _ h.handleKeys
    · next other => rw [Keyed.find?_remove_other _ (Ne.symm other), old]
  | _ => exact old

theorem handleKeys_perform (h : Tracks past s) (action : ChannelAction) :
    (s.perform action).1.handles.keys.Nodup := by
  rw [Stops.handles_perform]
  cases action with
  | create name => exact Keyed.nodup_keys_put _ _ (Keyed.nodup_keys_remove _ h.handleKeys)
  | dropHandle name => exact Keyed.nodup_keys_remove _ h.handleKeys
  | _ => exact h.handleKeys

theorem signalKeys_perform (h : Tracks past s) (action : ChannelAction) :
    (s.perform action).1.signals.keys.Nodup := by
  rw [signals_perform]
  cases action with
  | create name => exact Keyed.nodup_keys_put _ _ h.signalKeys
  | subscribe handle name =>
    dsimp only
    cases s.handles.find? handle with
    | none => exact h.signalKeys
    | some index => exact Keyed.nodup_keys_put _ _ h.signalKeys
  | cloneSignal signal copy =>
    dsimp only
    cases s.signals.find? signal with
    | none => exact h.signalKeys
    | some made => exact Keyed.nodup_keys_put _ _ h.signalKeys
  | signalReady name =>
    dsimp only
    cases s.signals.find? name with
    | none => exact h.signalKeys
    | some signal => exact Keyed.nodup_keys_put _ _ h.signalKeys
  | dropSignal name => exact Keyed.nodup_keys_remove _ h.signalKeys
  | _ => exact h.signalKeys

theorem signals_perform (h : Tracks past s) (action : ChannelAction) (name : String) :
    ((s.perform action).1.signals.find? name).map StopSignal.channel =
      signalIn (action :: past) name := by
  have old := h.signals name
  have put : ∀ (made : String) (signal : StopSignal),
      ((s.signals.put made signal).find? name).map StopSignal.channel =
        if made = name then some signal.channel else signalIn past name := by
    intro made signal
    split
    · next same =>
      rw [same, Keyed.find?_put_self, Option.map_some]
    · next other => rw [Keyed.find?_put_other _ _ (Ne.symm other), old]
  rw [Stops.signals_perform]
  cases action with
  | create made =>
    rw [put, StopSignal.subscribe, h.made]
    rfl
  | subscribe handle made =>
    simp only [signalIn, ← h.handles]
    cases s.handles.find? handle with
    | none => simpa using old
    | some index => exact put _ _
  | cloneSignal signal copy =>
    simp only [signalIn, ← h.signals signal]
    cases s.signals.find? signal with
    | none => simpa using old
    | some made => exact put _ _
  | signalReady waited =>
    simp only [signalIn]
    cases found : s.signals.find? waited with
    | none => exact old
    | some signal =>
      refine (put _ _).trans ?_
      split
      · next same =>
        rw [← old, ← same, found]
        rfl
      · rfl
  | dropSignal dropped =>
    simp only [signalIn]
    split
    · next same => rw [same, Keyed.find?_remove_self _ _ h.signalKeys, Option.map_none]
    · next other => rw [Keyed.find?_remove_other _ (Ne.symm other), old]
  | _ => exact old

/-- One action more. -/
theorem perform (h : Tracks past s) (action : ChannelAction) :
    Tracks (action :: past) (s.perform action).1 where
  made := h.made_perform action
  handles := funext (h.handles_perform action)
  signals := h.signals_perform action
  handleKeys := h.handleKeys_perform action
  signalKeys := h.signalKeys_perform action
  asked channel := by
    rw [channel_perform h.anchored, used_cons, ← h.handles, ← h.asked]
    split
    · next now => simp [now, StopChannel.stop]
    · next other =>
      rw [or_iff_right other]
      split <;> rfl
  dropped channel := by
    rw [channel_perform h.anchored, used_cons, ← h.handles, ← h.dropped]
    split
    · next now =>
      obtain ⟨name, asks, _⟩ := Option.bind_eq_some_iff.1 now
      simp [ChannelAction.drops?_eq_none asks, StopChannel.stop]
    · split
      · next now => simp [now, StopChannel.dropHandle]
      · next other => rw [or_iff_right other]
  written channel := by
    rw [channel_perform h.anchored]
    split
    · simp [StopChannel.stop]
    · split
      · exact h.written channel
      · exact h.written channel

end Tracks

theorem tracks_after (past : List ChannelAction) : Tracks past (after past) := by
  induction past with
  | nil => exact .empty
  | cons action past ih => exact ih.perform action

/-! ## What is told -/

theorem IsOver.mono (h : IsOver channel past) (suffix : past <:+ later) : IsOver channel later :=
  h.imp (Used.mono · suffix) (Used.mono · suffix)

/-- A channel is over exactly if its past says so. -/
theorem isStopped_after : (after past).isStopped channel = true ↔ IsOver channel past := by
  have h := tracks_after past
  rw [Stops.isStopped, Bool.or_eq_true, Bool.not_eq_true', h.asked, h.dropped, IsOver]

theorem tells_isStopped (past : List ChannelAction) (watched : Option Nat) :
    Tells past watched (watched.map (after past).isStopped) := by
  cases watched with
  | none => exact .nothing
  | some channel =>
    rw [Option.map_some]
    cases stopped : (after past).isStopped channel with
    | true => exact .isOver (isStopped_after.1 stopped)
    | false =>
      refine .goesOn fun isOver => ?_
      cases stopped.symm.trans (isStopped_after.2 isOver)

/-- A signal that is asked. -/
theorem signalStopped?_after (past : List ChannelAction) (name : String) :
    (after past).signalStopped? name = (signalIn past name).map (after past).isStopped := by
  rw [signalStopped?, ← (tracks_after past).signals, Option.map_map]
  refine congrArg (Option.map · _) (funext fun signal => ?_)
  exact signal.isStopped_channel (after past)

/-- A signal with which a wait begins. -/
theorem signalReady?_after (past : List ChannelAction) (name : String) :
    ((after past).signalReady? name).2 = (signalIn past name).map (after past).isStopped := by
  rw [signalReady?, ← (tracks_after past).signals]
  cases (after past).signals.find? name with
  | none => rfl
  | some signal =>
    refine congrArg some ?_
    rw [StopSignal.wait_eq_isStopped, StopSignal.isStopped_channel]

/-- The handle, while it lives. -/
theorem handleStopped?_after (past : List ChannelAction) (name : String) :
    (after past).handleStopped? name = (handleIn past name).map (after past).isStopped := by
  have h := tracks_after past
  rw [handleStopped?, h.handles]
  cases stands : handleIn past name with
  | none => rfl
  | some channel =>
    have alive : ((after past).channel channel).handleAlive = true := by
      rw [← Bool.not_eq_false, h.dropped]
      exact not_used_of_handleIn stands
    rw [Option.map_some, Option.map_some, Stops.isStopped, alive, Bool.not_true, Bool.or_false]

/-- A wait that goes on has seen no write. -/
theorem Waiting.seen {signal : StopSignal} (h : Waiting past signal) : signal.seen = 0 := by
  have looked : ∀ {past : List ChannelAction} {signal : StopSignal},
      (signal.wait ((after past).channel signal.channel)).2 = false →
      (signal.wait ((after past).channel signal.channel)).1.seen = 0 := by
    intro past signal waits
    rw [StopSignal.wait_eq_isStopped, StopSignal.isStopped, Bool.or_eq_false_iff] at waits
    exact ((tracks_after past).written signal.channel).2 waits.1
  induction h with
  | begins waits => exact looked waits
  | sleeps action _ ih => exact ih
  | looks _ waits ih =>
    unfold StopSignal.lookAgain at waits ⊢
    split at waits
    · next same => rw [if_pos same, ih]
    · next other =>
      rw [if_neg other]
      exact looked waits

/-- A wait that goes on is over at its next look exactly if its channel is. -/
theorem Waiting.lookAgain {signal : StopSignal} (h : Waiting past signal) :
    (signal.lookAgain ((after past).channel signal.channel)).2 =
      (after past).isStopped signal.channel := by
  have written := (tracks_after past).written signal.channel
  unfold StopSignal.lookAgain
  split
  · next same =>
    rw [h.seen, written] at same
    rw [Stops.isStopped, same, Bool.false_or]
  · rw [StopSignal.wait_eq_isStopped, StopSignal.isStopped_channel]

/-- After whatever was done to stop channels, in any order, every signal and every handle tells the
same, namely whether a stop was asked for at least once or the handle was dropped: the signal and
the handle of a name, any signal however it was made and whatever it has seen, when it is asked as
well as when a wait begins with it, and any wait that went on since an earlier time. What was told
once is not taken back. -/
theorem signals_tell_stops (past : List ChannelAction) :
    (∀ name, Tells past (signalIn past name) ((after past).signalStopped? name) ∧
      Tells past (signalIn past name) ((after past).signalReady? name).2 ∧
      Tells past (handleIn past name) ((after past).handleStopped? name)) ∧
    (∀ signal : StopSignal,
      (signal.isStopped ((after past).channel signal.channel) = true ↔
        IsOver signal.channel past) ∧
      ((signal.wait ((after past).channel signal.channel)).2 = true ↔
        IsOver signal.channel past)) ∧
    (∀ signal : StopSignal, Waiting past signal →
      ((signal.lookAgain ((after past).channel signal.channel)).2 = true ↔
        IsOver signal.channel past)) ∧
    ∀ (later : List ChannelAction) (signal signal' : StopSignal), past <:+ later →
      signal'.channel = signal.channel →
      signal.isStopped ((after past).channel signal.channel) = true →
      signal'.isStopped ((after later).channel signal'.channel) = true := by
  have asked : ∀ (past : List ChannelAction) (signal : StopSignal),
      signal.isStopped ((after past).channel signal.channel) = true ↔
        IsOver signal.channel past := fun past signal => by
    rw [StopSignal.isStopped_channel, isStopped_after]
  refine ⟨fun name => ⟨?_, ?_, ?_⟩, fun signal => ⟨asked past signal, ?_⟩,
    fun signal waits => ?_, fun later signal signal' suffix same isOver => ?_⟩
  · rw [signalStopped?_after]
    exact tells_isStopped past _
  · rw [signalReady?_after]
    exact tells_isStopped past _
  · rw [handleStopped?_after]
    exact tells_isStopped past _
  · rw [StopSignal.wait_eq_isStopped, asked]
  · rw [waits.lookAgain, isStopped_after]
  · rw [asked, same]
    exact ((asked past signal).1 isOver).mono suffix

/-- A stop is asked for while the only signal left is a copy of one that was waited with in vain.
The copy, a signal made afterwards, the handle and a wait that began before all tell of it. A second
channel loses its handle to a third without a stop, and the signals of these two differ. -/
theorem signals_tell_stops_late :
    let before : List ChannelAction :=
      [.cloneSignal "other" "kept", .create "other", .dropSignal "stop",
        .cloneSignal "stop" "copy", .signalReady "stop", .create "stop"]
    let past := .create "other" :: .subscribe "stop" "late" :: .stop "stop" :: before
    let waiting := (StopSignal.wait ⟨0, 0⟩ ((after before).channel 0)).1
    (after before).signalStopped? "copy" = some false ∧
      (after past).signalStopped? "copy" = some true ∧
      ((after past).signalReady? "late").2 = some true ∧
      (after past).handleStopped? "stop" = some true ∧
      (after past).signalStopped? "kept" = some true ∧
      (after past).signalStopped? "other" = some false ∧ ¬ IsOver 2 past ∧
      Waiting past waiting ∧ (waiting.lookAgain ((after past).channel 0)).2 = true := by
  intro before past waiting
  have asked : IsOver 0 past :=
    .inl ⟨.stop "stop", before, "stop", List.suffix_iff_eq_drop.2 rfl, rfl, by decide⟩
  have dropped : IsOver 1 past :=
    .inr ⟨.create "other", _, "other", List.suffix_refl _, rfl, by decide⟩
  have told : ∀ {channel watched answer}, Tells past watched answer → watched = some channel →
      IsOver channel past → answer = some true := by
    intro channel watched answer tells stands isOver
    cases tells with
    | nothing => cases stands
    | isOver => rfl
    | goesOn going =>
      cases stands
      exact absurd isOver going
  obtain ⟨named, _, waits, _⟩ := signals_tell_stops past
  have waited : Waiting past waiting :=
    .sleeps _ (.sleeps _ (.sleeps _ (@Waiting.begins before ⟨0, 0⟩ (by decide))))
  have other : (after past).signalStopped? "other" = some false := by decide
  have going : ¬ IsOver 2 past := by
    have tells := (named "other").1
    rw [other, show signalIn past "other" = some 2 by decide] at tells
    cases tells with
    | goesOn going => exact going
  exact ⟨by decide, told (named "copy").1 (by decide) asked,
    told (named "late").2.1 (by decide) asked, told (named "stop").2.2 (by decide) asked,
    told (named "kept").1 (by decide) dropped, other, going, waited, (waits _ waited).2 asked⟩

end Stops

end WarmCache
