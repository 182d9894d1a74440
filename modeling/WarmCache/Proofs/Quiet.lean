import WarmCache.Proofs.Lives
import WarmCache.Proofs.Sources

/-!
# Quiet callbacks

A callback is quiet if its steps wait at no gate and its commands neither start, abort nor stop a
task. What it does to the cache is left open, and so is whether it fails or panics. The session
itself may do more than its callbacks: it may start tasks, with intervals of whole milliseconds,
and abort and stop them.

Results:
1. `Command.isQuiet`: quiet commands, of a callback or of the session itself.
2. `minds_answer`: a quiet request minds the tasks. It spares them and runs on no thread, and if
   it is the request of a callback it also leaves them and their stop channels as they are.
3. `quiet_sources_answer`: all callbacks that a quiet request brings are quiet.
-/

namespace WarmCache

/-! ## Quiet commands -/

mutual

/-- A command brings only quiet callbacks and leaves gates alone. If it is a command of a callback
and not of the session's own, it also starts, aborts and stops no task. -/
def Command.isQuiet (own : Bool) : Command → Bool
  | .act action => action.isQuiet own
  | .refresh => true
  | .call _ => true
  | .batch commands => Command.areQuiet own commands

/-- All of these commands are quiet. -/
def Command.areQuiet (own : Bool) : List Command → Bool
  | [] => true
  | command :: rest => command.isQuiet own && Command.areQuiet own rest

/-- An action brings only quiet callbacks and leaves gates alone. If the session makes it on its
own it may also start tasks, with intervals of whole milliseconds, and abort and stop them. A
channel that is made anew closes the one that had its name. -/
def Action.isQuiet (own : Bool) : Action → Bool
  | .set _ _ build => Build.areQuiet build
  | .showValue _ build => Build.areQuiet build
  | .store _ => true
  | .policy _ => true
  | .note _ => true
  | .channel (.create _) => own
  | .channel (.stop _) => own
  | .channel (.dropHandle _) => own
  | .channel _ => true
  | .gate _ => false
  | .task (.start _ _ interval _) => own && interval.toNanos % Span.nanosPerMilli == 0
  | .task (.abort _) => own
  | .task _ => true

/-- The callbacks of a value are quiet. -/
def Build.areQuiet : List Build → Bool
  | [] => true
  | setting :: rest => setting.isQuiet && Build.areQuiet rest

/-- The callback that a setting brings is quiet. -/
def Build.isQuiet : Build → Bool
  | .refresh fetcher => fetcher.isQuiet
  | .expires _ => true
  | .share _ _ => true

/-- All steps of a callback are quiet. -/
def Fetcher.isQuiet : Fetcher → Bool
  | .mk _ first rest _ _ => first.isQuiet && Step.areQuiet rest

/-- All of these steps are quiet. -/
def Step.areQuiet : List Step → Bool
  | [] => true
  | step :: rest => step.isQuiet && Step.areQuiet rest

/-- A step waits at no gate, and its commands are quiet. -/
def Step.isQuiet : Step → Bool
  | .mk gate commands _ => gate.isNone && Command.areQuiet false commands

end

theorem Step.isQuiet_iff {step : Step} : step.isQuiet = true ↔
    step.gate = none ∧ Command.areQuiet false step.commands = true := by
  obtain ⟨gate, commands, ending⟩ := step
  simp only [isQuiet, Bool.and_eq_true, Option.isNone_iff_eq_none]
  rfl

theorem Step.areQuiet_iff {steps : List Step} :
    Step.areQuiet steps = true ↔ ∀ step ∈ steps, step.isQuiet = true := by
  induction steps with
  | nil => simp [areQuiet]
  | cons step rest ih => simp [areQuiet, ih]

theorem Build.isQuiet_of_mem {settings : List Build} (quiet : Build.areQuiet settings = true) :
    ∀ fetcher ∈ Build.fetchers settings, fetcher.isQuiet = true := by
  induction settings with
  | nil => exact nofun
  | cons setting rest ih =>
    simp only [areQuiet, Bool.and_eq_true] at quiet
    cases setting with
    | refresh fetcher => exact List.forall_mem_cons.2 ⟨quiet.1, ih quiet.2⟩
    | expires moment => exact ih quiet.2
    | share slot retries => exact ih quiet.2

/-- All steps of a source are quiet. -/
def Source.isQuiet (s : Source) : Bool := Step.areQuiet (s.first :: s.rest)

theorem Source.isQuiet_ofFetcher (fetcher : Fetcher) :
    (Source.ofFetcher fetcher).isQuiet = fetcher.isQuiet := by
  obtain ⟨name, first, rest, cyclic, retries⟩ := fetcher
  simp only [isQuiet, ofFetcher, Step.areQuiet, Fetcher.isQuiet]

theorem Source.step_mem (s : Source) (n : Nat) : s.step n ∈ s.first :: s.rest := by
  unfold step
  dsimp only
  generalize (if s.cyclic then n % (s.first :: s.rest).length else min n s.rest.length) = index
  cases found : (s.first :: s.rest)[index]? with
  | none => exact List.mem_cons_self
  | some step => exact List.mem_of_getElem? found

theorem Source.isQuiet_step {s : Source} (quiet : s.isQuiet = true) (n : Nat) :
    (s.step n).isQuiet = true :=
  Step.areQuiet_iff.1 quiet _ (s.step_mem n)

/-- A stop was asked for on the channel with this number, or its handle is gone. -/
def Stops.isStopped (s : Stops) (index : Nat) : Bool :=
  (s.channel index).requested || !(s.channel index).handleAlive

/-- Whether a signal reports a stop does not depend on what it has seen. -/
theorem StopSignal.isStopped_channel (signal : StopSignal) (s : Stops) :
    signal.isStopped (s.channel signal.channel) = s.isStopped signal.channel := by
  unfold isStopped changed? Stops.isStopped
  cases (s.channel signal.channel).handleAlive <;> rfl

namespace Stops

theorem isStopped_modify {s : Stops} {change : StopChannel → StopChannel}
    (keeps : ∀ c, (c.requested || !c.handleAlive) = true →
      ((change c).requested || !(change c).handleAlive) = true) (changed : Nat) {index : Nat}
    (h : s.isStopped index = true) : (s.modify changed change).isStopped index = true := by
  simp only [isStopped, channel, modify, List.getElem?_modify] at h ⊢
  cases found : s.channels[index]? with
  | none =>
    rw [found] at h
    exact h
  | some c =>
    rw [found] at h
    by_cases same : changed = index
    · simp only [same, if_true]
      exact keeps c h
    · simp only [same, if_false]
      exact h

theorem isStopped_dropHandle {s : Stops} (name : String) {index : Nat}
    (h : s.isStopped index = true) : (s.dropHandle name).isStopped index = true := by
  unfold dropHandle
  split
  · exact isStopped_modify (fun c _ => Bool.or_true _) _ h
  · exact h

/-- A stop cannot be taken back. -/
theorem isStopped_perform {s : Stops} (action : ChannelAction) {index : Nat}
    (h : s.isStopped index = true) : (s.perform action).1.isStopped index = true := by
  have same : ∀ {t : Stops}, t.channels = s.channels → t.isStopped index = true := by
    intro t eq
    rw [← h, isStopped, isStopped, channel, channel, eq]
  cases action with
  | create name =>
    have dropped := isStopped_dropHandle name h
    simp only [perform, create, isStopped, channel] at dropped ⊢
    rcases Nat.lt_or_ge index (s.dropHandle name).channels.length with inside | outside
    · rw [List.getElem?_append_left inside]
      exact dropped
    · rw [List.getElem?_eq_none outside] at dropped
      cases dropped
  | stop handle =>
    simp only [perform, stop]
    split
    · exact isStopped_modify (fun c _ => rfl) _ h
    · exact h
  | dropHandle handle => exact isStopped_dropHandle handle h
  | subscribe handle signal =>
    simp only [perform, subscribe]
    split <;> exact same rfl
  | cloneSignal signal copy =>
    simp only [perform, cloneSignal]
    split <;> exact same rfl
  | signalReady signal =>
    simp only [perform, signalReady?]
    split <;> exact same rfl
  | handleStopped handle => exact h
  | signalStopped signal => exact h
  | dropSignal signal => exact same rfl

end Stops

/-- A request is an action that is quiet, or no action. -/
def Request.isQuiet (own : Bool) : Request → Bool
  | .act action => action.isQuiet own
  | _ => true

theorem Request.isQuiet_of_mem {own : Bool} {q : Request} (quiet : q.isQuiet own = true) :
    ∀ fetcher ∈ q.fetchers, fetcher.isQuiet = true := by
  cases q with
  | act action =>
    cases action with
    | set key item settings => exact Build.isQuiet_of_mem quiet
    | showValue item settings => exact Build.isQuiet_of_mem quiet
    | _ => exact nofun
  | _ => exact nofun

namespace Session

/-! ## What quiet requests do to the tasks -/

/-- The intervals of all tasks are whole milliseconds. -/
def KeepsMillis (s : Session) : Prop :=
  ∀ m ∈ s.background.members, m.task.interval.toNanos % Span.nanosPerMilli = 0

/-- All callbacks are quiet. -/
def KeepsQuiet (s : Session) : Prop := ∀ source ∈ s.sources, source.isQuiet = true

/-- No time passes, every task is spared, no stop is taken back, and no background refresh begins
or goes on. What is done by a callback and not by the session itself leaves the tasks and the stop
channels alone. -/
structure Minds (own : Bool) (s t : Session) : Prop where
  elapsed : t.elapsed = s.elapsed
  runtime : t.hasRuntime = s.hasRuntime
  threads : t.background.threads = s.background.threads
  spares : s.Spares t
  stopped : ∀ index, s.stops.isStopped index = true → t.stops.isStopped index = true
  millis : s.KeepsMillis → t.KeepsMillis
  alone : own = false →
    t.background.members = s.background.members ∧ t.stops.channels = s.stops.channels

namespace Minds

variable {own : Bool} {s t u : Session}

theorem refl (own : Bool) (s : Session) : Minds own s s :=
  ⟨rfl, rfl, rfl, .of_members rfl, fun _ => id, id, fun _ => ⟨rfl, rfl⟩⟩

theorem trans (h : Minds own s t) (h' : Minds own t u) : Minds own s u where
  elapsed := h'.elapsed.trans h.elapsed
  runtime := h'.runtime.trans h.runtime
  threads := h'.threads.trans h.threads
  spares := h.spares.trans h'.spares
  stopped index := h'.stopped index ∘ h.stopped index
  millis := h'.millis ∘ h.millis
  alone mine := ⟨(h'.alone mine).1.trans (h.alone mine).1, (h'.alone mine).2.trans (h.alone mine).2⟩

theorem own_of (h : Minds false s t) (own : Bool) : Minds own s t :=
  ⟨h.elapsed, h.runtime, h.threads, h.spares, h.stopped, h.millis, fun _ => h.alone rfl⟩

/-- Most requests have nothing to do with tasks and stop channels. -/
theorem of_members (elapsed : t.elapsed = s.elapsed) (runtime : t.hasRuntime = s.hasRuntime)
    (threads : t.background.threads = s.background.threads)
    (members : t.background.members = s.background.members)
    (stops : t.stops = s.stops) : Minds own s t :=
  ⟨elapsed, runtime, threads, .of_members members, fun _ => stops ▸ id,
    fun whole m hm => whole m (members ▸ hm), fun _ => ⟨members, stops ▸ rfl⟩⟩

theorem background (background : Background)
    (members : background.members = s.background.members)
    (threads : background.threads = s.background.threads) : Minds own s { s with background } :=
  .of_members rfl rfl threads members rfl

end Minds

theorem channels_perform {s : Stops} {action : ChannelAction}
    (quiet : (Action.channel action).isQuiet false = true) :
    (s.perform action).1.channels = s.channels := by
  cases action with
  | create name => cases quiet
  | stop handle => cases quiet
  | dropHandle handle => cases quiet
  | subscribe handle signal =>
    simp only [Stops.perform, Stops.subscribe]
    split <;> rfl
  | cloneSignal signal copy =>
    simp only [Stops.perform, Stops.cloneSignal]
    split <;> rfl
  | signalReady signal =>
    simp only [Stops.perform, Stops.signalReady?]
    split <;> rfl
  | handleStopped handle => rfl
  | signalStopped signal => rfl
  | dropSignal signal => rfl

theorem minds_performTask {own : Bool} (s : Session) {action : TaskAction}
    (quiet : (Action.task action).isQuiet own = true) :
    Minds own s (s.performTask action).1 := by
  cases action with
  | start kind name interval signal =>
    simp only [Action.isQuiet, Bool.and_eq_true, beq_iff_eq] at quiet
    obtain ⟨rfl, whole⟩ := quiet
    have spares := s.spares_performTask (.start kind name interval signal)
    simp only [performTask] at spares ⊢
    split at spares
    · exact .refl true s
    · split at spares
      · exact .refl true s
      · next started start =>
        obtain ⟨i, positive, _, _, rfl⟩ := startTask_eq_ok_iff.1 start
        refine ⟨rfl, rfl, rfl, spares, fun _ => id, fun old m hm => ?_,
          fun mine => Bool.noConfusion mine⟩
        rcases List.mem_append.1 hm with hm | hm
        · exact old m hm
        · obtain rfl := List.mem_singleton.1 hm
          unfold Interval.ofSpan? at positive
          split at positive
          · obtain rfl := Option.some.inj positive
            exact whole
          · cases positive
  | abort name =>
    obtain rfl : own = true := quiet
    have spares := s.spares_performTask (.abort name)
    simp only [performTask] at spares ⊢
    split at spares
    · refine ⟨rfl, rfl, rfl, spares, fun _ => id, fun old m hm => ?_,
        fun mine => Bool.noConfusion mine⟩
      obtain ⟨i, found⟩ := List.getElem?_of_mem hm
      simp only [List.getElem?_modify] at found
      obtain ⟨m', there, rfl⟩ := Option.map_eq_some_iff.1 found
      have whole := old m' (List.mem_of_getElem? there)
      split <;> exact whole
    · exact .refl true s
  | hasEnded name => exact .refl own s
  | join name =>
    simp only [performTask]
    split
    · split <;> exact .background _ rfl rfl
    · exact .refl own s

theorem minds_perform {own : Bool} (s : Session) {action : Action}
    (quiet : action.isQuiet own = true) : Minds own s (s.perform action).1 := by
  cases action with
  | set key item settings =>
    obtain ⟨sources, built⟩ := s.build_frame item settings
    have set : (s.perform (.set key item settings)).1 =
      (Session.set (s.build item settings).1 key (s.build item settings).2).1 := rfl
    rw [set, built]
    exact .of_members rfl rfl rfl rfl rfl
  | showValue item settings =>
    obtain ⟨sources, built⟩ := s.build_frame item settings
    have shown : (s.perform (.showValue item settings)).1 = (s.build item settings).1 := rfl
    rw [shown, built]
    exact .of_members rfl rfl rfl rfl rfl
  | store action =>
    obtain ⟨held, eq⟩ := s.performStore_frame action
    rw [perform, eq]
    exact .of_members rfl rfl rfl rfl rfl
  | policy action =>
    rw [perform]
    rcases s.performPolicy_frame action with eq | ⟨_, _, _, eq⟩
    · rw [eq]
      exact .refl own s
    · rw [eq]
      exact .of_members rfl rfl rfl rfl rfl
  | note action => exact .of_members rfl rfl rfl rfl rfl
  | channel action =>
    refine ⟨rfl, rfl, rfl, .of_members rfl, fun _ => Stops.isStopped_perform action, id,
      fun mine => ⟨rfl, ?_⟩⟩
    subst mine
    exact channels_perform quiet
  | gate action => cases quiet
  | task action => exact s.minds_performTask quiet

theorem minds_answer {own : Bool} (s : Session) {q : Request} (quiet : q.isQuiet own = true) :
    Minds own s (s.answer q).1 := by
  have ticked : ∀ {t : Session}, Minds own s t → Minds own s { t with clock := t.clock.tick } :=
    fun h => h.trans (.of_members rfl rfl rfl rfl rfl)
  cases q with
  | act action => exact ticked (s.minds_perform quiet)
  | snapshot => exact ticked (.refl own s)
  | settle key callback result =>
    obtain ⟨journal, settled⟩ := s.settleOutcome_frame key callback result
    have eq : (s.reply (.settle key callback result)).1 =
      (s.settleOutcome key callback result).1 := rfl
    refine ticked (t := (s.reply (.settle key callback result)).1) ?_
    rw [eq, settled]
    exact .of_members rfl rfl rfl rfl rfl
  | attempt source =>
    obtain ⟨sources, journal, begun⟩ := s.beginAttempt_frame source
    have eq : (s.reply (.attempt source)).1 = (s.beginAttempt source).1 := rfl
    refine ticked (t := (s.reply (.attempt source)).1) ?_
    rw [eq, begun]
    exact .of_members rfl rfl rfl rfl rfl
  | record note => exact ticked (.of_members rfl rfl rfl rfl rfl)
  | heldCallback slot => exact ticked (.refl own s)

/-! ## Quiet callbacks stay quiet -/

theorem quiet_sources_answer {own : Bool} {s : Session} (old : s.KeepsQuiet) {q : Request}
    (quiet : q.isQuiet own = true) : (s.answer q).1.KeepsQuiet := by
  refine (s.grows_answer q).forall_sources (fun source member _ => old source member) ?_
  intro fetcher brought
  rw [Source.isQuiet_ofFetcher]
  exact Request.isQuiet_of_mem quiet fetcher brought

end Session

end WarmCache
