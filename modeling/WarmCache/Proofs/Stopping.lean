import WarmCache.Proofs.Cycles
import WarmCache.Proofs.Endings
import WarmCache.Proofs.Duties

/-!
# What a stop brings about

A task is stopped when a stop was asked for on its channel or the handle of the channel is gone.
From then on it takes no tick, so it neither begins a cycle nor flushes. A cycle that is under way
is not cut short. Without one the task ends when it is next looked at, and with the last that
there was of a refresh worker the claim on the cache goes, so that another may start.

Results:
1. `IsStopped.winds`: what holds of a stopped task in every session to come.
2. `gone_of_looks`: two looks are enough to end a stopped task that has no cycle.
3. `released_of_step`: the claim goes with the last of a refresh worker.
4. `stop_winds_up_task`: the whole course of a stop.
-/

namespace WarmCache

namespace Session

/-- The stop channel of task `index`, if there is such a task. -/
def channelOf? (s : Session) (index : Nat) : Option Nat :=
  s.background.members[index]?.map fun m => m.task.signal.channel

/-- Task `index` is stopped: a stop was asked for on its channel or the handle is gone. -/
def IsStopped (s : Session) (index : Nat) : Prop :=
  ∃ channel, s.channelOf? index = some channel ∧ s.stops.isStopped channel = true

variable {ttl : Span} {limit : Option Nat} {time : TimeSource} {hasRuntime : Bool}
  {s t : Session} {index : Nat} {m : Member}

theorem channelOf?_of_found (found : s.background.members[index]? = some m) :
    s.channelOf? index = some m.task.signal.channel := by
  rw [channelOf?, found, Option.map_some]

/-! ## A stop stays -/

theorem channelOf?_putMember (found : s.background.members[index]? = some m) (m' : Member)
    (same : m'.task.signal.channel = m.task.signal.channel) (other : Nat) :
    (s.putMember index m').channelOf? other = s.channelOf? other := by
  by_cases eq : index = other
  · subst eq
    rw [channelOf?_of_found (getElem?_putMember_self found m'), channelOf?_of_found found, same]
  · rw [channelOf?, getElem?_putMember_ne eq, channelOf?]

theorem channelOf?_look (other : Nat) :
    (s.doPiece (.look index)).channelOf? other = s.channelOf? other := by
  cases found : s.background.members[index]? with
  | none => simp only [doPiece, found]
  | some m =>
    have same := m.task.look_channel s.elapsed (s.stops.channel m.task.signal.channel)
    change (s.look m).1.signal.channel = _ at same
    have put : ∀ (t : Session) (m' : Member), t.background = s.background →
        m'.task = (s.look m).1 → (t.putMember index m').channelOf? other = s.channelOf? other := by
      intro t m' eq task
      rw [channelOf?_putMember (eq ▸ found) m' (task ▸ same), channelOf?, eq, channelOf?]
    rw [doPiece_look_eq found]
    cases (s.look m).2 with
    | idle => rfl
    | begun => exact put _ _ rfl rfl
    | overflowed => exact put _ _ rfl rfl
    | stopped => exact put _ _ rfl rfl
    | cancelled => exact put _ _ rfl rfl
    | ticked =>
      simp only [applyLook, tickWork]
      split
      · exact put _ _ rfl rfl
      · exact put _ _ rfl rfl

theorem channelOf?_endCycle (result : Except String Summary) (other : Nat) :
    (s.endCycle index result).channelOf? other = s.channelOf? other := by
  unfold endCycle
  split
  · rfl
  · next m found =>
    split
    · exact channelOf?_putMember found { m with cycle := none } rfl other
    · have reported : (s.reportCycle result).background = s.background := by
        cases result <;> rfl
      have same : m.task.cycleEnded.signal.channel = m.task.signal.channel := by
        unfold Task.cycleEnded
        split <;> rfl
      rw [channelOf?_putMember (reported ▸ found) _ same, channelOf?, reported, channelOf?]

theorem channelOf?_answer {channel : Nat} (q : Request)
    (from' : s.channelOf? index = some channel) :
    (s.answer q).1.channelOf? index = some channel := by
  obtain ⟨m, found, rfl⟩ := Option.map_eq_some_iff.1 from'
  obtain ⟨m', there, kept⟩ := (s.spares_answer q).kept found
  obtain ⟨_, same, _⟩ := kept.task
  rw [channelOf?_of_found there, same]

/-- A task keeps its channel. -/
theorem Step.channelOf? {channel : Nat} (step : Step s t)
    (from' : s.channelOf? index = some channel) : t.channelOf? index = some channel := by
  cases step with
  | request q => exact channelOf?_answer q from'
  | look other => rw [channelOf?_look, from']
  | @cycleMoves other m progress found _ =>
    exact (channelOf?_putMember found { m with cycle := some progress } rfl _).trans from'
  | cycleEnds result _ => rw [channelOf?_endCycle, from']
  | threads => exact from'
  | runtime => exact from'
  | time => exact from'

theorem isStopped_answer {channel : Nat} (q : Request) (stop : s.stops.isStopped channel = true) :
    (s.answer q).1.stops.isStopped channel = true := by
  have same : ∀ {t : Session}, t.stops = s.stops → t.stops.isStopped channel = true :=
    fun eq => eq ▸ stop
  cases q with
  | act action =>
    show (s.perform action).1.stops.isStopped channel = true
    cases action with
    | set key item settings =>
      obtain ⟨sources, built⟩ := s.build_frame item settings
      refine same ?_
      show (s.build item settings).1.stops = _
      rw [built]
    | showValue item settings =>
      obtain ⟨sources, built⟩ := s.build_frame item settings
      refine same ?_
      show (s.build item settings).1.stops = _
      rw [built]
    | store action =>
      obtain ⟨held, eq⟩ := s.performStore_frame action
      rw [perform, eq]
      exact stop
    | policy action =>
      rw [perform]
      rcases s.performPolicy_frame action with eq | ⟨_, _, _, eq⟩
      · rw [eq]
        exact stop
      · rw [eq]
        exact stop
    | note action => exact stop
    | channel action => exact Stops.isStopped_perform action stop
    | gate action =>
      obtain ⟨_, eq, _⟩ := s.performGate_frame action
      rw [perform, eq]
      exact stop
    | task action =>
      rw [perform]
      rcases s.performTask_cases action with ⟨_, eq, _⟩ | ⟨_, _, _, _, _, start, eq, _⟩
      · rw [eq]
        exact stop
      · obtain ⟨_, _, _, _, rfl⟩ := startTask_eq_ok_iff.1 start
        rw [eq]
        exact stop
  | settle key callback result =>
    obtain ⟨journal, eq⟩ := s.settleOutcome_frame key callback result
    show (s.settleOutcome key callback result).1.stops.isStopped channel = true
    rw [eq]
    exact stop
  | attempt source =>
    obtain ⟨sources, journal, eq⟩ := s.beginAttempt_frame source
    show (s.beginAttempt source).1.stops.isStopped channel = true
    rw [eq]
    exact stop
  | snapshot => exact stop
  | record note => exact stop
  | heldCallback slot => exact stop

/-- No step takes a stop back. -/
theorem Step.isStopped {channel : Nat} (step : Step s t)
    (stop : s.stops.isStopped channel = true) : t.stops.isStopped channel = true := by
  cases step with
  | request q => exact isStopped_answer q stop
  | look other =>
    have looked := s.doPiece_look other
    generalize s.doPiece (.look other) = after at looked
    cases looked with
    | idle => exact stop
    | passed => exact stop
  | cycleMoves => exact stop
  | @cycleEnds other result _ =>
    rcases s.endCycle_cases other result with eq | ⟨_, _, _, _, _, _, eq⟩
    · rw [eq]
      exact stop
    · rw [eq]
      exact stop
  | threads => exact stop
  | runtime => exact stop
  | time => exact stop

theorem IsStopped.reaches (stop : s.IsStopped index) (reaches : Reaches s t) :
    t.IsStopped index := by
  induction reaches with
  | refl => exact stop
  | tail _ step ih =>
    obtain ⟨channel, from', stop⟩ := ih
    exact ⟨channel, step.channelOf? from', step.isStopped stop⟩

/-! ## Nothing begins any more -/

theorem IsStopped.not_ticked (stop : s.IsStopped index)
    (found : s.background.members[index]? = some m) : (s.look m).2 ≠ .ticked := by
  intro ticked
  obtain ⟨channel, from', stop⟩ := stop
  obtain rfl := Option.some.inj ((channelOf?_of_found found).symm.trans from')
  have goes := Task.look_ticked _ _ _ ticked
  rw [StopSignal.isStopped_channel, stop] at goes
  cases goes

/-- A stopped task begins no cycle. -/
theorem IsStopped.step (stop : s.IsStopped index) (step : Step s t)
    (idle : s.cycle? index = none) : t.cycle? index = none := by
  cases step with
  | request q =>
    cases beside_answer s q index with
    | same cycle _ => exact cycle.trans idle
    | passes gate cycle _ => rw [cycle, idle, Option.map_none]
  | look other =>
    by_cases same : other = index
    · subst same
      obtain ⟨channel, from', _⟩ := id stop
      obtain ⟨m, found, _⟩ := Option.map_eq_some_iff.1 from'
      rw [cycle?_look found, if_neg (stop.not_ticked found), ← cycle?_of_found found, idle]
    · rw [cycle?_look_ne same, idle]
  | @cycleMoves other m progress found inCycle =>
    by_cases same : other = index
    · subst same
      rw [← cycle?_of_found found, idle] at inCycle
      cases inCycle
    · rw [cycle?_putMember_ne same, idle]
  | @cycleEnds other result has =>
    by_cases same : other = index
    · subst same
      obtain ⟨m, found, _⟩ := has
      exact cycle?_endCycle_self found result
    · rw [cycle?_endCycle_ne same, idle]
  | threads => exact idle
  | runtime => exact idle
  | time => exact idle

theorem IsStopped.idle_reaches (stop : s.IsStopped index) (reaches : Reaches s t)
    (idle : s.cycle? index = none) : t.cycle? index = none := by
  induction reaches with
  | refl => exact idle
  | tail before step ih => exact (stop.reaches before).step step ih

/-- What holds of task `index` in a session `t` to come, when it is stopped in session `s`. -/
structure Winds (index : Nat) (s t : Session) : Prop where
  /-- It stays stopped. -/
  stopped : t.IsStopped index
  /-- It takes no tick, be one due or overdue. -/
  ticks : ∀ m, t.background.members[index]? = some m → (t.look m).2 ≠ .ticked
  /-- It begins no cycle. -/
  cycles : s.cycle? index = none → t.cycle? index = none
  /-- When it is looked at, it does nothing to the entries and counters of the cache. -/
  cache : ∃ taken, (t.doPiece (.look index)).cache = t.cache.claim taken
  /-- It calls no callback then either. -/
  sources : (t.doPiece (.look index)).sources = t.sources
  calls : (t.doPiece (.look index)).journal.calls = t.journal.calls

theorem IsStopped.winds (stop : s.IsStopped index) (reaches : Reaches s t) : Winds index s t := by
  have later := stop.reaches reaches
  obtain ⟨channel, from', _⟩ := id later
  obtain ⟨m, found, _⟩ := Option.map_eq_some_iff.1 from'
  have look : (∃ taken, (t.doPiece (.look index)).cache = t.cache.claim taken) ∧
      (t.doPiece (.look index)).sources = t.sources ∧
      (t.doPiece (.look index)).journal.calls = t.journal.calls := by
    have goes := later.not_ticked found
    rw [doPiece_look_eq found]
    generalize (t.look m).2 = step at goes ⊢
    cases step with
    | idle => exact ⟨⟨t.cache.workerRunning, rfl⟩, rfl, rfl⟩
    | ticked => exact absurd rfl goes
    | begun => exact ⟨⟨_, rfl⟩, rfl, rfl⟩
    | overflowed => exact ⟨⟨_, rfl⟩, rfl, rfl⟩
    | stopped => exact ⟨⟨_, rfl⟩, rfl, rfl⟩
    | cancelled => exact ⟨⟨_, rfl⟩, rfl, rfl⟩
  exact ⟨later, fun _ => later.not_ticked, stop.idle_reaches reaches, look.1, look.2.1, look.2.2⟩

/-! ## Stopped tasks end -/

theorem getElem?_doPiece_look {task : Task} {step : TaskStep}
    (found : s.background.members[index]? = some m) (looks : s.look m = (task, step))
    (goes : step ≠ .idle) (untimed : step ≠ .ticked) :
    (s.doPiece (.look index)).background.members[index]? = some { m with task } := by
  have put : ∀ (t : Session) (m' : Member), t.background.members = s.background.members →
      (t.putMember index m').background.members[index]? = some m' := by
    intro t m' same
    exact getElem?_putMember_self (same ▸ found) m'
  rw [doPiece_look_eq found, looks]
  cases step with
  | idle => exact absurd rfl goes
  | ticked => exact absurd rfl untimed
  | begun => exact put _ _ rfl
  | overflowed => exact put _ _ rfl
  | stopped => exact put _ _ rfl
  | cancelled => exact put _ _ rfl

theorem doPiece_look_of_ended (found : s.background.members[index]? = some m)
    (ended : m.task.hasEnded = true) : s.doPiece (.look index) = s := by
  obtain ⟨how, phase⟩ := m.task.hasEnded_iff.1 ended
  rw [doPiece_look_eq found, look, Task.look_of_ended _ _ _ how phase]
  rfl

/-- Task `index` is gone, and so is its cycle. -/
def IsGone (s : Session) (index : Nat) : Prop :=
  ∃ m, s.background.members[index]? = some m ∧ m.task.hasEnded = true ∧ m.cycle = none

/-- A stopped task that waits ends when it is looked at, and so does one that is to be aborted. -/
theorem IsStopped.gone_of_look (stop : s.IsStopped index)
    (found : s.background.members[index]? = some m) (idle : m.cycle = none)
    (ends : m.task.abortRequested = true ∨ ∃ ticker, m.task.phase = .waiting ticker) :
    (s.doPiece (.look index)).IsGone index := by
  cases ended : m.task.hasEnded with
  | true =>
    rw [doPiece_look_of_ended found ended]
    exact ⟨m, found, ended, idle⟩
  | false =>
    cases abort : m.task.abortRequested with
    | true =>
      have looks : s.look m = ({ m.task with phase := .ended .cancelled }, .cancelled) :=
        Task.look_of_abort ended abort
      exact ⟨_, getElem?_doPiece_look found looks (by decide) (by decide), rfl, idle⟩
    | false =>
      obtain ⟨ticker, waits⟩ := ends.resolve_left (by rw [abort]; exact Bool.false_ne_true)
      obtain ⟨channel, from', stop⟩ := stop
      obtain rfl := Option.some.inj ((channelOf?_of_found found).symm.trans from')
      have seen : (m.task.signal.wait (s.stops.channel m.task.signal.channel)).2 = true := by
        rw [StopSignal.wait_eq_isStopped, StopSignal.isStopped_channel, stop]
      have looks : s.look m = ({ m.task with
          signal := (m.task.signal.wait (s.stops.channel m.task.signal.channel)).1
          phase := .ended .stopped }, .stopped) := by
        simp only [look, Task.look, waits, abort, Bool.false_eq_true, if_false, Task.lookWaiting,
          seen, if_true]
      exact ⟨_, getElem?_doPiece_look found looks (by decide) (by decide), rfl, idle⟩

theorem IsGone.look (gone : s.IsGone index) : (s.doPiece (.look index)).IsGone index := by
  obtain ⟨m, found, ended, idle⟩ := id gone
  rw [doPiece_look_of_ended found ended]
  exact gone

theorem IsStopped.look (stop : s.IsStopped index) :
    (s.doPiece (.look index)).IsStopped index :=
  stop.reaches (atOnce_look s index).proceeds.reaches

/-- Two looks are enough to end a stopped task that has no cycle: at the first it may only
begin. -/
theorem gone_of_looks (reached : Reachable ttl limit time hasRuntime s)
    (stop : s.IsStopped index) (idle : s.cycle? index = none) :
    ((s.doPiece (.look index)).doPiece (.look index)).IsGone index := by
  obtain ⟨channel, from', _⟩ := id stop
  obtain ⟨m, found, _⟩ := Option.map_eq_some_iff.1 from'
  rw [cycle?_of_found found] at idle
  cases abort : m.task.abortRequested with
  | true => exact (stop.gone_of_look found idle (.inl abort)).look
  | false =>
    have busy : m.Busy := Reachable.members (fun m phase _ ticker working => by
      cases phase.symm.trans working) (fun _ _ _ _ life => life.busy) reached m
        (List.mem_of_getElem? found)
    cases phase : m.task.phase with
    | fresh =>
      cases starts : Ticker.start? s.elapsed m.task.interval m.task.kind.missedTicks with
      | some ticker =>
        have looks : s.look m = ({ m.task with phase := .waiting ticker }, .begun) :=
          Task.look_fresh phase abort starts
        have begun := getElem?_doPiece_look found looks (by decide) (by decide)
        exact stop.look.gone_of_look begun idle (.inr ⟨_, rfl⟩)
      | none =>
        have looks : s.look m =
            ({ m.task with phase := .ended (.panicked Task.overflowMessage) }, .overflowed) := by
          simp only [look, Task.look, phase, abort, Bool.false_eq_true, if_false, Task.begin,
            starts]
        exact IsGone.look ⟨_, getElem?_doPiece_look found looks (by decide) (by decide), rfl, idle⟩
    | waiting ticker => exact (stop.gone_of_look found idle (.inr ⟨ticker, phase⟩)).look
    | working ticker =>
      rcases busy ticker phase with inCycle | aborted
      · rw [idle] at inCycle
        cases inCycle
      · rw [abort] at aborted
        cases aborted
    | ended how =>
      exact (IsGone.look ⟨m, found, m.task.hasEnded_iff.2 ⟨how, phase⟩, idle⟩).look

/-- Where nothing can go on, a stopped task is gone, unless its cycle waits at a closed gate. -/
theorem IsStopped.gone_of_pieces (stop : s.IsStopped index)
    (reached : Reachable ttl limit time hasRuntime s) (gates : s.KeepsGates)
    (settled : s.pieces = []) :
    s.IsGone index ∨ ∃ gate rest, s.cycle? index = some (.waiting gate rest) ∧
      gate ∉ s.background.openGates := by
  obtain ⟨channel, from', _⟩ := id stop
  obtain ⟨m, found, _⟩ := Option.map_eq_some_iff.1 from'
  cases cycle : s.cycle? index with
  | none =>
    have rests : s.doPiece (.look index) = s := by
      rw [doPiece_look_eq found, look_idle_of_pieces settled found]
      rfl
    have gone := gone_of_looks reached stop cycle
    rw [rests, rests] at gone
    exact .inl gone
  | some p =>
    rcases gates index p cycle with ⟨rest, rfl⟩ | ⟨gate, rest, rfl, closed⟩
    · have none := (List.append_eq_nil_iff.1 settled).2
      have one := List.filterMap_eq_nil_iff.1 none (m, index)
        (List.mem_zipIdx_iff_getElem?.2 found)
      rw [cycle?_of_found found] at cycle
      simp only [cycle, Option.any_some, Progress.isReady, if_true, reduceCtorEq] at one
    · exact .inr ⟨gate, rest, rfl, closed⟩

/-- What ends a task that nobody aborts is its stop, unless its first deadline could not be
counted when it began. -/
theorem end_of_kept (reached : Reachable ttl limit time hasRuntime s) {how : TaskEnd}
    (found : s.background.members[index]? = some m) (ended : m.task.phase = .ended how)
    (kept : m.task.abortRequested = false) :
    how = .stopped ∨ ∃ r, Reaches r s ∧ Ticker.horizon ≤ r.elapsed + m.task.interval.toNanos := by
  obtain ⟨r, _, reaches, m', _, _, interval, cause⟩ := ended_for_cause reached found ended
  cases how with
  | stopped => exact .inl rfl
  | cancelled =>
    have abort := Reachable.members (fun m phase _ (gone : m.task.phase = .ended .cancelled) => by
      cases phase.symm.trans gone) (fun _ _ _ _ life => life.cancelled) reached m
        (List.mem_of_getElem? found) ended
    rw [kept] at abort
    cases abort
  | panicked message =>
    cases cause with
    | uncounted _ beyond => exact .inr ⟨r, reaches, interval ▸ beyond⟩

/-! ## The claim goes -/

/-- When the last of a refresh worker goes, the claim on the cache goes with it. -/
theorem released_of_step (step : Step s t) {m' : Member}
    (found : s.background.members[index]? = some m)
    (there : t.background.members[index]? = some m') (held : m.holdsCache = true)
    (gone : m'.holdsCache = false) : t.cache.workerRunning = false := by
  have same : m'.standing ≠ m.standing := by
    intro eq
    rw [← Standing.holds_standing] at held gone
    rw [eq, held] at gone
    cases gone
  have kept : ∀ {p : Prop}, t.background.members[index]? = s.background.members[index]? → p := by
    intro p eq
    obtain rfl := Option.some.inj ((there.symm.trans eq).trans found)
    exact absurd rfl same
  have released : ∀ (r : Session) (m₁ : Member), r.background = s.background →
      (r.putMember index m₁).background.members[index]? = some m' →
      (r.putMember index m₁).cache.workerRunning = false := by
    intro r m₁ eq put
    have before : r.background.members[index]? = some m := eq ▸ found
    obtain rfl := Option.some.inj ((getElem?_putMember_self before m₁).symm.trans put)
    rw [workerRunning_putMember before, Standing.holds_standing, Standing.holds_standing, held,
      gone]
    rfl
  cases step with
  | request q =>
    obtain ⟨m'', now, spared⟩ := (s.spares_answer q).kept found
    obtain rfl := Option.some.inj (there.symm.trans now)
    refine absurd ?_ same
    rw [Member.standing, spared.kind, spared.phase, spared.cycle]
    rfl
  | look other =>
    by_cases eq : other = index
    · subst eq
      have looked := s.doPiece_look other
      generalize s.doPiece (.look other) = after at looked there kept
      cases looked with
      | idle => exact kept rfl
      | passed ops _ _ =>
        rw [Cache.workerRunning_applyAll]
        exact released s _ rfl there
    · exact kept (getElem?_doPiece_look_ne eq)
  | @cycleMoves other m₁ progress found' inCycle =>
    by_cases eq : other = index
    · subst eq
      exact released s _ rfl there
    · exact kept (getElem?_putMember_ne eq _)
  | @cycleEnds other result has =>
    by_cases eq : other = index
    · subst eq
      rcases s.endCycle_cases other result with eq | ⟨_, task, journal, _, _, _, eq⟩
      · exact kept (by rw [eq])
      · rw [eq] at there ⊢
        exact released { s with journal } _ rfl there
    · exact kept (getElem?_endCycle_ne eq result)
  | threads => exact kept rfl
  | runtime => exact kept rfl
  | time => exact kept rfl

/-- A refresh worker that is stopped and has no cycle has given up the cache after two looks. -/
theorem released_of_looks (reached : Reachable ttl limit time hasRuntime s)
    (stop : s.IsStopped index) (found : s.background.members[index]? = some m)
    (idle : m.cycle = none) (held : m.holdsCache = true) :
    ((s.doPiece (.look index)).doPiece (.look index)).cache.workerRunning = false := by
  obtain ⟨m₂, there₂, ended₂, idle₂⟩ :=
    gone_of_looks reached stop ((cycle?_of_found found).trans idle)
  have left₂ : m₂.holdsCache = false := by
    rw [Member.holdsCache, ended₂, idle₂]
    exact Bool.and_false _
  obtain ⟨m₁, there₁, life⟩ := steps_look found
  cases held₁ : m₁.holdsCache with
  | true => exact released_of_step (.look index) there₁ there₂ held₁ left₂
  | false =>
    have flag := released_of_step (.look index) found there₁ held held₁
    simp only [Member.holdsCache, Bool.and_eq_true, beq_iff_eq] at held
    simp only [Member.holdsCache, life.kind, held.1, beq_self_eq_true, Bool.true_and,
      Bool.or_eq_false_iff, Bool.not_eq_false'] at held₁
    rw [doPiece_look_of_ended there₁ held₁.1]
    exact flag

/-! ## Starts -/

section Start

variable {kind : TaskKind} {task signal : String} {interval : Span} {made : StopSignal}

/-- What a start made of session `s`: one more task, which has not run yet, with this signal. -/
def AddsTask (s : Session) (made : StopSignal) (t : Session) : Prop :=
  t.stops = s.stops ∧ ∃ kind i, t.background.members =
    s.background.members ++ [⟨.spawn kind i made, none⟩]

theorem answer_start (task : String) (named : s.stops.signals.find? signal = some made)
    (runtime : s.hasRuntime = true) (positive : 0 < interval.toNanos)
    (free : kind = .refreshWorker → s.cache.workerRunning = false) :
    (s.answer (.act (.task (.start kind task interval signal)))).2 = .started := by
  have start : ∃ started, s.startTask kind interval made = .ok started :=
    ⟨_, startTask_eq_ok_iff.2 ⟨⟨interval, positive⟩, dif_pos positive, runtime, free, rfl⟩⟩
  obtain ⟨started, start⟩ := start
  simp only [answer, reply, perform, performTask, named, start]

theorem addsTask_of_started (named : s.stops.signals.find? signal = some made)
    (started : (s.answer (.act (.task (.start kind task interval signal)))).2 = .started) :
    AddsTask s made (s.answer (.act (.task (.start kind task interval signal)))).1 := by
  simp only [answer, reply, perform, performTask, named] at started ⊢
  cases start : s.startTask kind interval made with
  | error e =>
    rw [start] at started
    cases started
  | ok after =>
    obtain ⟨i, _, _, _, rfl⟩ := startTask_eq_ok_iff.1 start
    exact ⟨rfl, kind, i, rfl⟩

theorem AddsTask.channelOf? (adds : AddsTask s made t) :
    t.channelOf? s.background.members.length = some made.channel := by
  obtain ⟨_, kind, i, eq⟩ := adds
  rw [Session.channelOf?, eq, List.getElem?_concat_length]
  rfl

theorem AddsTask.idle (adds : AddsTask s made t) :
    t.cycle? s.background.members.length = none := by
  obtain ⟨_, kind, i, eq⟩ := adds
  rw [cycle?, eq, List.getElem?_concat_length]
  rfl

/-- A start on a channel that was just made goes well if there is something to run on and the
cache is free, and the task that it adds is not stopped. -/
theorem started_on_new_channel (name : String) (runtime : s.hasRuntime = true)
    (positive : 0 < interval.toNanos)
    (free : kind = .refreshWorker → s.cache.workerRunning = false) :
    let made := (s.answer (.act (.channel (.create name)))).1
    (made.answer (.act (.task (.start kind task interval name)))).2 = .started ∧
      ¬(made.answer (.act (.task (.start kind task interval name)))).1.IsStopped
        s.background.members.length := by
  intro made
  have named : made.stops.signals.find? name =
      some (.subscribe (s.stops.dropHandle name).channels.length .idle) :=
    Keyed.find?_put_self _ _ _
  have started := answer_start task named runtime positive free
  refine ⟨started, ?_⟩
  have adds := addsTask_of_started named started
  rintro ⟨channel, from', stop⟩
  obtain rfl := Option.some.inj (adds.channelOf?.symm.trans from')
  have idle : made.stops.channel (s.stops.dropHandle name).channels.length = .idle := by
    show ((s.stops.dropHandle name).channels ++ [StopChannel.idle])[_]?.getD _ = _
    rw [List.getElem?_concat_length]
    rfl
  rw [adds.1, Stops.isStopped, StopSignal.subscribe, idle] at stop
  cases stop

end Start

/-! ## The course of a stop -/

/-- A stop winds up a task. In every session that comes after it the task stays stopped, takes no
tick, begins no cycle, flushes nothing and calls no callback. A cycle under way is carried on
whatever happens, request by request, until it comes to its end. Without one two looks are enough
to end the task, and where nothing can go on it is gone, unless its cycle waits at a closed gate;
nothing but the stop ends it, if it is not aborted and its first deadline could be counted. As the
last of a refresh worker goes, the cache is free, and then a start on a new channel goes well. A
task that was started with a signal that is stopped already is stopped and has no cycle. -/
theorem stop_winds_up_task (ttl : Span) (limit : Option Nat) (time : TimeSource)
    (hasRuntime : Bool) :
    (∀ (s t : Session) (index : Nat), s.IsStopped index → Reaches s t → Winds index s t) ∧
    (∀ s : Session, Reachable ttl limit time hasRuntime s → ∀ index w,
      s.cycleLeft? index = some w → ∀ hs,
      (∃ w', (s.follow hs).1.cycleLeft? index = some w' ∧ Carries w s w' (s.follow hs).1) ∨
        ∃ first rest t result, hs = first ++ rest ∧ Carries w s (.done result) t ∧
          (s.follow first).1 = t.endCycle index result ∧
          (s.follow first).1.cycle? index = none) ∧
    (∀ s : Session, Reachable ttl limit time hasRuntime s → ∀ index, s.IsStopped index →
      s.cycle? index = none →
      let t := (s.doPiece (.look index)).doPiece (.look index)
      t.IsGone index ∧ ∀ m, s.background.members[index]? = some m → m.holdsCache = true →
        t.cache.workerRunning = false) ∧
    (∀ hs, let s := ((ofCache ttl limit time hasRuntime).follow hs).1
      s.pieces = [] → ∀ index, s.IsStopped index →
      s.IsGone index ∨ ∃ gate rest, s.cycle? index = some (.waiting gate rest) ∧
        gate ∉ s.background.openGates) ∧
    (∀ s : Session, Reachable ttl limit time hasRuntime s → ∀ (index : Nat) (m : Member) how,
      s.background.members[index]? = some m → m.task.phase = .ended how →
      m.task.abortRequested = false →
      how = .stopped ∨
        ∃ r, Reaches r s ∧ Ticker.horizon ≤ r.elapsed + m.task.interval.toNanos) ∧
    (∀ (s t : Session) (index : Nat) (m m' : Member), Step s t →
      s.background.members[index]? = some m → t.background.members[index]? = some m' →
      m.holdsCache = true → m'.holdsCache = false → t.cache.workerRunning = false) ∧
    (∀ (s : Session) kind task (interval : Span) name, s.hasRuntime = true →
      0 < interval.toNanos → (kind = .refreshWorker → s.cache.workerRunning = false) →
      let made := (s.answer (.act (.channel (.create name)))).1
      let start := made.answer (.act (.task (.start kind task interval name)))
      start.2 = .started ∧ ¬start.1.IsStopped s.background.members.length) ∧
    ∀ (s : Session) kind task interval signal made, s.stops.signals.find? signal = some made →
      s.stops.isStopped made.channel = true →
      (s.answer (.act (.task (.start kind task interval signal)))).2 = .started →
      let t := (s.answer (.act (.task (.start kind task interval signal)))).1
      t.IsStopped s.background.members.length ∧ t.cycle? s.background.members.length = none := by
  refine ⟨fun s t index stop reaches => stop.winds reaches,
    fun s reached index w left hs => ?_,
    fun s reached index stop idle => ⟨gone_of_looks reached stop idle, fun m found held =>
      released_of_looks reached stop found ((cycle?_of_found found).symm.trans idle) held⟩,
    fun hs => ?_,
    fun s reached index m how found ended kept => end_of_kept reached found ended kept,
    fun s t index m m' step found there held gone => released_of_step step found there held gone,
    fun s kind task interval name runtime positive free =>
      started_on_new_channel name runtime positive free,
    fun s kind task interval signal made named stop started => ?_⟩
  · rcases cycle_follow reached left hs with
      still | ⟨first, rest, t, result, eq, carried, has, ends⟩
    · exact .inl still
    · obtain ⟨m, found, _⟩ := has
      refine .inr ⟨first, rest, t, result, eq, carried, ends, ?_⟩
      rw [ends]
      exact cycle?_endCycle_self found result
  · intro s settled index stop
    have start : Reachable ttl limit time hasRuntime (ofCache ttl limit time hasRuntime) := .refl
    exact stop.gone_of_pieces (start.follow hs) ((KeepsGates.ofCache _ _ _ _).follow hs) settled
  · have adds := addsTask_of_started named started
    refine ⟨⟨_, adds.channelOf?, ?_⟩, adds.idle⟩
    rw [adds.1]
    exact stop

/-- A refresh worker is stopped while its first cycle waits at a gate, and three more ticks fall
due. Once the gate is open the cycle comes to its end and its item is stored. No other begins, the
worker is gone, and another one starts. -/
theorem stop_winds_up_task_overdue :
    let step : WarmCache.Step := .mk (some "gate") [] (.item 5)
    let s := ((ofCache (.ofSecs 60) none (.manual ⟨0, 0⟩) true).follow
      [.command (.act (.set "a" 1 [.refresh (.mk "source" step [] false [])])),
        .command (.act (.channel (.create "stop"))),
        .command (.act (.task (.start .refreshWorker "worker" (.ofSecs 1) "stop"))),
        .piece (.look 0), .time 1000000000, .piece (.look 0), .piece (.cycle 0),
        .command (.act (.channel (.stop "stop"))), .time 3000000000]).1
    let u := (s.follow
      [.command (.act (.gate (.unlock "gate"))), .piece (.look 0), .piece (.cycle 0)]).1
    let t := (u.doPiece (.look 0)).doPiece (.look 0)
    let made := (t.answer (.act (.channel (.create "again")))).1
    (∃ w r result, s.cycleLeft? 0 = some w ∧ Carries w s (.done result) r) ∧
      Winds 0 s t ∧ t.IsGone 0 ∧ t.cache.workerRunning = false ∧
      t.journal.calls = [("source", 1)] ∧
      (t.cache.entries.find? "a").map Entry.item = some 5 ∧
      (made.answer (.act (.task
        (.start .refreshWorker "worker" (.ofSecs 1) "again")))).2 = .started := by
  intro step s u t made
  obtain ⟨winds, carries, looks, _, _, _, anew, _⟩ :=
    stop_winds_up_task (.ofSecs 60) none (.manual ⟨0, 0⟩) true
  have reached : Reachable (.ofSecs 60) none (.manual ⟨0, 0⟩) true s :=
    Reachable.follow .refl _
  have stop : s.IsStopped 0 := ⟨0, by decide +kernel, by decide +kernel⟩
  have ends : u.cycle? 0 = none := Option.isNone_iff_eq_none.1 (by decide +kernel)
  have begun : (s.cycle? 0).isSome = true := by decide +kernel
  have only : u.background.members.map Member.holdsCache = [true] := by decide +kernel
  have calls : t.journal.calls = [("source", 1)] := by decide +kernel
  have stored : (t.cache.entries.find? "a").map Entry.item = some 5 := by decide +kernel
  have runtime : t.hasRuntime = true := by decide +kernel
  have later : Reaches s u := (proceeds_follow s _).reaches
  have carried : ∃ w r result, s.cycleLeft? 0 = some w ∧ Carries w s (.done result) r := by
    obtain ⟨p, cycle⟩ := Option.isSome_iff_exists.1 begun
    have left : s.cycleLeft? 0 = some p.left := by rw [cycleLeft?, cycle, Option.map_some]
    rcases carries s reached 0 p.left left _ with
      ⟨w, still, _⟩ | ⟨_, _, r, result, _, carried, _⟩
    · change u.cycleLeft? 0 = some w at still
      rw [cycleLeft?, ends] at still
      cases still
    · exact ⟨_, r, result, left, carried⟩
  -- what is left to show does not depend on how the session came here
  clear_value u
  have looked : ∀ r : Session, Reaches r (r.doPiece (.look 0)) := fun r =>
    (atOnce_look r 0).proceeds.reaches
  obtain ⟨gone, released⟩ :=
    looks u (Relation.ReflTransGen.trans reached later) 0 (stop.reaches later) ends
  have first := congrArg (fun l => l[0]?) only
  simp only [List.getElem?_map, List.getElem?_cons_zero, Option.map_eq_some_iff] at first
  obtain ⟨m, found, held⟩ := first
  have free : t.cache.workerRunning = false := released m found held
  exact ⟨carried, winds s t 0 stop ((later.trans (looked u)).trans (looked _)), gone, free, calls,
    stored, (anew t .refreshWorker "worker" (.ofSecs 1) "again" runtime (by decide)
      fun _ => free).1⟩

end Session

end WarmCache
