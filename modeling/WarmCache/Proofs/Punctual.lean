import WarmCache.Proofs.Courses
import WarmCache.Proofs.Stopping
import WarmCache.Proofs.Warmth

/-!
# Workers that come in time

A worker that goes on has its next turn no later than one interval from now. If no time overtakes
that turn, and the interval is no longer than the lifetime of entries, an entry that is warm until
the turn is warm until the next one as well: the cycle makes it last for another lifetime.

A first deadline that cannot be counted ends a worker before its first turn. But then the clock
shows the last instant there is before the turn would come, and nothing expires any more.

Results:
1. `Proceeds.allArmed`: the next turn of every worker is no more than its interval ahead.
2. `Tended.happen`: a worker that comes in time keeps an entry warm, whatever light things happen
   that spare its key.
-/

namespace WarmCache

/-! ## The next turn of a worker -/

/-- A tick that is delivered puts the deadline off to one period from now at the latest. -/
theorem Ticker.next_le {t : Ticker} {now : Nat} (due : t.deadline ≤ now) :
    t.next now ≤ now + t.period := by
  unfold next
  split
  · split
    · exact Nat.sub_le _ _
    · exact Nat.le_refl _
  · exact Nat.add_le_add_right due _

namespace Member

/-- The time by which a worker has its next turn, if it comes in time. -/
def nextTurn (now : Nat) (m : Member) : Nat :=
  match m.task.phase with
  | .fresh => now + m.task.interval.toNanos
  | .waiting ticker => max now ticker.deadline
  | .working _ => now
  | .ended _ => now + m.task.interval.toNanos

/-- So many nanoseconds do not overtake the turn of a worker. -/
def awaits (now nanos : Nat) (m : Member) : Bool :=
  match m.task.phase with
  | .fresh => nanos == 0
  | .waiting ticker => nanos == 0 || now + nanos ≤ ticker.deadline
  | .working _ => nanos == 0
  | .ended _ => true

/-- The deadline of a task is at most one interval ahead, and its period is no longer. If the task
is gone and yet on duty, its first deadline could not be counted. -/
structure Armed (now : Nat) (onDuty : Bool) (m : Member) : Prop where
  ticker : ∀ ticker, m.task.HasTicker ticker →
    ticker.deadline ≤ now + m.task.interval.toNanos ∧ ticker.period ≤ m.task.interval.toNanos
  uncounted : ∀ how, m.task.phase = .ended how → onDuty = true →
    Ticker.horizon ≤ now + m.task.interval.toNanos

theorem le_nextTurn (now : Nat) (m : Member) : now ≤ m.nextTurn now := by
  unfold nextTurn
  split
  · exact Nat.le_add_right _ _
  · exact Nat.le_max_left _ _
  · exact Nat.le_refl _
  · exact Nat.le_add_right _ _

theorem Armed.nextTurn_le {now : Nat} {onDuty : Bool} {m : Member} (h : m.Armed now onDuty) :
    m.nextTurn now ≤ now + m.task.interval.toNanos := by
  unfold nextTurn
  split
  · exact Nat.le_refl _
  · next ticker phase => exact Nat.max_le.2 ⟨Nat.le_add_right _ _, (h.ticker ticker (.inl phase)).1⟩
  · exact Nat.le_add_right _ _
  · exact Nat.le_refl _

theorem Kept.nextTurn {m m' : Member} (h : m.Kept m') (now : Nat) :
    m'.nextTurn now = m.nextTurn now := by
  rw [Member.nextTurn, Member.nextTurn, h.phase, h.interval]

/-- A task that has just begun, waits, works or is gone has the ticker that it had, or the one that
a look has given it. -/
theorem Steps.hasTicker {now : Nat} {channel : StopChannel} {m m' : Member}
    (h : m.Steps now channel m') {ticker : Ticker} (has : m'.task.HasTicker ticker) :
    m.task.HasTicker ticker ∨
      Ticker.start? now m.task.interval m.task.kind.missedTicks = some ticker ∨
      ∃ before, m.task.HasTicker before ∧ before.isDue now = true ∧
        ticker = before.deliver now := by
  cases h with
  | kept kept =>
    refine .inl ?_
    rw [Task.HasTicker, kept.phase] at has
    exact has
  | looks looks =>
    cases looks with
    | idle => exact .inl has
    | cancelled => rcases has with has | has <;> cases has
    | overflowed => rcases has with has | has <;> cases has
    | stopped => rcases has with has | has <;> cases has
    | @begun armed _ _ start =>
      rcases has with has | has
      · obtain rfl := Phase.waiting.inj has
        exact .inr (.inl start)
      · cases has
    | @ticked before _ phase _ _ due =>
      refine .inr (.inr ⟨before, .inl phase, due, ?_⟩)
      unfold Task.tick at has
      rcases has with has | has <;> dsimp only at has <;> split at has
      · cases has
      · exact (Phase.waiting.inj has).symm
      · exact (Phase.working.inj has).symm
      · cases has
  | moves => exact .inl has
  | returns =>
    refine .inl ?_
    unfold Task.cycleEnded at has
    dsimp only at has
    split at has
    · next before working =>
      rcases has with has | has
      · obtain rfl := Phase.waiting.inj has
        exact .inr working
      · cases has
    · exact has
  | outlives => exact .inl has

end Member

namespace Session

variable {s t : Session} {index : Nat} {m m' : Member}

/-- A task that is on duty after a step was so before. -/
theorem Step.onDuty (step : Step s t) (found : s.background.members[index]? = some m)
    (there : t.background.members[index]? = some m') (on : t.onDuty m' = true) :
    s.onDuty m = true := by
  obtain ⟨m'', found', life⟩ := step.member found
  obtain rfl := Option.some.inj (there.symm.trans found')
  have channel := step.channelOf? (channelOf?_of_found found)
  rw [channelOf?_of_found there, Option.some.injEq] at channel
  simp only [Session.onDuty, Bool.and_eq_true, Bool.not_eq_true', channel] at on ⊢
  refine ⟨Bool.eq_false_iff.2 fun abort => ?_, Bool.eq_false_iff.2 fun stop => ?_⟩
  · cases on.1.symm.trans (life.abortRequested abort)
  · cases on.2.symm.trans (step.isStopped stop)

theorem Step.armed (step : Step s t) (later : s.elapsed ≤ t.elapsed)
    (found : s.background.members[index]? = some m)
    (there : t.background.members[index]? = some m') (armed : m.Armed s.elapsed (s.onDuty m)) :
    m'.Armed t.elapsed (t.onDuty m') := by
  obtain ⟨m'', found', life⟩ := step.member found
  obtain rfl := Option.some.inj (there.symm.trans found')
  have on := step.onDuty found there
  refine ⟨fun ticker has => ?_, fun how ended on' => ?_⟩
  · rw [life.interval]
    refine And.imp_left (fun le => Nat.le_trans le (Nat.add_le_add_right later _)) ?_
    rcases life.hasTicker has with old | starts | ⟨before, old, due, rfl⟩
    · exact armed.ticker ticker old
    · obtain ⟨deadline, period, _⟩ := Ticker.start?_eq_some starts
      exact ⟨Nat.le_of_eq deadline, period ▸ Nat.min_le_right _ _⟩
    · have period := (armed.ticker before old).2
      have next := Ticker.next_le (before.deadline_le_of_isDue _ due)
      exact ⟨Nat.le_trans next (Nat.add_le_add_left period _), period⟩
  · rw [life.interval]
    refine Nat.le_trans ?_ (Nat.add_le_add_right later _)
    rcases life.running ended with gone | ⟨_, cause⟩
    · exact armed.uncounted how gone (on on')
    · have duty := on on'
      rw [Session.onDuty, Bool.and_eq_true, Bool.not_eq_true', Bool.not_eq_true'] at duty
      cases cause with
      | uncounted _ beyond => exact beyond
      | cancelled abort => cases abort.symm.trans duty.1
      | stopped stop =>
        rw [StopSignal.isStopped_channel, duty.2] at stop
        cases stop

/-- All tasks are armed. -/
def AllArmed (s : Session) : Prop :=
  ∀ (index : Nat) (m : Member), s.background.members[index]? = some m →
    m.Armed s.elapsed (s.onDuty m)

theorem Proceeds.allArmed (proceeds : Proceeds s t) (armed : s.AllArmed) : t.AllArmed := by
  induction proceeds with
  | refl => exact armed
  | @tail r t _ step ih =>
    intro index m' there
    cases before : r.background.members[index]? with
    | some m => exact step.1.armed step.2 before there (ih index m before)
    | none =>
      obtain ⟨fresh, _⟩ := step.1.newMember before there
      refine ⟨fun ticker has => ?_, fun how ended => ?_⟩
      · rcases has with has | has <;> cases fresh.symm.trans has
      · cases fresh.symm.trans ended

/-- A task stays what it is for as long as a session goes on, and comes to duty no more once it is
off. -/
theorem Proceeds.member (proceeds : Proceeds s t) (found : s.background.members[index]? = some m) :
    ∃ m', t.background.members[index]? = some m' ∧ m'.task.kind = m.task.kind ∧
      m'.task.interval = m.task.interval ∧ (t.onDuty m' = true → s.onDuty m = true) := by
  induction proceeds with
  | refl => exact ⟨m, found, rfl, rfl, id⟩
  | @tail r t _ step ih =>
    obtain ⟨m', there, kind, interval, duty⟩ := ih
    obtain ⟨m'', there', life⟩ := step.1.member there
    exact ⟨m'', there', life.kind.trans kind, life.interval.trans interval,
      fun on => duty (step.1.onDuty there there' on)⟩

/-- Work that callers and callbacks do leaves every task as it is, but for an abort that was asked
for. -/
theorem During.spares {α : Type} {w : Work α} (h : During w s t) : s.Spares t := by
  induction h with
  | begins => exact .of_members rfl
  | asks _ ih => exact (spares_answer _ _).trans ih
  | passes _ ih => exact ih

/-! ## A worker and an entry -/

/-- Task `index`, if it is on duty, has its turn before so much time has passed. -/
def inTime (index : Nat) (s : Session) : Happening → Bool
  | .time nanos => s.background.members[index]?.all fun m =>
      !s.onDuty m || m.awaits s.elapsed nanos
  | _ => true

/-- In all that happens, no time overtakes a turn of task `index`. -/
def staysInTime (index : Nat) (s : Session) : List Happening → Bool
  | [] => true
  | h :: rest => s.inTime index h && (s.happen h).1.staysInTime index rest

/-- Task `index` is a worker whose interval is no longer than the lifetime of entries, and as long
as it is on duty the entry is warm until its next turn. -/
structure Tended (ttl : Span) (start : Timestamp) (key : String) (callback : Callback)
    (index : Nat) (s : Session) : Prop where
  order : s.Orderly
  armed : s.AllArmed
  worker : ∃ m, s.background.members[index]? = some m ∧ m.task.kind = .refreshWorker ∧
    m.task.interval.toNanos ≤ ttl.toNanos ∧
    (s.onDuty m = true → s.Warm ttl start key callback (m.nextTurn s.elapsed))

/-- As long as task `index` is on duty, an entry with this callback is there under the key, and it
has not expired. -/
def Keeps (s : Session) (key : String) (callback : Callback) (index : Nat) : Prop :=
  ∃ m ∈ s.background.members[index]?, s.onDuty m = true →
    ∃ e ∈ s.cache.entries.find? key, e.refresh = some callback ∧ e.isExpiredAt s.now = false

instance (s : Session) (key : String) (callback : Callback) (index : Nat) :
    Decidable (s.Keeps key callback index) := inferInstanceAs (Decidable (∃ m ∈ _, _))

section Tended

variable {ttl : Span} {start : Timestamp} {key : String} {callback : Callback}

/-- A look leaves the next turn of a worker where it is, unless it ends the worker. -/
theorem nextTurn_look {step : TaskStep}
    (looks : m.task.Looks s.elapsed (s.stops.channel m.task.signal.channel) m'.task step)
    (worker : m.task.kind = .refreshWorker) (on : s.onDuty m = true) :
    m'.nextTurn s.elapsed ≤ m.nextTurn s.elapsed := by
  rw [onDuty, Bool.and_eq_true, Bool.not_eq_true', Bool.not_eq_true'] at on
  obtain ⟨task, cycle⟩ := m'
  cases looks with
  | idle => exact Nat.le_refl _
  | cancelled _ abort => cases abort.symm.trans on.1
  | @begun ticker fresh _ starts =>
    simp only [Member.nextTurn, fresh, (Ticker.start?_eq_some starts).1]
    exact Nat.max_le.2 ⟨Nat.le_add_right _ _, Nat.le_refl _⟩
  | overflowed fresh =>
    simp only [Member.nextTurn, fresh]
    exact Nat.le_refl _
  | stopped _ _ _ stop =>
    rw [StopSignal.isStopped_channel, on.2] at stop
    cases stop
  | ticked =>
    simp only [Member.nextTurn, worker]
    exact Member.le_nextTurn s.elapsed m

namespace Tended

/-- After something that takes no time, an entry that is still as warm as it was is warm enough if
the next turn of the worker is no later. -/
theorem of_atOnce (h : s.Tended ttl start key callback index) (order : t.Orderly)
    (atOnce : AtOnce s t)
    (keeps : ∀ m m', s.background.members[index]? = some m →
      t.background.members[index]? = some m' → m.task.kind = .refreshWorker →
      m.task.interval.toNanos ≤ ttl.toNanos → s.onDuty m = true →
      s.Warm ttl start key callback (m.nextTurn s.elapsed) →
      t.Warm ttl start key callback (m'.nextTurn s.elapsed)) :
    t.Tended ttl start key callback index := by
  obtain ⟨m, found, worker, short, warm⟩ := h.worker
  obtain ⟨m', there, kind, interval, duty⟩ := Proceeds.member atOnce.proceeds found
  refine ⟨order, Proceeds.allArmed atOnce.proceeds h.armed, m', there, kind.trans worker,
    interval ▸ short, fun on => ?_⟩
  rw [atOnce.elapsed]
  exact keeps m m' found there worker short (duty on) (warm (duty on))

theorem command (h : s.Tended ttl start key callback index) {command : Command}
    (light : command.isLight true = true) (spared : command.spares key = true) :
    (s.finish command.work).1.Tended ttl start key callback index := by
  have passed := during_finish command.work s
  refine h.of_atOnce (h.order.finish light) passed.atOnce fun m m' found there _ short on warm => ?_
  obtain ⟨m'', found', kept⟩ := passed.spares.kept found
  obtain rfl := Option.some.inj (there.symm.trans found')
  rw [kept.nextTurn]
  exact warm.finish h.order (m.le_nextTurn _)
    (Nat.le_trans (h.armed index m found).nextTurn_le (Nat.add_le_add_left short _)) light spared

theorem piece (h : s.Tended ttl start key callback index) (piece : Piece) :
    (s.doPiece piece).Tended ttl start key callback index := by
  refine h.of_atOnce (h.order.doPiece piece) (atOnce_doPiece s piece)
    fun m m' found there worker short on warm => ?_
  have within := Nat.le_trans (h.armed index m found).nextTurn_le (Nat.add_le_add_left short _)
  have kept := warm.doPiece h.order (m.le_nextTurn _) within piece
  cases piece with
  | look other =>
    refine kept.mono ?_
    by_cases same : other = index
    · subst same
      rcases s.look_passes other with ⟨eq, _⟩ | ⟨old, new, step, looks, _, _, passes⟩
      · rw [eq, found] at there
        obtain rfl := Option.some.inj there
        exact Nat.le_refl _
      · obtain rfl := Option.some.inj (found.symm.trans passes.found)
        have inside := (List.getElem?_eq_some_iff.1 found).1
        rw [passes.members, List.getElem?_set_self inside] at there
        obtain rfl := Option.some.inj there
        exact nextTurn_look looks worker on
    · rw [getElem?_doPiece_look_ne same, found] at there
      obtain rfl := Option.some.inj there
      exact Nat.le_refl _
  | thread other =>
    refine kept.mono (Nat.le_of_eq ?_)
    rcases h.order.doPiece_thread enduring_orderly ⟨h.order.away, trivial⟩ other with
      ⟨eq, _⟩ | ⟨u, told, _, _, finish, eq⟩
    · rw [eq, found] at there
      rw [Option.some.inj there]
    · have passed := during_finish Work.wholeRefresh { s with hasRuntime := false }
      rw [finish] at passed
      obtain ⟨m'', found', kept⟩ := passed.spares.kept found
      rw [eq] at there
      obtain rfl := Option.some.inj (found'.symm.trans there)
      exact kept.nextTurn _
  | cycle other =>
    rcases h.order.doPiece_cycle enduring_orderly ⟨h.order, trivial⟩ other with
      ⟨eq, _⟩ | ⟨u, told, ready, _, finish, eq⟩
    · refine kept.mono (Nat.le_of_eq ?_)
      rw [eq, found] at there
      rw [Option.some.inj there]
    · by_cases same : other = index
      · subst same
        have renewed := warm.doPiece_cycle h.order (m.le_nextTurn _) ready
        refine renewed.mono (Nat.le_trans ?_ (Nat.add_le_add_left short _))
        have atOnce := atOnce_doPiece s (.cycle other)
        have armed := Proceeds.allArmed atOnce.proceeds h.armed other m' there
        obtain ⟨m'', found', _, interval, _⟩ := Proceeds.member atOnce.proceeds found
        obtain rfl := Option.some.inj (there.symm.trans found')
        rw [← interval, ← atOnce.elapsed]
        exact armed.nextTurn_le
      · refine kept.mono (Nat.le_of_eq ?_)
        have passed := during_finish Work.wholeRefresh s
        rw [finish] at passed
        obtain ⟨m'', found', kept⟩ := passed.spares.kept found
        rw [eq, getElem?_endCycle_ne same] at there
        obtain rfl := Option.some.inj (found'.symm.trans there)
        exact kept.nextTurn _

/-- Time passes, and the turn of the worker is not overtaken. -/
theorem time (h : s.Tended ttl start key callback index) {nanos : Nat}
    (inTime : s.inTime index (.time nanos) = true) :
    ({ s with elapsed := s.elapsed + nanos } : Session).Tended ttl start key callback index := by
  have proceeds : Proceeds s { s with elapsed := s.elapsed + nanos } :=
    .single ⟨.time _, Nat.le_add_right _ _⟩
  obtain ⟨m, found, worker, short, warm⟩ := h.worker
  refine ⟨⟨h.order.light, h.order.stored, h.order.held, h.order.whole⟩,
    Proceeds.allArmed proceeds h.armed, m, found, worker, short, fun on => ?_⟩
  change s.onDuty m = true at on
  obtain ⟨e, there, stored, lasts⟩ := (warm on).entry
  refine (warm on).carry proceeds (u := s) ⟨(warm on).toRuns, (warm on).succeeds, e, there, stored,
    ?_⟩ rfl
  simp only [Session.inTime, found, Option.all_some, on, Bool.not_true, Bool.false_or] at inTime
  unfold Member.awaits at inTime
  unfold Member.nextTurn at lasts ⊢
  cases phase : m.task.phase with
  | fresh =>
    simp only [phase, beq_iff_eq] at inTime lasts ⊢
    rw [inTime]
    exact lasts
  | waiting ticker =>
    simp only [phase, Bool.or_eq_true, beq_iff_eq, decide_eq_true_eq] at inTime lasts ⊢
    refine Clock.not_past_mono (warm on).ordinary ?_ lasts
    omega
  | working ticker =>
    simp only [phase, beq_iff_eq] at inTime lasts ⊢
    rw [inTime]
    exact lasts
  | ended how =>
    -- the clock shows the last instant by then, and has done so since the worker ended
    simp only [phase] at lasts ⊢
    have uncounted := (h.armed index m found).uncounted how phase on
    have later := Nat.le_trans uncounted
      (Nat.add_le_add_right (Nat.le_add_right s.elapsed nanos) m.task.interval.toNanos)
    rw [Clock.running_eq_latest start uncounted] at lasts
    rw [Clock.running_eq_latest start later]
    exact lasts

theorem happen (h : s.Tended ttl start key callback index) {happening : Happening}
    (light : happening.isLight = true) (spared : happening.spares key = true)
    (inTime : s.inTime index happening = true) :
    (s.happen happening).1.Tended ttl start key callback index := by
  cases happening with
  | command command => exact h.command light spared
  | piece piece => exact h.piece piece
  | time nanos => exact h.time inTime
  | reading =>
    obtain ⟨m, found, worker, short, warm⟩ := h.worker
    have proceeds := proceeds_happen s .reading
    exact ⟨⟨h.order.light, h.order.stored, h.order.held, h.order.whole⟩,
      Proceeds.allArmed proceeds h.armed, m, found, worker, short,
      fun on => (warm on).carry proceeds (warm on) rfl⟩

theorem follow (h : s.Tended ttl start key callback index) {hs : List Happening}
    (light : ∀ happening ∈ hs, happening.isLight = true)
    (spared : ∀ happening ∈ hs, happening.spares key = true)
    (inTime : s.staysInTime index hs = true) :
    (s.follow hs).1.Tended ttl start key callback index := by
  induction hs generalizing s with
  | nil => exact h
  | cons happening rest ih =>
    rw [List.forall_mem_cons] at light spared
    rw [staysInTime, Bool.and_eq_true] at inTime
    exact ih (h.happen light.1 spared.1 inTime.1) light.2 spared.2 inTime.2

theorem keeps (h : s.Tended ttl start key callback index) : s.Keeps key callback index := by
  obtain ⟨m, found, _, _, warm⟩ := h.worker
  refine ⟨m, found, fun on => ?_⟩
  obtain ⟨e, there, stored, lasts⟩ := ((warm on).mono (m.le_nextTurn _)).entry
  refine ⟨e, there, stored, decide_eq_false ?_⟩
  rw [(warm on).now_eq]
  exact lasts

end Tended

end Tended

end Session

end WarmCache
