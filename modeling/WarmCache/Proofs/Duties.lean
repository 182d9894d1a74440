import WarmCache.Proofs.Quiet
import WarmCache.Proofs.Replacing

/-!
# Duties

A background task is there to do something at the points of a grid, which begins one interval
after it first ran: a refresh worker refreshes, a flush task flushes. While time passes evenly and
callbacks are quiet, a task that goes on stands in one of few ways to its duty: it has not run
yet, waits for the next time, or is in the middle of a refresh.

Results:
1. `Duty.isDue_iff`, `Duty.DueAt.next`: when a duty is due.
2. `Poised`, `AtRest`: how all tasks of a session stand to their duties while there is work to be
   done, and when there is none.
3. `Replaces.stands`, `Replaces.duties`, `Replaces.backlog`, `Replaces.called_done`: what becomes of
   this, of the work, and of the calls yet to be made when one task goes on.
-/

namespace WarmCache

/-- What a background task does directly: a refresh, or a flush. -/
def TaskKind.command : TaskKind → Command
  | refreshWorker => .refresh
  | flusher => .act (.store .flush)

/-- What a task of this kind, which first ran at `origin` with this interval, is there for. -/
structure Duty where
  kind : TaskKind
  origin : Nat
  interval : Nat
deriving DecidableEq

theorem TaskKind.flusher_of {kind : TaskKind} (other : kind ≠ .refreshWorker) :
    kind = .flusher := by
  cases kind with
  | refreshWorker => exact absurd rfl other
  | flusher => rfl

/-- The longest period is a whole number of milliseconds, and what is cut to it stays one. -/
theorem Ticker.cut_mod {nanos : Nat} (whole : nanos % Span.nanosPerMilli = 0) :
    min longestPeriod nanos % Span.nanosPerMilli = 0 := by
  rcases Nat.le_total longestPeriod nanos with le | le
  · rw [Nat.min_eq_left le]
    rfl
  · rw [Nat.min_eq_right le]
    exact whole

namespace Duty

/-- The step of the grid: the interval, cut to the longest period. -/
def period (duty : Duty) : Nat := min Ticker.longestPeriod duty.interval

/-- Whether there is a point of the grid at `t`. -/
def isDue (duty : Duty) (t : Nat) : Bool :=
  duty.origin + duty.interval ≤ t && (t - (duty.origin + duty.interval)) % duty.period == 0

theorem isDue_iff_grid {duty : Duty} {t : Nat} :
    duty.isDue t = true ↔ ∃ n, t = duty.origin + duty.interval + n * duty.period := by
  simp only [isDue, Bool.and_eq_true, decide_eq_true_eq, beq_iff_eq]
  constructor
  · rintro ⟨reached, divides⟩
    obtain ⟨n, eq⟩ := Nat.dvd_of_mod_eq_zero divides
    refine ⟨n, ?_⟩
    rw [Nat.mul_comm, ← eq]
    omega
  · rintro ⟨n, rfl⟩
    rw [Nat.add_sub_cancel_left, Nat.mul_mod_left]
    exact ⟨Nat.le_add_right _ _, rfl⟩

/-- A duty is due at every whole number of intervals after it began, unless its interval is beyond
the longest period. -/
theorem isDue_iff {duty : Duty} (short : duty.interval ≤ Ticker.longestPeriod) {t : Nat} :
    duty.isDue t = true ↔ ∃ k, 1 ≤ k ∧ t = duty.origin + k * duty.interval := by
  have whole : duty.period = duty.interval := Nat.min_eq_right short
  rw [isDue_iff_grid, whole]
  constructor
  · rintro ⟨n, rfl⟩
    exact ⟨n + 1, Nat.le_add_left _ _, by rw [Nat.add_mul, Nat.one_mul]; omega⟩
  · rintro ⟨k, positive, rfl⟩
    obtain ⟨n, rfl⟩ := Nat.exists_eq_add_of_le' positive
    exact ⟨n, by rw [Nat.add_mul, Nat.one_mul]; omega⟩

/-- Not before one interval has passed. -/
theorem isDue_of_lt {duty : Duty} {t : Nat} (h : t < duty.origin + duty.interval) :
    duty.isDue t = false := by
  simp only [isDue, Nat.not_le_of_lt h, decide_false, Bool.false_and]

/-- The duty is due at `t`, and never between `now` and `t`. -/
structure DueAt (duty : Duty) (now t : Nat) : Prop where
  due : duty.isDue t = true
  before : ∀ u, now < u → u < t → duty.isDue u = false

namespace DueAt

variable {duty : Duty} {now later t : Nat}

theorem mono (h : duty.DueAt now t) (le : now ≤ later) : duty.DueAt later t :=
  ⟨h.due, fun u after => h.before u (Nat.lt_of_le_of_lt le after)⟩

/-- The first time. -/
theorem first (duty : Duty) : duty.DueAt duty.origin (duty.origin + duty.interval) :=
  ⟨isDue_iff_grid.2 ⟨0, by rw [Nat.zero_mul, Nat.add_zero]⟩, fun _ _ => isDue_of_lt⟩

/-- The next time. -/
theorem next (h : duty.isDue t = true) : duty.DueAt t (t + duty.period) := by
  obtain ⟨n, eq⟩ := isDue_iff_grid.1 h
  refine ⟨isDue_iff_grid.2 ⟨n + 1, by rw [Nat.add_mul, Nat.one_mul]; omega⟩,
    fun u after before => ?_⟩
  refine Bool.eq_false_iff.2 fun due => ?_
  obtain ⟨m, rfl⟩ := isDue_iff_grid.1 due
  have more : n < m := Nat.lt_of_mul_lt_mul_right (a := duty.period) (by omega)
  have less : m < n + 1 := Nat.lt_of_mul_lt_mul_right (a := duty.period) (by
    rw [Nat.add_mul, Nat.one_mul]
    omega)
  omega

end DueAt

/-- Everything about the duty is in whole milliseconds. -/
theorem mod_of_isDue {duty : Duty} (origin : duty.origin % Span.nanosPerMilli = 0)
    (interval : duty.interval % Span.nanosPerMilli = 0) {t : Nat} (due : duty.isDue t = true) :
    t % Span.nanosPerMilli = 0 := by
  obtain ⟨n, rfl⟩ := isDue_iff_grid.1 due
  have period : duty.period % Span.nanosPerMilli = 0 := Ticker.cut_mod interval
  rw [Nat.add_mod, Nat.add_mod duty.origin, origin, interval, Nat.mul_mod, period, Nat.mul_zero]
  rfl

/-- So many flushes, and after them so many refreshes. -/
def commands (flushes refreshes : Nat) : List Command :=
  List.replicate flushes TaskKind.flusher.command ++
    List.replicate refreshes TaskKind.refreshWorker.command

/-- How many duties of a kind are due at `t`. -/
def dueCount (duties : List Duty) (kind : TaskKind) (t : Nat) : Nat :=
  duties.countP fun duty => duty.kind == kind && duty.isDue t

/-- What has to be done at `t`. -/
def commandsAt (duties : List Duty) (t : Nat) : List Command :=
  commands (dueCount duties .flusher t) (dueCount duties .refreshWorker t)

end Duty

theorem Ticker.isDue_of_le {t : Ticker} {now : Nat} (whole : now % Span.nanosPerMilli = 0)
    (le : t.deadline ≤ now) : t.isDue now = true := by
  refine decide_eq_true ?_
  simp only [dueMilli, Span.millisUp, Span.nanosPerMilli] at whole ⊢
  omega

/-- After a tick at its deadline a ticker goes on by one period. -/
theorem Ticker.next_of_deadline (t : Ticker) : t.next t.deadline = t.deadline + t.period := by
  have inTime : t.isLate t.deadline = false :=
    decide_eq_false (Nat.not_lt_of_le (Nat.le_add_left _ _))
  rw [next, inTime]
  rfl

/-! ## Tasks that keep to their duties -/

/-- The duty of a task that first ran at `origin`. -/
def Member.duty (m : Member) (origin : Nat) : Duty :=
  ⟨m.task.kind, origin, m.task.interval.toNanos⟩

/-- A task that is off duty is gone. So is one whose first deadline could not be counted. -/
structure Member.Gone (onDuty : Bool) (origin : Nat) (m : Member) : Prop where
  phase : ∃ how, m.task.phase = .ended how
  cycle : m.cycle = none
  uncounted : onDuty = true → Ticker.horizon ≤ origin + m.task.interval.toNanos

/-- A task waits for the next time its duty is due. -/
structure Member.Waits (now origin : Nat) (m : Member) (ticker : Ticker) : Prop where
  phase : m.task.phase = .waiting ticker
  cycle : m.cycle = none
  period : ticker.period = (m.duty origin).period
  deadline : (m.duty origin).DueAt now ticker.deadline

/-- How a task that keeps to its duty may stand at `now` while there is work to be done. -/
inductive Member.Poised (now : Nat) (onDuty : Bool) (origin : Nat) (m : Member) : Prop
  | fresh : m.task.phase = .fresh → m.cycle = none → origin = now → Poised now onDuty origin m
  | waits {ticker : Ticker} : m.Waits now origin ticker → now ≤ ticker.deadline →
      Poised now onDuty origin m
  /-- The refresh that it has begun is to be done now. -/
  | works {ticker : Ticker} : m.task.phase = .working ticker →
      m.cycle = some (.ready Work.wholeRefresh) → onDuty = true → m.task.kind = .refreshWorker →
      ticker.period = (m.duty origin).period → (m.duty origin).DueAt now ticker.deadline →
      now < ticker.deadline → Poised now onDuty origin m
  | gone : m.Gone onDuty origin → Poised now onDuty origin m

/-- How it stands when there is nothing to be done. -/
inductive Member.Rests (now : Nat) (onDuty : Bool) (origin : Nat) (m : Member) : Prop
  | waits {ticker : Ticker} : m.Waits now origin ticker → onDuty = true → now < ticker.deadline →
      Rests now onDuty origin m
  | gone : m.Gone onDuty origin → Rests now onDuty origin m

/-- Whether a task is about to do its duty at `now`, or is doing it. -/
def Member.isCalled (now : Nat) (m : Member) : Bool :=
  match m.task.phase with
  | .waiting ticker => ticker.deadline ≤ now
  | .working _ => true
  | _ => false

namespace Member

variable {now origin : Nat} {on : Bool} {m : Member} {ticker : Ticker}

theorem Poised.of_fresh (h : m.Poised now on origin) (fresh : m.task.phase = .fresh) :
    m.cycle = none ∧ origin = now := by
  cases h with
  | fresh _ cycle first => exact ⟨cycle, first⟩
  | waits waits => cases fresh.symm.trans waits.phase
  | works phase => cases fresh.symm.trans phase
  | gone gone =>
    obtain ⟨how, phase⟩ := gone.phase
    cases fresh.symm.trans phase

theorem Poised.of_waiting (h : m.Poised now on origin) (phase : m.task.phase = .waiting ticker) :
    m.Waits now origin ticker ∧ now ≤ ticker.deadline := by
  cases h with
  | fresh fresh => cases phase.symm.trans fresh
  | waits waits ahead =>
    obtain rfl := Phase.waiting.inj (phase.symm.trans waits.phase)
    exact ⟨waits, ahead⟩
  | works working => cases phase.symm.trans working
  | gone gone =>
    obtain ⟨how, ended⟩ := gone.phase
    cases phase.symm.trans ended

/-- After a tick at its deadline a task waits for the next one. -/
theorem Waits.deliver (waits : m.Waits now origin ticker) (reached : ticker.deadline = now) :
    (m.duty origin).DueAt now (ticker.deliver now).deadline ∧
      now < (ticker.deliver now).deadline := by
  subst reached
  have next : (ticker.deliver ticker.deadline).deadline =
      ticker.deadline + (m.duty origin).period := by
    rw [← waits.period]
    exact ticker.next_of_deadline
  exact ⟨next ▸ .next waits.deadline.due, ticker.lt_next _⟩

/-- A task that is off duty has no cycle, and if it is not gone it has still to be looked at. -/
theorem Poised.of_off (h : m.Poised now false origin) (running : m.task.hasEnded = false) :
    m.cycle = none ∧ 0 < m.backlog now := by
  cases h with
  | fresh phase cycle =>
    refine ⟨cycle, ?_⟩
    simp only [backlog, phase]
    omega
  | waits waits =>
    refine ⟨waits.cycle, ?_⟩
    simp only [backlog, waits.phase]
    omega
  | works _ _ on => cases on
  | gone gone =>
    rw [m.task.hasEnded_iff.2 gone.phase] at running
    cases running

theorem backlog_ended {how : TaskEnd} (phase : m.task.phase = .ended how) (cycle : m.cycle = none) :
    m.backlog now = 0 := by
  simp only [backlog, phase, cycle, Option.any_none, Bool.false_eq_true, if_false]

theorem backlog_waiting (phase : m.task.phase = .waiting ticker) (cycle : m.cycle = none) :
    m.backlog now = 1 + 2 * (now + 1 - ticker.deadline) := by
  simp only [backlog, phase, cycle, Option.any_none, Bool.false_eq_true, if_false, Nat.zero_add]

theorem Rests.cycle (h : m.Rests now on origin) : m.cycle = none := by
  cases h with
  | waits waits => exact waits.cycle
  | gone gone => exact gone.cycle

/-- A task that rests is not called, nor is it when it is kept. -/
theorem Rests.kept {on' : Bool} {m' : Member} (rests : m.Rests now on origin)
    (kept : m.Kept m') (still : on' = true → on = true) :
    m'.Poised now on' origin ∧ m'.isCalled now = false := by
  have idle : m'.cycle = none := by
    rw [← Option.not_isSome_iff_eq_none, kept.cycle, Option.not_isSome_iff_eq_none]
    exact rests.cycle
  have duty : m'.duty origin = m.duty origin := by
    rw [Member.duty, Member.duty, kept.kind, kept.interval]
  cases rests with
  | @waits ticker waits _ ahead =>
    have phase := kept.phase.trans waits.phase
    refine ⟨.waits ⟨phase, idle, duty ▸ waits.period, duty ▸ waits.deadline⟩
      (Nat.le_of_lt ahead), ?_⟩
    rw [Member.isCalled, phase]
    exact decide_eq_false (Nat.not_le_of_lt ahead)
  | gone gone =>
    obtain ⟨how, ended⟩ := gone.phase
    have phase := kept.phase.trans ended
    refine ⟨.gone ⟨⟨how, phase⟩, idle, fun on => ?_⟩, ?_⟩
    · rw [kept.interval]
      exact gone.uncounted (still on)
    · rw [Member.isCalled, phase]

end Member

/-- A look leaves a task on its stop channel. -/
theorem Task.look_channel (now : Nat) (channel : StopChannel) (t : Task) :
    (t.look now channel).1.signal.channel = t.signal.channel := by
  unfold look
  split
  · rfl
  · split
    · rfl
    · split
      · unfold begin
        split <;> rfl
      · unfold lookWaiting tick
        dsimp only
        split
        · rfl
        · split
          · split <;> rfl
          · rfl
      · rfl

namespace Session

/-- Whether a task goes on: it is neither stopped nor to be aborted. -/
def onDuty (s : Session) (m : Member) : Bool :=
  !m.task.abortRequested && !s.stops.isStopped m.task.signal.channel

/-- The duty of a task that goes on. -/
def duty? (s : Session) (m : Member) (origin : Nat) : Option Duty :=
  if s.onDuty m then some (m.duty origin) else none

/-- The duties of all tasks that go on. The tasks first ran at the times that are listed. -/
def duties (s : Session) (origins : List Nat) : List Duty :=
  (List.zipWith s.duty? s.background.members origins).filterMap id

/-- There is no background refresh, all times and intervals are whole milliseconds, and each task
stands as `P` says. -/
structure Stands (P : Nat → Bool → Nat → Member → Prop) (origins : List Nat) (s : Session) :
    Prop where
  threads : s.background.threads = []
  millis : s.KeepsMillis
  now : s.elapsed % Span.nanosPerMilli = 0
  begins : ∀ origin ∈ origins, origin % Span.nanosPerMilli = 0
  length : s.background.members.length = origins.length
  each : ∀ (i : Nat) (m : Member) (origin : Nat), s.background.members[i]? = some m →
    origins[i]? = some origin → P s.elapsed (s.onDuty m) origin m

/-- Tasks keep to their duties, and there may be work to be done. -/
abbrev Poised : List Nat → Session → Prop := Stands Member.Poised

/-- Tasks keep to their duties, and there is nothing to be done. -/
abbrev AtRest : List Nat → Session → Prop := Stands Member.Rests

/-- How many tasks of a kind have their duty yet to do at the present time. -/
def called (s : Session) (kind : TaskKind) : Nat :=
  s.background.members.countP fun m => m.task.kind == kind && s.onDuty m && m.isCalled s.elapsed

/-- What is yet to be done at the present time. -/
def calls (s : Session) : List Command :=
  Duty.commands (s.called .flusher) (s.called .refreshWorker)

/-- In session `t`, task `index` is `m'` and no longer `m`, with the same duty. -/
structure Replaces (s t : Session) (index : Nat) (m m' : Member) : Prop where
  found : s.background.members[index]? = some m
  members : t.background.members = s.background.members.set index m'
  threads : t.background.threads = s.background.threads
  elapsed : t.elapsed = s.elapsed
  channels : t.stops.channels = s.stops.channels
  kind : m'.task.kind = m.task.kind
  interval : m'.task.interval = m.task.interval
  abort : m'.task.abortRequested = m.task.abortRequested
  channel : m'.task.signal.channel = m.task.signal.channel

theorem Stands.member {P : Nat → Bool → Nat → Member → Prop} {origins : List Nat} {s : Session}
    (h : s.Stands P origins) {index : Nat} {m : Member}
    (found : s.background.members[index]? = some m) :
    ∃ origin, origins[index]? = some origin ∧ P s.elapsed (s.onDuty m) origin m := by
  have inside := (List.getElem?_eq_some_iff.1 found).1
  have from' := List.getElem?_eq_getElem (l := origins) (h.length ▸ inside)
  exact ⟨_, from', h.each index m _ found from'⟩

theorem onDuty_congr {s t : Session} (channels : t.stops.channels = s.stops.channels) (m : Member) :
    t.onDuty m = s.onDuty m := by
  simp only [onDuty, Stops.isStopped, Stops.channel, channels]

/-- A task that goes on did so before it was kept, for no stop or abort is taken back. -/
theorem onDuty_of_kept {s t : Session} {m m' : Member} (kept : m.Kept m')
    (stopped : ∀ index, s.stops.isStopped index = true → t.stops.isStopped index = true)
    (on : t.onDuty m' = true) : s.onDuty m = true := by
  obtain ⟨abort, same, more⟩ := kept.task
  rw [onDuty, same, Bool.and_eq_true, Bool.not_eq_true', Bool.not_eq_true'] at on
  rw [onDuty, Bool.and_eq_true, Bool.not_eq_true', Bool.not_eq_true']
  refine ⟨Bool.eq_false_iff.2 fun was => ?_, Bool.eq_false_iff.2 fun was => ?_⟩
  · rw [more was] at on
    cases on.1
  · rw [stopped _ was] at on
    cases on.2

namespace Replaces

variable {s t : Session} {index : Nat} {m m' : Member} {origins : List Nat}

theorem of_put (found : s.background.members[index]? = some m)
    (members : t.background.members = s.background.members)
    (threads : t.background.threads = s.background.threads) (elapsed : t.elapsed = s.elapsed)
    (channels : t.stops.channels = s.stops.channels) (kind : m'.task.kind = m.task.kind)
    (interval : m'.task.interval = m.task.interval)
    (abort : m'.task.abortRequested = m.task.abortRequested)
    (channel : m'.task.signal.channel = m.task.signal.channel) :
    Replaces s (t.putMember index m') index m m' :=
  ⟨found, congrArg (fun l => l.set index m') members, threads, elapsed, channels, kind, interval,
    abort, channel⟩

theorem onDuty (h : Replaces s t index m m') : t.onDuty m' = s.onDuty m := by
  rw [onDuty_congr h.channels]
  simp only [Session.onDuty, h.abort, h.channel]

theorem duty (h : Replaces s t index m m') (origin : Nat) : m'.duty origin = m.duty origin := by
  rw [Member.duty, Member.duty, h.kind, h.interval]

theorem stands {P : Nat → Bool → Nat → Member → Prop} (h : Replaces s t index m m')
    (before : s.Stands P origins)
    (now : ∀ origin, origins[index]? = some origin → P s.elapsed (s.onDuty m) origin m') :
    t.Stands P origins := by
  refine ⟨h.threads.trans before.threads, fun x hx => ?_, h.elapsed ▸ before.now, before.begins,
    ?_, fun i x origin there from' => ?_⟩
  · rw [h.members] at hx
    rcases List.mem_or_eq_of_mem_set hx with hx | rfl
    · exact before.millis x hx
    · rw [h.interval]
      exact before.millis m (List.mem_of_getElem? h.found)
  · rw [h.members, List.length_set]
    exact before.length
  · rw [h.elapsed]
    rw [h.members] at there
    by_cases same : index = i
    · subst same
      rw [List.getElem?_set_self (List.getElem?_eq_some_iff.1 h.found).1] at there
      obtain rfl := Option.some.inj there
      rw [h.onDuty]
      exact now origin from'
    · rw [List.getElem?_set_ne same] at there
      rw [onDuty_congr h.channels]
      exact before.each i x origin there from'

theorem duties (h : Replaces s t index m m') : t.duties origins = s.duties origins := by
  unfold Session.duties
  congr 1
  refine List.ext_getElem? fun i => ?_
  rw [List.getElem?_zipWith, List.getElem?_zipWith, h.members]
  have same : ∀ x, t.duty? x = s.duty? x := by
    intro x
    funext origin
    rw [duty?, duty?, onDuty_congr h.channels]
  by_cases here : index = i
  · subst here
    rw [List.getElem?_set_self (List.getElem?_eq_some_iff.1 h.found).1, h.found]
    cases origins[index]? with
    | none => rfl
    | some origin =>
      show some (t.duty? m' origin) = some (s.duty? m origin)
      rw [duty?, duty?, h.onDuty, h.duty]
  · rw [List.getElem?_set_ne here]
    simp only [same]

theorem backlog (h : Replaces s t index m m') :
    t.backlog + m.backlog s.elapsed = s.backlog + m'.backlog s.elapsed := by
  unfold Session.backlog
  rw [h.members, h.threads, h.elapsed]
  have sum := foldr_add_set (Member.backlog s.elapsed) h.found m'
  omega

theorem countP (h : Replaces s t index m m') (kind : TaskKind) :
    t.called kind + (m.task.kind == kind && s.onDuty m && m.isCalled s.elapsed).toNat =
      s.called kind + (m.task.kind == kind && s.onDuty m && m'.isCalled s.elapsed).toNat := by
  have same : t.called kind = (s.background.members.set index m').countP fun m =>
      m.task.kind == kind && s.onDuty m && m.isCalled s.elapsed := by
    simp only [called, h.members, h.elapsed, onDuty_congr h.channels]
  have now : s.onDuty m' = s.onDuty m := (onDuty_congr h.channels m').symm.trans h.onDuty
  rw [same, ← h.kind, ← now]
  have set := countP_set_add (fun m => m.task.kind == kind && s.onDuty m && m.isCalled s.elapsed)
    h.found m'
  rw [h.kind, now] at set ⊢
  exact set

/-- A task is done with its duty. -/
theorem called_done (h : Replaces s t index m m') (on : s.onDuty m = true)
    (before : m.isCalled s.elapsed = true) (after : m'.isCalled s.elapsed = false)
    (kind : TaskKind) : s.called kind = t.called kind + if m.task.kind = kind then 1 else 0 := by
  have count := h.countP kind
  simp only [on, before, after, Bool.and_true, Bool.and_false, Bool.toNat_false] at count
  have one : (m.task.kind == kind).toNat = if m.task.kind = kind then 1 else 0 := by
    by_cases same : m.task.kind = kind <;> simp [same]
  omega

/-- A task that is off duty is not called, so nothing is done if it ends. Nor is it if it is
called as before. -/
theorem called_same (h : Replaces s t index m m')
    (same : s.onDuty m = true → m'.isCalled s.elapsed = m.isCalled s.elapsed) :
    t.calls = s.calls := by
  have each : ∀ kind, t.called kind = s.called kind := by
    intro kind
    have count := h.countP kind
    cases on : s.onDuty m with
    | false =>
      simp only [on, Bool.and_false, Bool.false_and, Bool.toNat_false] at count
      exact count
    | true =>
      rw [same on] at count
      exact Nat.add_right_cancel count
  rw [calls, calls, each, each]

end Replaces

end Session

end WarmCache
