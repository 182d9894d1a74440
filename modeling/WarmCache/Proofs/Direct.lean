import WarmCache.Proofs.Settling

/-!
# Background work as direct calls

A session with background tasks does to its cache what a session without any does whose caller
flushes and refreshes directly at every point of the grid of each task, until the task is stopped
or aborted. The tasks are those of the former; when each of them first ran is read off as the
session goes.

Results:
1. `Session.direct`: the moves of the latter session.
2. `Stands.arrive`, `Stands.passMillis`: time passes, and the duties that come due are done.
3. `background_does_duties`: the two sessions have the same entries, statistics and calls.
-/

namespace WarmCache

/-! ## Direct calls -/

/-- Time passes by so many milliseconds, from millisecond `t` on, with every duty done when it is
due. -/
def Duty.passMillis (duties : List Duty) (t n : Nat) : List Move :=
  (List.range n).flatMap fun k =>
    .sleep (.ofMillis 1) ::
      (commandsAt duties (Span.nanosPerMilli * (t + k + 1))).map Move.run

namespace Move

/-- How many milliseconds pass with a move. -/
def millis : Move → Nat
  | run _ => 0
  | sleep d => min Ticker.longestPeriod d.toNanos / Span.nanosPerMilli
  | jump d => d.toNanos / Span.nanosPerMilli

/-- The moves that a caller makes who has these duties, in place of a move. -/
def direct (duties : List Duty) (t : Nat) : Move → List Move
  | run command => [.run command]
  | m => Duty.passMillis duties t m.millis

/-- A command is quiet, or whole milliseconds pass. No duty that comes due on the way is
overtaken. -/
def isEven (duties : List Duty) (t : Nat) : Move → Bool
  | run command => command.isQuiet true
  | sleep d => d.toNanos % Span.nanosPerMilli == 0
  | jump d => d.toNanos % Span.nanosPerMilli == 0 &&
      (List.range (d.toNanos / Span.nanosPerMilli)).all fun k =>
        k == 0 || duties.all fun duty => !duty.isDue (Span.nanosPerMilli * (t + k))

end Move

namespace Session

/-- The times at which tasks first ran, once those that a move has started have run. -/
def beginnings (s : Session) (origins : List Nat) : List Nat :=
  origins ++ List.replicate (s.background.members.length - origins.length) s.elapsed

/-- The moves of a session without background tasks whose caller does their duties directly. The
tasks that there are already first ran at the times that are listed. -/
def direct (s : Session) (origins : List Nat) : List Move → List Move
  | [] => []
  | m :: rest =>
    let after := (s.move m).1
    m.direct (s.duties origins) (s.elapsed / Span.nanosPerMilli) ++
      after.direct (after.beginnings origins) rest

/-- All moves are even, and time can be counted throughout. -/
def isEven (s : Session) (origins : List Nat) : List Move → Bool
  | [] => true
  | m :: rest =>
    let after := (s.move m).1
    m.isEven (s.duties origins) (s.elapsed / Span.nanosPerMilli) &&
      decide (s.elapsed + Span.nanosPerMilli * m.millis < Ticker.horizon) &&
        after.isEven (after.beginnings origins) rest

section Time

variable {s d : Session} {origins : List Nat} {t n : Nat}

/-! ## Time passes -/

theorem Idle.later (idle : d.Idle) (elapsed : Nat) : ({ d with elapsed } : Session).Idle :=
  ⟨idle.members, idle.threads, idle.runtime⟩

theorem Twins.later (twins : Twins s d) (elapsed : Nat) :
    Twins { s with elapsed } { d with elapsed } where
  bare := congrArg (fun t : Session => { t with elapsed }) twins.bare
  steady := twins.steady
  quiet := twins.quiet
  idle := twins.idle.later elapsed

theorem Twins.elapsed (twins : Twins s d) : d.elapsed = s.elapsed := by
  show d.bare.elapsed = s.bare.elapsed
  rw [twins.bare]

/-- Without tasks a millisecond passes, and nothing else happens. -/
theorem Idle.run_millis (idle : d.Idle) (reads : d.elapsed = Span.nanosPerMilli * t) :
    (d.run [.sleep (.ofMillis 1)]).1 = { d with elapsed := Span.nanosPerMilli * (t + 1) } := by
  have free : d.background.isBlocked = false := by
    rw [Background.isBlocked, idle.members]
    rfl
  have none : d.background.nextDueMilli? = none := by
    rw [Background.nextDueMilli?, idle.members]
    rfl
  have target : Span.millisUp (d.wakeTime (.ofMillis 1)) = t + 1 := by
    have one : min Ticker.longestPeriod (Span.ofMillis 1).toNanos = 1000000 := by decide
    rw [wakeTime, one, reads]
    simp only [Span.millisUp, Span.nanosPerMilli]
    omega
  have past : d.elapsed % Span.nanosPerMilli = 0 := by rw [reads, Nat.mul_mod_right]
  have slept : (d.sleep (.ofMillis 1)).1 =
      { d with elapsed := Span.nanosPerMilli * (t + 1) } := by
    rw [sleep, free, target, past]
    unfold Session.passMillis
    rw [free, none]
    rfl
  show (d.sleep (.ofMillis 1)).1.settle = _
  rw [slept, (idle.later _).settle]

theorem run_passMillis_succ (duties : List Duty) :
    (d.run (Duty.passMillis duties t (n + 1))).1 =
      (((d.run (Duty.passMillis duties t n)).1.run [.sleep (.ofMillis 1)]).1.run
        ((Duty.commandsAt duties (Span.nanosPerMilli * (t + n + 1))).map Move.run)).1 := by
  rw [Duty.passMillis, List.range_succ, List.flatMap_append, run_append, List.flatMap_singleton]
  rfl

theorem passMillis_add (duties : List Duty) (m : Nat) :
    Duty.passMillis duties t (n + m) =
      Duty.passMillis duties t n ++ Duty.passMillis duties (t + n) m := by
  rw [Duty.passMillis, List.range_add, List.flatMap_append, List.flatMap_map]
  simp only [Duty.passMillis, Nat.add_assoc]

theorem commandsAt_eq_nil {duties : List Duty} {u : Nat}
    (free : ∀ duty ∈ duties, duty.isDue u = false) : Duty.commandsAt duties u = [] := by
  have none : ∀ kind, Duty.dueCount duties kind u = 0 := by
    refine fun kind => List.countP_eq_zero.2 fun duty hd due => ?_
    rw [Bool.and_eq_true, free duty hd] at due
    cases due.2
  rw [Duty.commandsAt, none, none]
  rfl

/-- While no duty comes due, time passes without tasks, and nothing else happens. -/
theorem Idle.run_passMillis {duties : List Duty} (idle : d.Idle)
    (reads : d.elapsed = Span.nanosPerMilli * t)
    (free : ∀ duty ∈ duties, ∀ k, 0 < k → k ≤ n →
      duty.isDue (Span.nanosPerMilli * (t + k)) = false) :
    (d.run (Duty.passMillis duties t n)).1 =
      { d with elapsed := Span.nanosPerMilli * (t + n) } := by
  induction n with
  | zero =>
    rw [Nat.add_zero, ← reads]
    rfl
  | succ n ih =>
    have before := ih fun duty hd k positive le => free duty hd k positive (Nat.le_succ_of_le le)
    have none : Duty.commandsAt duties (Span.nanosPerMilli * (t + n + 1)) = [] :=
      commandsAt_eq_nil fun duty hd => free duty hd (n + 1) (Nat.succ_pos n) (Nat.le_refl _)
    rw [run_passMillis_succ, before, (idle.later _).run_millis rfl, none]
    rfl

/-! ## Duties come due -/

theorem mem_duties {duty : Duty} : duty ∈ s.duties origins ↔
    ∃ (i : Nat) (m : Member) (origin : Nat), s.background.members[i]? = some m ∧
      origins[i]? = some origin ∧ s.onDuty m = true ∧ duty = m.duty origin := by
  rw [duties, List.mem_filterMap]
  simp only [id, exists_eq_right]
  rw [List.mem_iff_getElem?]
  simp only [List.getElem?_zipWith_eq_some, duty?]
  constructor
  · rintro ⟨i, m, origin, found, from', eq⟩
    split at eq
    · next on => exact ⟨i, m, origin, found, from', on, (Option.some.inj eq).symm⟩
    · cases eq
  · rintro ⟨i, m, origin, found, from', on, rfl⟩
    exact ⟨i, m, origin, found, from', if_pos on⟩

theorem countP_zipWith {f : Member → Nat → Option Duty} {p : Member → Bool} {q : Duty → Bool}
    {members : List Member} (length : members.length = origins.length)
    (each : ∀ (i : Nat) (m : Member) (origin : Nat), members[i]? = some m →
      origins[i]? = some origin → p m = (f m origin).any q) :
    ((List.zipWith f members origins).filterMap id).countP q = members.countP p := by
  induction members generalizing origins with
  | nil => rfl
  | cons m rest ih =>
    cases origins with
    | nil => cases length
    | cons origin origins =>
      have tail := ih (Nat.succ.inj length) fun i m origin => each (i + 1) m origin
      have head := each 0 m origin rfl rfl
      rw [List.zipWith_cons_cons, List.countP_cons, ← tail, head]
      cases f m origin with
      | none => rfl
      | some duty => exact List.countP_cons

/-- No duty of a task that goes on is due between now and `instant`. -/
def FreeUntil (s : Session) (origins : List Nat) (instant : Nat) : Prop :=
  ∀ duty ∈ s.duties origins, ∀ u, s.elapsed < u → u < instant → duty.isDue u = false

variable {instant : Nat}

theorem FreeUntil.le_deadline {index origin : Nat} {m : Member} {ticker : Ticker}
    (free : s.FreeUntil origins instant) (found : s.background.members[index]? = some m)
    (from' : origins[index]? = some origin) (on : s.onDuty m = true)
    (waits : m.Waits s.elapsed origin ticker) (ahead : s.elapsed < ticker.deadline) :
    instant ≤ ticker.deadline := by
  refine Nat.le_of_not_lt fun passed => ?_
  have due := free _ (mem_duties.2 ⟨index, m, origin, found, from', on, rfl⟩) _ ahead passed
  rw [waits.deadline.due] at due
  cases due

/-- Time passes to an instant, while no duty is due before `bound`. -/
theorem Stands.passes {P : Nat → Bool → Nat → Member → Prop} {bound : Nat} (h : s.AtRest origins)
    (free : s.FreeUntil origins bound) (le : s.elapsed ≤ instant)
    (whole : instant % Span.nanosPerMilli = 0)
    (waits : ∀ {m : Member} {origin : Nat} {ticker : Ticker}, m.Waits instant origin ticker →
      s.onDuty m = true → bound ≤ ticker.deadline → P instant (s.onDuty m) origin m)
    (gone : ∀ {m : Member} {origin : Nat}, m.Gone (s.onDuty m) origin →
      P instant (s.onDuty m) origin m) :
    ({ s with elapsed := instant } : Session).Stands P origins := by
  refine ⟨h.threads, h.millis, whole, h.begins, h.length, fun index m origin found from' => ?_⟩
  cases h.each index m origin found from' with
  | waits before on ahead =>
    exact waits ⟨before.phase, before.cycle, before.period, before.deadline.mono le⟩ on
      (free.le_deadline found from' on before ahead)
  | gone ended => exact gone ended

/-- Time passes until duties may be due. -/
theorem Stands.later (h : s.AtRest origins) (free : s.FreeUntil origins instant)
    (le : s.elapsed ≤ instant) (whole : instant % Span.nanosPerMilli = 0) :
    ({ s with elapsed := instant } : Session).Poised origins :=
  h.passes free le whole (fun waits _ => .waits waits) .gone

/-- Time passes while no duty is due. -/
theorem Stands.stays (h : s.AtRest origins) (free : s.FreeUntil origins (instant + 1))
    (le : s.elapsed ≤ instant) (whole : instant % Span.nanosPerMilli = 0) :
    ({ s with elapsed := instant } : Session).AtRest origins :=
  h.passes free le whole (fun waits on => .waits waits on) .gone

/-- The calls yet to be made when time has passed are those of the duties that are due. -/
theorem Stands.calls_later (h : s.AtRest origins) (free : s.FreeUntil origins instant)
    (lt : s.elapsed < instant) (counted : instant < Ticker.horizon) :
    ({ s with elapsed := instant } : Session).calls =
      Duty.commandsAt (s.duties origins) instant := by
  have each : ∀ kind, Duty.dueCount (s.duties origins) kind instant =
      ({ s with elapsed := instant } : Session).called kind := by
    refine fun kind => countP_zipWith h.length fun index m origin found from' => ?_
    show (m.task.kind == kind && s.onDuty m && m.isCalled instant) = _
    cases on : s.onDuty m with
    | false => simp only [duty?, on, Bool.and_false, Bool.false_and, Bool.false_eq_true, if_false,
        Option.any_none]
    | true =>
      have due : m.isCalled instant = (m.duty origin).isDue instant := by
        cases h.each index m origin found from' with
        | @waits ticker waits _ ahead =>
          have reached := free.le_deadline found from' on waits ahead
          rw [Member.isCalled, waits.phase]
          rcases Nat.lt_or_eq_of_le reached with before | now
          · rw [waits.deadline.before instant lt before]
            exact decide_eq_false (Nat.not_le_of_lt before)
          · rw [now, waits.deadline.due]
            exact decide_eq_true (Nat.le_refl _)
        | gone gone =>
          obtain ⟨how, ended⟩ := gone.phase
          have never : (m.duty origin).isDue instant = false :=
            Duty.isDue_of_lt (Nat.lt_of_lt_of_le counted (gone.uncounted on))
          rw [Member.isCalled, ended, never]
      simp only [duty?, on, if_true, Option.any_some, Bool.and_true, due]
      rfl
  rw [calls, Duty.commandsAt, each, each]

theorem FreeUntil.mono (free : s.FreeUntil origins instant) {earlier : Nat}
    (le : earlier ≤ instant) : s.FreeUntil origins earlier :=
  fun duty hd u after before => free duty hd u after (Nat.lt_of_lt_of_le before le)

/-- Duties are due at whole milliseconds only. -/
theorem Stands.freeUntil {P : Nat → Bool → Nat → Member → Prop} (h : s.Stands P origins)
    (reads : s.elapsed = Span.nanosPerMilli * t)
    (free : ∀ duty ∈ s.duties origins, ∀ k, 0 < k → k < n →
      duty.isDue (Span.nanosPerMilli * (t + k)) = false) :
    s.FreeUntil origins (Span.nanosPerMilli * (t + n)) := by
  intro duty hd u after before
  refine Bool.eq_false_iff.2 fun due => ?_
  obtain ⟨index, m, origin, found, from', _, rfl⟩ := mem_duties.1 hd
  have whole := Duty.mod_of_isDue (h.begins origin (List.mem_of_getElem? from'))
    (h.millis m (List.mem_of_getElem? found)) due
  have parts := Nat.div_add_mod u Span.nanosPerMilli
  rw [whole, Nat.add_zero] at parts
  rw [← parts] at after before due
  rw [reads] at after
  have more := Nat.lt_of_mul_lt_mul_left after
  have less := Nat.lt_of_mul_lt_mul_left before
  have never := free _ hd (u / Span.nanosPerMilli - t) (by omega) (by omega)
  rw [Nat.add_sub_of_le (Nat.le_of_lt more), due] at never
  cases never

/-- Session `s` has come to millisecond `t`, as session `r`, whose tasks rest and go on with their
duties, and `d` is a twin of it. -/
structure Arrives (origins : List Nat) (s : Session) (t : Nat) (r d : Session) : Prop where
  rest : r.AtRest origins
  elapsed : r.elapsed = Span.nanosPerMilli * t
  duties : r.duties origins = s.duties origins
  twins : Twins r d

/-- Time passes at one stroke to the next time at which duties may be due, and they are done. -/
theorem Stands.arrive (h : s.AtRest origins) (twins : Twins s d)
    (reads : s.elapsed = Span.nanosPerMilli * t)
    (free : ∀ duty ∈ s.duties origins, ∀ k, 0 < k → k < n →
      duty.isDue (Span.nanosPerMilli * (t + k)) = false)
    (counted : Span.nanosPerMilli * (t + n) < Ticker.horizon) :
    Arrives origins s (t + n)
      ({ s with elapsed := Span.nanosPerMilli * (t + n) } : Session).settle
      (d.run (Duty.passMillis (s.duties origins) t n)).1 := by
  cases n with
  | zero =>
    rw [Nat.add_zero, ← reads]
    show Arrives origins s t s.settle d
    rw [h.settle_eq]
    exact ⟨h, reads, rfl, twins⟩
  | succ n =>
    have freeUntil := h.freeUntil reads free
    have lt : s.elapsed < Span.nanosPerMilli * (t + n + 1) := by
      rw [reads]
      simp only [Span.nanosPerMilli]
      omega
    have poised := h.later freeUntil (Nat.le_of_lt lt) (Nat.mul_mod_right _ _)
    obtain ⟨rest, elapsed, duties, after⟩ :=
      poised.settle (twins.later (Span.nanosPerMilli * (t + n + 1)))
    refine ⟨rest, elapsed, duties, ?_⟩
    rw [h.calls_later freeUntil lt counted] at after
    rw [run_passMillis_succ, twins.idle.run_passMillis (twins.elapsed.trans reads)
      fun duty hd k positive le => free duty hd k positive (Nat.lt_succ_of_le le),
      (twins.idle.later _).run_millis rfl]
    exact after

theorem Stands.not_blocked (h : s.AtRest origins) : s.background.isBlocked = false := by
  refine List.any_eq_false.2 fun m hm blocked => ?_
  obtain ⟨index, found⟩ := List.getElem?_of_mem hm
  obtain ⟨origin, _, rests⟩ := h.member found
  rw [Member.isBlocked, rests.cycle] at blocked
  cases blocked

/-- The earliest millisecond at which a tick can be delivered is that of a task that waits, and it
lies ahead. -/
theorem Stands.next_due (h : s.AtRest origins) (reads : s.elapsed = Span.nanosPerMilli * t)
    {next : Nat} (due : s.background.nextDueMilli? = some next) : t < next := by
  obtain ⟨among, _⟩ := List.min?_eq_some_iff.1 due
  obtain ⟨m, hm, dueMilli⟩ := List.mem_filterMap.1 among
  obtain ⟨index, found⟩ := List.getElem?_of_mem hm
  obtain ⟨origin, _, rests⟩ := h.member found
  cases rests with
  | @waits ticker waits _ ahead =>
    rw [Task.dueMilli?, waits.phase] at dueMilli
    obtain rfl := Option.some.inj dueMilli
    rw [reads] at ahead
    simp only [Ticker.dueMilli, Span.millisUp, Span.nanosPerMilli] at ahead ⊢
    omega
  | gone gone =>
    obtain ⟨how, ended⟩ := gone.phase
    rw [Task.dueMilli?, ended] at dueMilli
    cases dueMilli

/-- No duty is due before the earliest millisecond at which a tick can be delivered. -/
theorem Stands.free_before (h : s.AtRest origins) (reads : s.elapsed = Span.nanosPerMilli * t)
    (bound : Nat) (earliest : ∀ next ∈ s.background.nextDueMilli?, bound ≤ next)
    (counted : Span.nanosPerMilli * (bound - 1) < Ticker.horizon) :
    ∀ duty ∈ s.duties origins, ∀ k, 0 < k → t + k < bound →
      duty.isDue (Span.nanosPerMilli * (t + k)) = false := by
  intro duty hd k positive before
  obtain ⟨index, m, origin, found, from', on, rfl⟩ := mem_duties.1 hd
  cases h.each index m origin found from' with
  | @waits ticker waits _ _ =>
    have member : ticker.dueMilli ∈ s.background.members.filterMap fun m => m.task.dueMilli? :=
      List.mem_filterMap.2 ⟨m, List.mem_of_getElem? found, by rw [Task.dueMilli?, waits.phase]⟩
    have reached : bound ≤ ticker.dueMilli := by
      cases due : s.background.nextDueMilli? with
      | none =>
        rw [List.min?_eq_none_iff.1 due] at member
        cases member
      | some next =>
        exact Nat.le_trans (earliest next due) ((List.min?_eq_some_iff.1 due).2 _ member)
    refine waits.deadline.before _ ?_ ?_
    · rw [reads]
      simp only [Span.nanosPerMilli]
      omega
    · simp only [Ticker.dueMilli, Span.millisUp, Span.nanosPerMilli] at reached ⊢
      omega
  | gone gone =>
    refine Duty.isDue_of_lt (Nat.lt_of_lt_of_le ?_ (gone.uncounted on))
    simp only [Span.nanosPerMilli] at counted ⊢
    omega

/-- Time passes at one stroke, and no duty comes due. -/
theorem Stands.arrive_idle {target : Nat} (h : s.AtRest origins) (twins : Twins s d)
    (reads : s.elapsed = Span.nanosPerMilli * t) (ahead : t ≤ target)
    (counted : Span.nanosPerMilli * target < Ticker.horizon)
    (earliest : ∀ next ∈ s.background.nextDueMilli?, target < next) :
    Arrives origins s target { s with elapsed := Span.nanosPerMilli * target }
      (d.run (Duty.passMillis (s.duties origins) t (target - t))).1 := by
  obtain ⟨n, rfl⟩ := Nat.exists_eq_add_of_le ahead
  have free := h.free_before reads (t + n + 1) earliest counted
  have freeUntil : s.FreeUntil origins (Span.nanosPerMilli * (t + n) + 1) := by
    have all := h.freeUntil (n := n + 1) reads fun duty hd k positive lt =>
      free duty hd k positive (by omega)
    refine all.mono ?_
    simp only [Span.nanosPerMilli]
    omega
  have le : s.elapsed ≤ Span.nanosPerMilli * (t + n) := by
    rw [reads]
    exact Nat.mul_le_mul_left _ (Nat.le_add_right t n)
  refine ⟨h.stays freeUntil le (Nat.mul_mod_right _ _), rfl, rfl, ?_⟩
  rw [Nat.add_sub_cancel_left, twins.idle.run_passMillis (twins.elapsed.trans reads)
    fun duty hd k positive le => free duty hd k positive (by omega)]
  exact twins.later _

/-- Time passes evenly to millisecond `target`. -/
theorem Stands.passMillis {target : Nat} (h : s.AtRest origins) (twins : Twins s d)
    (reads : s.elapsed = Span.nanosPerMilli * t) (ahead : t ≤ target)
    (counted : Span.nanosPerMilli * target < Ticker.horizon) :
    Arrives origins s target (Session.passMillis 0 target t s).1
      (d.run (Duty.passMillis (s.duties origins) t (target - t))).1 := by
  fun_induction Session.passMillis 0 target t s generalizing d with
  | case1 t s blocked =>
    rw [h.not_blocked] at blocked
    cases blocked
  | case2 t s free idle =>
    refine h.arrive_idle twins reads ahead counted fun next due => ?_
    rw [idle] at due
    cases due
  | case3 t s free next due between ih =>
    simp only [Nat.add_zero] at ih ⊢
    obtain ⟨after, within⟩ := between
    obtain ⟨n, rfl⟩ := Nat.exists_eq_add_of_le (Nat.le_of_lt after)
    have reached : Span.nanosPerMilli * (t + n) < Ticker.horizon :=
      Nat.lt_of_le_of_lt (Nat.mul_le_mul_left _ within) counted
    have before := h.free_before reads (t + n)
      (fun other also => Nat.le_of_eq (Option.some.inj (due.symm.trans also)))
      (Nat.lt_of_le_of_lt (Nat.mul_le_mul_left _ (Nat.sub_le _ _)) reached)
    have first := h.arrive twins reads (n := n)
      (fun duty hd k positive lt => before duty hd k positive (Nat.add_lt_add_left lt t)) reached
    have rest := ih first.rest first.twins first.elapsed within
    refine ⟨rest.rest, rest.elapsed, rest.duties.trans first.duties, ?_⟩
    have twins := rest.twins
    have split : target - t = n + (target - (t + n)) := by omega
    rw [split, passMillis_add, run_append]
    rwa [first.duties] at twins
  | case4 t s free next due beyond =>
    refine h.arrive_idle twins reads ahead counted fun other also => ?_
    obtain rfl := Option.some.inj (due.symm.trans also)
    have later := h.next_due reads due
    omega

/-! ## Moves -/

/-- A quiet command of the session's own leaves tasks poised, and those that it has started begin
at once. -/
theorem Stands.finish {command : Command} (h : s.AtRest origins) (twins : Twins s d)
    (quiet : command.isQuiet true = true) :
    let after := (s.finish command.work).1
    after.Poised (after.beginnings origins) ∧ after.calls = [] ∧
      Twins after (d.finish command.work).1 := by
  intro after
  have agrees := Command.agree_work quiet s d twins
  have minds : Minds true s after := agrees.minds
  have length := h.length ▸ minds.spares.length_le
  have each : ∀ (i : Nat) (m : Member) (origin : Nat), after.background.members[i]? = some m →
      (after.beginnings origins)[i]? = some origin →
      m.Poised after.elapsed (after.onDuty m) origin ∧ m.isCalled after.elapsed = false := by
    intro i m origin found from'
    cases before : s.background.members[i]? with
    | some old =>
      obtain ⟨m', there, kept⟩ := minds.spares.kept before
      obtain rfl := Option.some.inj (found.symm.trans there)
      have inside := h.length ▸ (List.getElem?_eq_some_iff.1 before).1
      rw [beginnings, List.getElem?_append_left inside] at from'
      rw [minds.elapsed]
      exact (h.each i old origin before from').kept kept (onDuty_of_kept kept minds.stopped)
    | none =>
      obtain ⟨fresh, idle⟩ := minds.spares.fresh before found
      have outside := h.length ▸ List.getElem?_eq_none_iff.1 before
      rw [beginnings, List.getElem?_append_right outside] at from'
      refine ⟨.fresh fresh idle (List.eq_of_mem_replicate (List.mem_of_getElem? from')), ?_⟩
      rw [Member.isCalled, fresh]
  have poised : after.Poised (after.beginnings origins) := by
    refine ⟨minds.threads.trans h.threads, minds.millis h.millis, minds.elapsed ▸ h.now,
      fun origin ho => ?_, ?_, fun i m origin found from' => (each i m origin found from').1⟩
    · rcases List.mem_append.1 ho with old | new
      · exact h.begins origin old
      · rw [List.eq_of_mem_replicate new, minds.elapsed]
        exact h.now
    · rw [beginnings, List.length_append, List.length_replicate]
      omega
  have none : ∀ kind, after.called kind = 0 := by
    refine fun kind => List.countP_eq_zero.2 fun m hm called => ?_
    obtain ⟨i, found⟩ := List.getElem?_of_mem hm
    obtain ⟨origin, from', _⟩ := poised.member found
    rw [Bool.and_eq_true, (each i m origin found from').2] at called
    cases called.2
  refine ⟨poised, ?_, agrees.twins⟩
  rw [calls, none, none]
  rfl

theorem beginnings_of_rest {r : Session} (rest : r.AtRest (s.beginnings origins))
    (elapsed : r.elapsed = s.elapsed) : r.beginnings origins = s.beginnings origins := by
  have length := rest.length
  rw [beginnings, List.length_append, List.length_replicate] at length
  have more : r.background.members.length - origins.length =
      s.background.members.length - origins.length := by omega
  rw [beginnings, beginnings, more, elapsed]

theorem beginnings_eq_self (rest : s.AtRest origins) : s.beginnings origins = origins := by
  rw [beginnings, rest.length, Nat.sub_self, List.replicate_zero, List.append_nil]

/-- A sleep lets time pass evenly. -/
theorem Stands.sleep {span : Span} (h : s.AtRest origins) (twins : Twins s d)
    (reads : s.elapsed = Span.nanosPerMilli * t) (whole : span.toNanos % Span.nanosPerMilli = 0)
    (counted : Span.nanosPerMilli * (t + (Move.sleep span).millis) < Ticker.horizon) :
    Arrives origins s (t + (Move.sleep span).millis) (s.move (.sleep span)).1
      (d.run (Duty.passMillis (s.duties origins) t (Move.sleep span).millis)).1 := by
  have target : Span.millisUp (s.wakeTime span) = t + (Move.sleep span).millis := by
    simp only [wakeTime, reads, Move.millis, Span.millisUp, Span.nanosPerMilli,
      Ticker.longestPeriod] at whole ⊢
    omega
  have slept : (s.sleep span).1 =
      (Session.passMillis 0 (t + (Move.sleep span).millis) t s).1 := by
    have back : s.elapsed / Span.nanosPerMilli = t := by
      rw [reads, Nat.mul_div_cancel_left t (by decide)]
    rw [Session.sleep, h.not_blocked, target, h.now, back]
    rfl
  have arrives := h.passMillis twins reads (Nat.le_add_right t _) counted
  rw [Nat.add_sub_cancel_left, ← slept] at arrives
  have settled : (s.move (.sleep span)).1 = (s.sleep span).1 := arrives.rest.settle_eq
  rw [settled]
  exact arrives

/-- So does a jump that overtakes no duty. -/
theorem Stands.jump {span : Span} (h : s.AtRest origins) (twins : Twins s d)
    (reads : s.elapsed = Span.nanosPerMilli * t)
    (even : (Move.jump span).isEven (s.duties origins) t = true)
    (counted : Span.nanosPerMilli * (t + (Move.jump span).millis) < Ticker.horizon) :
    Arrives origins s (t + (Move.jump span).millis) (s.move (.jump span)).1
      (d.run (Duty.passMillis (s.duties origins) t (Move.jump span).millis)).1 := by
  simp only [Move.isEven, Bool.and_eq_true, beq_iff_eq, List.all_eq_true, List.mem_range,
    Bool.or_eq_true, Bool.not_eq_true'] at even
  obtain ⟨whole, free⟩ := even
  have jumped : s.elapsed + span.toNanos =
      Span.nanosPerMilli * (t + (Move.jump span).millis) := by
    have parts := Nat.div_add_mod span.toNanos Span.nanosPerMilli
    rw [whole, Nat.add_zero] at parts
    rw [reads, Move.millis, Nat.mul_add, parts]
  have arrives := h.arrive twins reads (fun duty hd k positive lt => by
    rcases free k lt with zero | none
    · omega
    · exact none duty hd) counted
  rw [← jumped] at arrives
  exact arrives

/-- A move ends with tasks that rest, and with a twin that has done their duties itself. -/
theorem Stands.move {m : Move} (h : s.AtRest origins) (twins : Twins s d)
    (even : m.isEven (s.duties origins) (s.elapsed / Span.nanosPerMilli) = true)
    (counted : s.elapsed + Span.nanosPerMilli * m.millis < Ticker.horizon) :
    let after := (s.move m).1
    after.AtRest (after.beginnings origins) ∧
      Twins after
        (d.run (m.direct (s.duties origins) (s.elapsed / Span.nanosPerMilli))).1 := by
  have reads : s.elapsed = Span.nanosPerMilli * (s.elapsed / Span.nanosPerMilli) := by
    have parts := Nat.div_add_mod s.elapsed Span.nanosPerMilli
    rw [h.now, Nat.add_zero] at parts
    exact parts.symm
  generalize s.elapsed / Span.nanosPerMilli = t at reads even ⊢
  rw [reads, ← Nat.mul_add] at counted
  have arrived : ∀ {n : Nat} {r d' : Session}, Arrives origins s n r d' →
      r.AtRest (r.beginnings origins) ∧ Twins r d' := fun arrives =>
    ⟨(beginnings_eq_self arrives.rest).symm ▸ arrives.rest, arrives.twins⟩
  cases m with
  | run command =>
    obtain ⟨poised, none, after⟩ := h.finish twins even
    obtain ⟨rest, elapsed, _, settled⟩ := poised.settle after
    rw [none] at settled
    show (s.finish command.work).1.settle.AtRest
      ((s.finish command.work).1.settle.beginnings origins) ∧
        Twins (s.finish command.work).1.settle (d.run [.run command]).1
    rw [beginnings_of_rest rest elapsed, Idle.run_command after.idle]
    exact ⟨rest, settled⟩
  | sleep span => exact arrived (h.sleep twins reads (eq_of_beq even) counted)
  | jump span => exact arrived (h.jump twins reads even counted)

theorem Stands.run {moves : List Move} (h : s.AtRest origins) (twins : Twins s d)
    (even : s.isEven origins moves = true) :
    Twins (s.run moves).1 (d.run (s.direct origins moves)).1 := by
  induction moves generalizing s d origins with
  | nil => exact twins
  | cons m rest ih =>
    simp only [isEven, Bool.and_eq_true, decide_eq_true_eq] at even
    obtain ⟨⟨first, counted⟩, others⟩ := even
    obtain ⟨rests, after⟩ := h.move twins first counted
    rw [direct, run_append]
    exact ih rests after others

end Time

/-! ## Every session -/

/-- There are no tasks in the session of a new cache, and it has a twin on which none can be
started. -/
theorem twins_ofCache (ttl : Span) (limit : Option Nat) {time : TimeSource}
    (steady : ∀ reading, time.clock ≠ .system reading) :
    Twins (ofCache ttl limit time true) (ofCache ttl limit time false) :=
  ⟨rfl, steady, nofun, ⟨rfl, rfl, rfl⟩⟩

theorem atRest_ofCache (ttl : Span) (limit : Option Nat) (time : TimeSource) :
    (ofCache ttl limit time true).AtRest [] :=
  ⟨rfl, nofun, rfl, nofun, rfl, nofun⟩

/-- Whatever even moves a session makes in virtual time, whichever tasks it starts, aborts and
stops, and whatever quiet callbacks do, fail or panic: its entries, its statistics and the calls
of callbacks, one after the other, are those of a session without background tasks whose caller
makes the same moves and does the duties of the tasks directly. The duty of a refresh worker is
to refresh, that of a flush task is to flush, one interval after the task first ran and at every
period from then on, until it is stopped or aborted. The period is the interval, cut to the longest
one. -/
theorem background_does_duties (ttl : Span) (limit : Option Nat) (time : TimeSource)
    (steady : ∀ reading, time.clock ≠ .system reading) (moves : List Move)
    (even : (ofCache ttl limit time true).isEven [] moves = true) :
    let s := ((ofCache ttl limit time true).run moves).1
    let d := ((ofCache ttl limit time false).run
      ((ofCache ttl limit time true).direct [] moves)).1
    d.background.members = [] ∧ d.cache.entries = s.cache.entries ∧
      d.cache.slots = s.cache.slots ∧ d.cache.stats = s.cache.stats ∧
      d.journal.calls = s.journal.calls ∧
      d.journal.trace.map (fun r => (r.name, r.number)) =
        s.journal.trace.map (fun r => (r.name, r.number)) ∧
      d.sources = s.sources ∧ d.elapsed = s.elapsed ∧ d.clock = s.clock := by
  intro s d
  have twins : Twins s d :=
    (atRest_ofCache ttl limit time).run (twins_ofCache ttl limit steady) even
  have entries : d.bare.cache.entries = s.bare.cache.entries := by rw [twins.bare]
  have slots : d.bare.cache.slots = s.bare.cache.slots := by rw [twins.bare]
  have stats : d.bare.cache.stats = s.bare.cache.stats := by rw [twins.bare]
  have calls : d.bare.journal.calls = s.bare.journal.calls := by rw [twins.bare]
  have trace : d.bare.journal.trace = s.bare.journal.trace := by rw [twins.bare]
  have sources : d.bare.sources = s.bare.sources := by rw [twins.bare]
  have clock : d.bare.clock = s.bare.clock := by rw [twins.bare]
  have named : ∀ t : Session, t.journal.trace.map (fun r => (r.name, r.number)) =
      t.bare.journal.trace.map (fun r => (r.name, r.number)) := fun t => by
    show _ = (t.journal.trace.map TraceRecord.bare).map _
    rw [List.map_map]
    rfl
  exact ⟨twins.idle.members, entries, slots, stats, calls, by rw [named d, trace, named s], sources,
    twins.elapsed, clock⟩

/-- A worker with an interval of 10 ms, whose callback sets an entry that is at once expired, and
a flush task with one of 7 ms, both stopped after 30 ms: the caller refreshes three times and
flushes four times, and two of the entries that were set are flushed. -/
theorem background_does_duties_interleaved :
    let expired : List Build := [.expires (.inSecs 0)]
    let step : WarmCache.Step := .mk none [.act (.set "new" 3 expired)] (.counted 5)
    let source : Fetcher := .mk "source" step [] false []
    let moves : List Move := [
      .run (.batch [.act (.set "kept" 1 [.refresh source]),
        .act (.channel (.create "stop")),
        .act (.task (.start .refreshWorker "worker" (.ofMillis 10) "stop")),
        .act (.task (.start .flusher "flush" (.ofMillis 7) "stop"))]),
      .sleep (.ofMillis 28), .jump (.ofMillis 2), .run (.act (.channel (.stop "stop"))),
      .sleep (.ofMillis 20)]
    let time : TimeSource := .running ⟨⟨0, 0⟩, by decide⟩
    let d := ((ofCache (.ofMillis 15) none time false).run
      ((ofCache (.ofMillis 15) none time true).direct [] moves)).1
    d.background.members = [] ∧
      d.cache.entries.map (fun e => (e.1, e.2.item)) = [("kept", 8), ("new", 3)] ∧
      d.cache.stats.flushed = 2 ∧ d.journal.calls = [("source", 3)] := by
  intro expired step source moves time d
  have even : (ofCache (.ofMillis 15) none time true).isEven [] moves = true := by decide +kernel
  obtain ⟨idle, entries, _, stats, calls, _⟩ :=
    background_does_duties _ none time (fun _ => Clock.noConfusion) moves even
  rw [idle, entries, stats, calls]
  decide +kernel

/-- Direct calls at every whole number of intervals are not what background work amounts to when
time jumps past some of these points: a worker refreshes once and not three times. Nor are they
when the interval is beyond the longest period: it refreshes twice before two intervals have
passed. -/
theorem background_leaves_interval_grid :
    let step : WarmCache.Step := .mk none [] (.item 5)
    let setUp := fun interval : Span => [
      .run (.act (.set "a" 1 [.refresh (.mk "source" step [] false [])])),
      .run (.act (.channel (.create "stop"))),
      .run (.act (.task (.start .refreshWorker "worker" interval "stop")))]
    let calls := fun (hasRuntime : Bool) (moves : List Move) =>
      ((ofCache (.ofSecs 60) none (.running ⟨⟨0, 0⟩, by decide⟩) hasRuntime).run
        moves).1.journal.calls
    let second : List Move := [.sleep (.ofSecs 1), .run .refresh]
    let thirtyYears : Move := .sleep (.ofSecs 946080000)
    (calls true (setUp (.ofSecs 1) ++ [.jump (.ofSecs 3)]) = [("source", 1)] ∧
      calls false (setUp (.ofSecs 1) ++ second ++ second ++ second) = [("source", 3)]) ∧
    (calls true (setUp (.ofSecs 946080001) ++
        [thirtyYears, .sleep (.ofSecs 1), thirtyYears]) = [("source", 2)] ∧
      calls false (setUp (.ofSecs 946080001) ++ [thirtyYears] ++ second ++ [thirtyYears]) =
        [("source", 1)]) := by
  decide +kernel

end Session

end WarmCache
