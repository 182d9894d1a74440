import WarmCache.Demo
import WarmCache.Proofs.EarlyStops
import WarmCache.Proofs.Expiring

/-!
# What comes of the service

The service reads its settings, puts a first version into its cache, starts two tasks, is told to
shut down and reports what it has. If that comes before the first ticks of its tasks, all that it
reports follows from its settings. Of several faults in them the one counts that it comes to first.

Results:
1. `seed_of_limit_ne_zero`, `seed_of_limit_eq_zero`: the first version is put into the cache, unless
   the limit is 0.
2. `startTasks_cases`: then both tasks are started, unless one of the intervals is 0.
3. `report_of_unticked`: in whatever order the tasks go on, the service ends well.
4. `serve_cases`, `serve_endsWell`: the service from its settings to its end.
5. `settings_decide_outcome`: all of it, from the environment to the exit code.
-/

namespace WarmCache

namespace Interval

theorem ofSpan?_ofSecs_zero : ofSpan? (.ofSecs 0) = none := rfl

/-- A span of some seconds is an interval. -/
theorem exists_ofSecs {secs : Nat} (h : secs ≠ 0) :
    ∃ i, ofSpan? (.ofSecs secs) = some i ∧ i.span = .ofSecs secs := by
  have pos : 0 < (Span.ofSecs secs).toNanos := by
    simp only [Span.ofSecs, Span.toNanos, Span.nanosPerSec]
    omega
  exact ⟨⟨_, pos⟩, dif_pos pos, rfl⟩

end Interval

namespace Demo

/-- When the service begins, its tasks can count to their first ticks. -/
def Occasion.Counts (o : Occasion) (settings : Settings) : Prop :=
  ∀ interval ∈ [settings.refreshInterval, settings.flushInterval],
    o.begins + interval.toNanos < Ticker.horizon

/-- The service is told to shut down before the first ticks of its tasks. -/
def Occasion.BeforeTicks (o : Occasion) (settings : Settings) : Prop :=
  ∀ interval ∈ [settings.refreshInterval, settings.flushInterval],
    Span.nanosPerMilli * o.delay < interval.toNanos

/-- The two intervals of the settings, neither of which is 0. -/
structure Schedule (settings : Settings) where
  refresh : Interval
  flush : Interval
  refresh_span : refresh.span = settings.refreshInterval
  flush_span : flush.span = settings.flushInterval

variable {settings : Settings} {o : Occasion}

/-! ## The first version -/

/-- The session in which the first version has been fetched. -/
def fetched (settings : Settings) (o : Occasion) : Session :=
  { opening settings o with
    clock := o.clock.tick.tick
    sources := [⟨"remote", .mk none [] (.counted 0), [], false, 1⟩]
    journal := ⟨[("remote", 1)], [.mk "remote" 1 []], []⟩ }

/-- The expiry of the first version. -/
def firstExpiry (settings : Settings) (o : Occasion) : Instant :=
  (ExpiryPolicy.ofTtl settings.ttl).expiryFrom o.seeding

/-- The session in which the first version is in the cache. -/
def seeded (settings : Settings) (o : Occasion) : Session :=
  { fetched settings o with
    cache :=
      { (fetched settings o).cache with
        entries := [(serviceId, ⟨1, firstExpiry settings o, some ⟨0, []⟩⟩)]
        slots := 1 } }

/-- The first version is fetched without fail, so that all depends on whether it can be put into the
cache. -/
theorem seed_opening (settings : Settings) (o : Occasion) :
    seed (opening settings o) =
      ((fetched settings o).set serviceId ⟨1, none, some ⟨0, []⟩⟩).map id
        (Except.mapError Failure.refused) := rfl

theorem seed_of_limit_ne_zero (h : settings.limit ≠ 0) :
    seed (opening settings o) = (seeded settings o, .ok ()) := by
  have absent : (fetched settings o).cache.entries.contains serviceId = false := rfl
  have room : (fetched settings o).cache.HasRoom := by
    intro limit same
    change settings.capacityLimit = some limit at same
    show (0 : Int) < limit
    unfold Settings.capacityLimit at same
    split at same
    · cases same
    · obtain rfl := Option.some.inj same
      omega
  rw [seed_opening, Session.set, Cache.set_of_hasRoom absent room]
  rfl

theorem seed_of_limit_eq_zero (h : settings.limit = 0) :
    (seed (opening settings o)).2 = .error (.refused (.capacityExceeded 0)) := by
  have absent : (fetched settings o).cache.entries.contains serviceId = false := rfl
  have limit : (fetched settings o).cache.limit = some 0 := by
    show settings.capacityLimit = some 0
    rw [Settings.capacityLimit, h]
    rfl
  rw [seed_opening, Session.set, Cache.set_of_full absent limit (Int.le_refl 0)]
  rfl

/-! ## The tasks -/

/-- The session in which both tasks have been started. -/
def armed (o : Occasion) (schedule : Schedule settings) : Session :=
  { seeded settings o with
    cache := (seeded settings o).cache.claim true
    stops := ⟨[.idle], [("stop", 0)], [("stop", ⟨0, 0⟩), ("refresh", ⟨0, 0⟩)]⟩
    background :=
      { Background.empty with
        members :=
          [⟨.spawn .refreshWorker schedule.refresh ⟨0, 0⟩, none⟩,
            ⟨.spawn .flusher schedule.flush ⟨0, 0⟩, none⟩] } }

/-- One of the intervals is 0, or both tasks are started. -/
theorem startTasks_cases (settings : Settings) (o : Occasion) :
    ((settings.refreshSecs = 0 ∨ settings.flushSecs = 0) ∧
      startTasks (seeded settings o) settings = .error .invalidInterval) ∨
    (¬ (settings.refreshSecs = 0 ∨ settings.flushSecs = 0) ∧ ∃ schedule : Schedule settings,
      startTasks (seeded settings o) settings = .ok (armed o schedule)) := by
  unfold startTasks Session.startTask
  by_cases refreshes : settings.refreshSecs = 0
  · refine .inl ⟨.inl refreshes, ?_⟩
    rw [Settings.refreshInterval, refreshes, Interval.ofSpan?_ofSecs_zero]
    rfl
  · obtain ⟨refresh, isRefresh, refresh_span⟩ := Interval.exists_ofSecs refreshes
    rw [Settings.refreshInterval, isRefresh]
    by_cases flushes : settings.flushSecs = 0
    · refine .inl ⟨.inr flushes, ?_⟩
      rw [Settings.flushInterval, flushes, Interval.ofSpan?_ofSecs_zero]
      rfl
    · obtain ⟨flush, isFlush, flush_span⟩ := Interval.exists_ofSecs flushes
      refine .inr ⟨not_or.2 ⟨refreshes, flushes⟩, ⟨refresh, flush, refresh_span, flush_span⟩, ?_⟩
      rw [Settings.flushInterval, isFlush]
      rfl

section Armed

variable {schedule : Schedule settings} {s : Session} {m : Member}

theorem orderly_armed (o : Occasion) (schedule : Schedule settings) :
    (armed o schedule).Orderly where
  light := by
    intro source there
    obtain rfl := List.mem_singleton.1 there
    rfl
  stored := by
    intro pair there callback stored
    obtain rfl := List.mem_singleton.1 there
    obtain rfl := Option.some.inj stored
    exact Nat.one_pos
  held := nofun
  whole := by
    refine ⟨nofun, fun m there => .inl ?_⟩
    rcases List.mem_pair.1 there with rfl | rfl <;> rfl

theorem untouched_armed (schedule : Schedule settings) (counts : o.Counts settings) :
    (armed o schedule).Untouched (armed o schedule) := by
  refine .begins rfl (fun m there => ?_) fun m there => ?_
  · rcases List.mem_pair.1 there with rfl | rfl <;> rfl
  · rcases List.mem_pair.1 there with rfl | rfl
    · exact ⟨rfl, rfl, .fresh, counts _ (List.mem_pair.2 (.inl schedule.refresh_span))⟩
    · exact ⟨rfl, rfl, .fresh, counts _ (List.mem_pair.2 (.inr schedule.flush_span))⟩

/-- Both tasks are on the one channel of the service, at the two intervals of its settings. -/
theorem brief_of_armed (untouched : (armed o schedule).Untouched s)
    (there : m ∈ s.background.members) :
    m.task.interval.span ∈ [settings.refreshInterval, settings.flushInterval] ∧
      m.task.signal.channel = 0 := by
  obtain ⟨m₀, among, brief⟩ := untouched.exists_brief there
  obtain ⟨-, interval, channel⟩ : m₀.task.kind = m.task.kind ∧
      m₀.task.interval = m.task.interval ∧
      m₀.task.signal.channel = m.task.signal.channel := by
    simpa only [Member.brief, Prod.mk.injEq] using brief
  rw [← interval, ← channel]
  rcases List.mem_pair.1 among with rfl | rfl
  · exact ⟨List.mem_pair.2 (.inl schedule.refresh_span), rfl⟩
  · exact ⟨List.mem_pair.2 (.inr schedule.flush_span), rfl⟩

/-! ## The end -/

/-- The service has ended well. After these notices it has found the first version, which made one
hit, and both tasks have begun and were stopped. -/
structure Result.EndsWell (result : Result) (settings : Settings) (o : Occasion)
    (notices : List Notice) : Prop where
  failure : result.failure = none
  notices : result.notices =
    notices ++ [.finalEntry 1 (firstExpiry settings o), .finalStats ⟨⟨1, 0, 0, 0, 0, 0⟩, 1⟩]
  events : ∃ schedule : Schedule settings, result.events.Perm
    [.begun .refreshWorker schedule.refresh, .stopped .refreshWorker,
      .begun .flusher schedule.flush, .stopped .flusher]

/-- However the tasks have gone on and whenever the service was told to shut down, as long as no
tick fell due before that. -/
theorem report_of_unticked (counts : o.Counts settings) (unticked : (armed o schedule).Unticked s)
    (settled : s.pieces = []) (told : ∀ m ∈ s.background.members, s.isTold m = true)
    (notices : List Notice) : (report s notices).EndsWell settings o notices := by
  obtain ⟨ended, ⟨taken, cache⟩, events⟩ :=
    unticked.ends (untouched_armed schedule counts) settled told
  have calm : panicked? s = none := by
    refine List.findSome?_eq_none_iff.2 fun m there => ?_
    rw [ended m there]
  have reported : report s notices =
      ⟨notices ++ [.finalEntry 1 (firstExpiry settings o), .finalStats ⟨⟨1, 0, 0, 0, 0, 0⟩, 1⟩],
        s.journal.events.reverse, none⟩ := by
    simp only [report, calm, Session.get, cache, List.append_assoc]
    rfl
  rw [reported]
  refine ⟨rfl, rfl, schedule, (List.reverse_perm _).trans (events.trans ?_)⟩
  exact .trans (.swap ..) (.cons _ (.cons _ (.swap ..)))

/-- Time passes at one stroke if no tick falls due. -/
theorem await_of_spared {b : Session} (h : b.Untouched s) {millis : Nat}
    (spared : ∀ m ∈ s.background.members,
      m.Spared (s.elapsed + Span.nanosPerMilli * millis) false) :
    await s millis = { s with elapsed := s.elapsed + Span.nanosPerMilli * millis } := by
  have whole := Nat.div_add_mod s.elapsed Span.nanosPerMilli
  have reached : Span.nanosPerMilli * (s.elapsed / Span.nanosPerMilli + millis) +
      s.elapsed % Span.nanosPerMilli = s.elapsed + Span.nanosPerMilli * millis := by
    rw [Nat.mul_add]
    omega
  have ahead : ∀ due, s.background.nextDueMilli? = some due →
      s.elapsed / Span.nanosPerMilli + millis < due := by
    intro due next
    rw [← Nat.add_mul_div_left _ _ (by decide : 0 < Span.nanosPerMilli)]
    exact Session.lt_nextDueMilli spared next
  simp only [await, Session.passMillis_of_lt h.isBlocked ahead, reached]

/-- The service waits, is told to shut down and stops its tasks. -/
theorem shutDown_endsWell (counts : o.Counts settings) (before : o.BeforeTicks settings)
    (notices : List Notice) :
    (shutDown (await (armed o schedule).settle o.delay) notices o.signal).EndsWell settings o
      (notices ++ [.received o.signal, .stopping]) := by
  have order := orderly_armed o schedule
  have begins := untouched_armed schedule counts
  have begun : (armed o schedule).Unticked (armed o schedule).settle :=
    Session.Unticked.begins.settle
  have elapsed : (armed o schedule).settle.elapsed = o.begins := (Session.atOnce_settle _).elapsed
  have spared : ∀ m ∈ (armed o schedule).settle.background.members,
      m.Spared (o.begins + Span.nanosPerMilli * o.delay) false := by
    intro m there
    have interval := (brief_of_armed (begun.untouched begins) there).1
    exact (begun.untouched begins).spared order.pieces_settle there
      (Nat.add_lt_add_left (before _ interval) _)
  have waits := await_of_spared (begun.untouched begins) (elapsed.symm ▸ spared)
  have waited : (armed o schedule).Unticked (await (armed o schedule).settle o.delay) := by
    rw [waits, elapsed]
    exact begun.time (elapsed ▸ Nat.le_add_right _ _) fun m there => (spared m there).mono _
  have asked := waited.stop "stop"
  have stops : (askToStop (await (armed o schedule).settle o.delay)).settle.stops =
      (armed o schedule).stops.stop "stop" := by
    rw [askToStop, (asked.untouched begins).stops_settle, waits]
    exact congrArg (fun stops => Stops.stop stops "stop") begins.stops_settle
  refine report_of_unticked counts asked.settle (asked.orderly order).pieces_settle
    (fun m there => ?_) _
  rw [Session.isTold, (brief_of_armed (asked.settle.untouched begins) there).2]
  exact (congrArg (fun stops => Stops.isStopped stops 0) stops).trans rfl

end Armed

/-! ## The whole service -/

/-- The service comes to the first thing that is wrong with its settings, or it runs. -/
theorem serve_cases (settings : Settings) (o : Occasion) :
    (settings.limit = 0 ∧
      serve settings o = ⟨[.loaded settings], [], some (.refused (.capacityExceeded 0))⟩) ∨
    (settings.limit ≠ 0 ∧ (settings.refreshSecs = 0 ∨ settings.flushSecs = 0) ∧
      serve settings o = ⟨[.loaded settings], [], some (.refused .invalidInterval)⟩) ∨
    (settings.limit ≠ 0 ∧ ¬ (settings.refreshSecs = 0 ∨ settings.flushSecs = 0) ∧
      ∃ schedule : Schedule settings, serve settings o =
        shutDown (await (armed o schedule).settle o.delay) [.loaded settings] o.signal) := by
  by_cases limit : settings.limit = 0
  · obtain ⟨s, refused⟩ : ∃ s, seed (opening settings o) =
        (s, .error (.refused (.capacityExceeded 0))) :=
      ⟨_, Prod.ext rfl (seed_of_limit_eq_zero limit)⟩
    exact .inl ⟨limit, by simp only [serve, refused]⟩
  · have seeds : seed (opening settings o) = _ := seed_of_limit_ne_zero limit
    rcases startTasks_cases settings o with ⟨zero, refused⟩ | ⟨positive, schedule, starts⟩
    · exact .inr (.inl ⟨limit, zero, by simp only [serve, seeds, refused]⟩)
    · exact .inr (.inr ⟨limit, positive, schedule, by simp only [serve, seeds, starts]⟩)

/-- A service that runs is refused nothing. -/
theorem report_not_refused (s : Session) (notices : List Notice) (e : CacheError) :
    (report s notices).failure ≠ some (.refused e) := by
  unfold report
  cases panicked? s with
  | none => exact nofun
  | some message => exact nofun

theorem capacityExceeded_iff (settings : Settings) (o : Occasion) (limit : Nat) :
    (serve settings o).failure = some (.refused (.capacityExceeded limit)) ↔
      settings.limit = 0 ∧ limit = 0 := by
  rcases serve_cases settings o with ⟨zero, eq⟩ | ⟨other, _, eq⟩ | ⟨other, _, _, eq⟩
  · rw [eq]
    constructor
    · intro same
      cases same
      exact ⟨zero, rfl⟩
    · rintro ⟨_, rfl⟩
      rfl
  · rw [eq]
    exact ⟨nofun, fun both => absurd both.1 other⟩
  · rw [eq]
    exact ⟨fun same => absurd same (report_not_refused _ _ _), fun both => absurd both.1 other⟩

theorem invalidInterval_iff (settings : Settings) (o : Occasion) :
    (serve settings o).failure = some (.refused .invalidInterval) ↔
      settings.limit ≠ 0 ∧ (settings.refreshSecs = 0 ∨ settings.flushSecs = 0) := by
  rcases serve_cases settings o with ⟨limit, eq⟩ | ⟨limit, zero, eq⟩ | ⟨_, positive, _, eq⟩
  · rw [eq]
    exact ⟨nofun, fun both => absurd limit both.1⟩
  · rw [eq]
    exact ⟨fun _ => ⟨limit, zero⟩, fun _ => rfl⟩
  · rw [eq]
    exact ⟨fun same => absurd same (report_not_refused _ _ _), fun both => absurd both.2 positive⟩

/-- After the step that fails the service itself reports nothing. -/
theorem notices_of_misconfigured
    (h : settings.limit = 0 ∨ settings.refreshSecs = 0 ∨ settings.flushSecs = 0) :
    (serve settings o).notices = [.loaded settings] := by
  rcases serve_cases settings o with ⟨_, eq⟩ | ⟨_, _, eq⟩ | ⟨limit, positive, _⟩
  · rw [eq]
  · rw [eq]
  · exact absurd h (not_or.2 ⟨limit, positive⟩)

/-- No time is shorter than an interval of 0. -/
theorem Occasion.BeforeTicks.positive (h : o.BeforeTicks settings) :
    ¬ (settings.refreshSecs = 0 ∨ settings.flushSecs = 0) := by
  rintro (zero | zero)
  · have refresh := h _ (List.mem_pair.2 (.inl rfl))
    rw [Settings.refreshInterval, zero] at refresh
    exact Nat.not_lt_zero _ refresh
  · have flush := h _ (List.mem_pair.2 (.inr rfl))
    rw [Settings.flushInterval, zero] at flush
    exact Nat.not_lt_zero _ flush

theorem serve_endsWell (limit : settings.limit ≠ 0) (counts : o.Counts settings)
    (before : o.BeforeTicks settings) :
    (serve settings o).EndsWell settings o [.loaded settings, .received o.signal, .stopping] := by
  rcases serve_cases settings o with ⟨zero, _⟩ | ⟨_, zero, _⟩ | ⟨_, _, schedule, eq⟩
  · exact absurd zero limit
  · exact absurd zero before.positive
  · rw [eq]
    exact shutDown_endsWell counts before [.loaded settings]

/-- However the tasks go on, once they were asked to stop they come to their end, and with them the
service. -/
theorem ends_in_any_order {s b t : Session} (seeds : seed (opening settings o) = (s, .ok ()))
    (starts : startTasks s settings = .ok b) (counts : o.Counts settings)
    (unticked : b.Unticked t) (told : ∀ m ∈ t.background.members, t.isTold m = true) :
    t.settle.pieces = [] ∧
      (t.pieces = [] → (∀ m ∈ t.background.members, m.task.phase = .ended .stopped) ∧
        ∀ notices, (report t notices).EndsWell settings o notices) := by
  have limit : settings.limit ≠ 0 := by
    intro zero
    have refused : (seed (opening settings o)).2 = _ := seed_of_limit_eq_zero zero
    rw [seeds] at refused
    cases refused
  rw [seed_of_limit_ne_zero limit] at seeds
  obtain rfl : seeded settings o = s := (Prod.mk.inj seeds).1
  rcases startTasks_cases settings o with ⟨_, refused⟩ | ⟨_, schedule, started⟩
  · cases refused.symm.trans starts
  · obtain rfl := Except.ok.inj (started.symm.trans starts)
    have ended := unticked.ends (untouched_armed schedule counts)
    exact ⟨(unticked.orderly (orderly_armed o schedule)).pieces_settle, fun settled =>
      ⟨(ended settled told).1, report_of_unticked counts unticked settled told⟩⟩

/-! ## From the environment to the exit code -/

theorem runOn_of_filter {env : Environment} {filter : LogFilter}
    (set : logFilter? env = some filter) (time : Instant → String) :
    runOn o time env = transcript filter time (serve (Settings.load env) o) := by
  simp only [runOn, set]

/-- With the filter that holds where none is set, all is heard that the service itself reports. -/
theorem mainLines_transcript (time : Instant → String) (result : Result) :
    (transcript ownEvents time result).mainLines =
      result.notices.map fun n => n.level.text ++ " " ++ n.text time := by
  have heard : ∀ n : Notice, line? ownEvents "config_cache" [] n.level (n.text time) =
      some (n.level.text ++ " " ++ n.text time) := by
    intro n
    cases n <;> rfl
  show result.notices.filterMap _ = _
  simp only [heard, List.filterMap_eq_map']

/-- The outcome of the service in every environment, by every clock and in either way of telling it
to shut down, before the first ticks of its tasks. A limit of 0 counts before an interval of 0, and
after either of them the service itself reports nothing. If there is neither and the tasks can count
to their first ticks, both are stopped and the service ends well, in whatever order they go on. All
that the other settings make a difference to is the expiry of the first version: it is the plain
sum, with any lifetime, or the last instant if the sum is past it. -/
theorem settings_decide_outcome (env : Environment) (o : Occasion) (time : Instant → String) :
    let settings := Settings.load env
    let result := serve settings o
    let seen := runOn o time env
    (∀ limit, result.failure = some (.refused (.capacityExceeded limit)) ↔
        settings.limit = 0 ∧ limit = 0) ∧
      (result.failure = some (.refused .invalidInterval) ↔
        settings.limit ≠ 0 ∧ (settings.refreshSecs = 0 ∨ settings.flushSecs = 0)) ∧
      (settings.limit = 0 ∨ settings.refreshSecs = 0 ∨ settings.flushSecs = 0 →
        result.notices = [.loaded settings]) ∧
      (settings.limit ≠ 0 → o.Counts settings → o.BeforeTicks settings →
        result.EndsWell settings o [.loaded settings, .received o.signal, .stopping]) ∧
      (∀ s b, seed (opening settings o) = (s, .ok ()) → startTasks s settings = .ok b →
        o.Counts settings → ∀ t, b.Unticked t →
        (∀ m ∈ t.background.members, t.isTold m = true) →
        t.settle.pieces = [] ∧
          (t.pieces = [] → (∀ m ∈ t.background.members, m.task.phase = .ended .stopped) ∧
            ∀ notices, (report t notices).EndsWell settings o notices)) ∧
      (o.seeding.Ordinary →
        (firstExpiry settings o).Ordinary ∧
          (firstExpiry settings o).toNanos =
            min (o.seeding.toNanos + settings.ttl.toNanos) Instant.latest.toNanos) ∧
      (∀ filter, logFilter? env = some filter →
        seen.exitCode = (if result.failure = none then 0 else 1) ∧
          seen.errorLines = result.failure.toList.map fun f => "Error: " ++ f.text) ∧
      (env "RUST_LOG" = none →
        seen.mainLines = result.notices.map fun n => n.level.text ++ " " ++ n.text time) := by
  intro settings result seen
  refine ⟨capacityExceeded_iff settings o, invalidInterval_iff settings o,
    notices_of_misconfigured, serve_endsWell,
    fun s b seeds starts counts t => ends_in_any_order seeds starts counts, ?_,
    fun filter set => ?_, fun unset => ?_⟩
  · intro ordinary
    exact ⟨ordinary_expiryFrom ordinary, toNanos_expiryFrom ordinary⟩
  · have through : seen = transcript filter time result := runOn_of_filter set time
    rw [through]
    refine ⟨?_, rfl⟩
    show (if result.failure.isSome then 1 else 0) = _
    cases result.failure <;> rfl
  · have own : logFilter? env = some ownEvents := by
      simp only [logFilter?, Settings.variableText, unset]
      rfl
    have through : seen = transcript ownEvents time result := runOn_of_filter own time
    rw [through]
    exact mainLines_transcript time result

/-- With the longest lifetime and a negative limit, told to shut down a millisecond before the first
flush, the service ends well with a version that never expires. -/
theorem settings_decide_outcome_longest :
    let env : Environment := fun name =>
      if name = "CACHE_TTL_SECS" then some "18446744073709551615".toUTF8
      else if name = "CACHE_LIMIT" then some " -3\n".toUTF8
      else none
    let o : Occasion := ⟨.system ⟨⟨1748736000, 0⟩, by decide⟩, 0, 59999, .terminate⟩
    (runOn o (fun _ => "") env).exitCode = 0 ∧
      (serve (Settings.load env) o).notices =
        [.loaded ⟨18446744073709551615, 180, 60, -3⟩, .received .terminate, .stopping,
          .finalEntry 1 .latest, .finalStats ⟨⟨1, 0, 0, 0, 0, 0⟩, 1⟩] := by
  intro env o
  have loaded : Settings.load env = ⟨18446744073709551615, 180, 60, -3⟩ := by decide
  obtain ⟨_, _, _, ends, _, expiry, code, _⟩ := settings_decide_outcome env o fun _ => ""
  rw [loaded] at ends expiry code ⊢
  have well := ends (by decide) (by unfold Occasion.Counts; decide)
    (by unfold Occasion.BeforeTicks; decide)
  obtain ⟨within, number⟩ := expiry ⟨by decide, by decide, by decide⟩
  have never : firstExpiry ⟨18446744073709551615, 180, 60, -3⟩ o = .latest :=
    within.eq_of_toNanos .latest (number.trans (by decide))
  refine ⟨?_, ?_⟩
  · rw [(code ownEvents rfl).1, well.failure]
    rfl
  · rw [well.notices, never]
    rfl

end Demo

end WarmCache
