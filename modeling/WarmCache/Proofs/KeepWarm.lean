import WarmCache.Proofs.Draining
import WarmCache.Proofs.Punctual

/-!
# Entries that are kept warm

A refresh worker whose interval is no longer than the lifetime of entries keeps an entry warm whose
callback always succeeds, if it comes in time. Between two moves a session settles, so time that
passes evenly overtakes no turn of a worker. Only a jump may: then the ticks that it overtook are
late, and a flush that comes first removes the entry.

Results:
1. `Timely.run`: all times of a session are whole milliseconds if its jumps are.
2. `Tended.passMillis`: time that passes evenly overtakes no turn of a worker.
3. `alwaysSucceeds_of_isReliable`: callbacks whose steps only end with items always succeed.
4. `worker_keeps_warm`: an entry that is set while a worker is on duty is there as long as it is.
-/

namespace WarmCache

/-! ## Whole milliseconds -/

theorem Ticker.next_mod {t : Ticker} {now : Nat} (whole : now % Span.nanosPerMilli = 0)
    (deadline : t.deadline % Span.nanosPerMilli = 0) (period : t.period % Span.nanosPerMilli = 0) :
    t.next now % Span.nanosPerMilli = 0 := by
  have whole := Nat.dvd_of_mod_eq_zero whole
  have deadline := Nat.dvd_of_mod_eq_zero deadline
  have period := Nat.dvd_of_mod_eq_zero period
  refine Nat.mod_eq_zero_of_dvd ?_
  unfold next
  split
  · split
    · have past := (Nat.dvd_mod_iff period).2 (Nat.dvd_sub whole deadline)
      exact Nat.dvd_sub (Nat.dvd_add whole period) past
    · exact Nat.dvd_add whole period
  · exact Nat.dvd_add deadline period

namespace Member

/-- If the interval of a task is a whole number of milliseconds, so are its deadline and its
period. -/
def OnMillis (m : Member) : Prop :=
  m.task.interval.toNanos % Span.nanosPerMilli = 0 → ∀ ticker, m.task.HasTicker ticker →
    ticker.deadline % Span.nanosPerMilli = 0 ∧ ticker.period % Span.nanosPerMilli = 0

theorem Steps.onMillis {now : Nat} {channel : StopChannel} {m m' : Member}
    (h : m.Steps now channel m') (whole : now % Span.nanosPerMilli = 0) (before : m.OnMillis) :
    m'.OnMillis := by
  intro interval ticker has
  rw [h.interval] at interval
  rcases h.hasTicker has with old | starts | ⟨last, old, _, rfl⟩
  · exact before interval ticker old
  · obtain ⟨deadline, period, _⟩ := Ticker.start?_eq_some starts
    refine ⟨?_, ?_⟩
    · rw [deadline]
      exact Nat.mod_eq_zero_of_dvd (Nat.dvd_add (Nat.dvd_of_mod_eq_zero whole)
        (Nat.dvd_of_mod_eq_zero interval))
    · rw [period]
      exact Ticker.cut_mod interval
  · obtain ⟨deadline, period⟩ := before interval last old
    exact ⟨Ticker.next_mod whole deadline period, period⟩

end Member

namespace Session

variable {s t : Session} {index : Nat} {m : Member}

/-- An orderly session at a whole millisecond, whose tasks wait for whole milliseconds, and work
only if they have a cycle or are to be aborted. -/
structure Timely (s : Session) : Prop where
  order : s.Orderly
  now : s.elapsed % Span.nanosPerMilli = 0
  onMillis : ∀ m ∈ s.background.members, m.OnMillis
  busy : ∀ m ∈ s.background.members, m.Busy

/-- What holds of a task before it has run, and is kept by every step of its life at this time,
holds of all tasks for as long as no time passes. -/
theorem AtOnce.members {P : Member → Prop} (atOnce : AtOnce s t)
    (fresh : ∀ m, m.task.phase = .fresh → P m)
    (steps : ∀ channel m m', Member.Steps s.elapsed channel m m' → P m → P m')
    (before : ∀ m ∈ s.background.members, P m) : ∀ m ∈ t.background.members, P m := by
  induction atOnce with
  | refl => exact before
  | @tail r t first step ih =>
    intro m' there
    obtain ⟨i, found'⟩ := List.getElem?_of_mem there
    cases found : r.background.members[i]? with
    | none => exact fresh m' (step.1.newMember found found').1
    | some m =>
      obtain ⟨m'', found'', life⟩ := step.1.member found
      obtain rfl := Option.some.inj (found'.symm.trans found'')
      rw [AtOnce.elapsed first] at life
      exact steps _ m m' life (ih m (List.mem_of_getElem? found))

namespace Timely

theorem of_atOnce (h : s.Timely) (order : t.Orderly) (atOnce : AtOnce s t) : t.Timely where
  order := order
  now := by
    rw [atOnce.elapsed]
    exact h.now
  onMillis := atOnce.members
    (fun _ fresh _ _ has => by rcases has with has | has <;> cases fresh.symm.trans has)
    (fun _ _ _ life before => life.onMillis h.now before) h.onMillis
  busy := atOnce.members (fun _ fresh _ working => by cases fresh.symm.trans working)
    (fun _ _ _ life before => life.busy before) h.busy

theorem settle (h : s.Timely) : s.settle.Timely := by
  obtain ⟨done, eq⟩ := settleWithin_follows (sparePieces + s.backlog) s
  have order : s.settle.Orderly := by
    rw [Session.settle, eq]
    refine h.order.follow fun happening member => ?_
    obtain ⟨piece, _, rfl⟩ := List.mem_map.1 member
    rfl
  exact h.of_atOnce order (atOnce_settle s)

theorem finish (h : s.Timely) {command : Command} (light : command.isLight true = true) :
    (s.finish command.work).1.Timely :=
  h.of_atOnce (h.order.finish light) (during_finish command.work s).atOnce

theorem later (h : s.Timely) {elapsed : Nat} (whole : elapsed % Span.nanosPerMilli = 0) :
    ({ s with elapsed } : Session).Timely :=
  ⟨⟨h.order.light, h.order.stored, h.order.held, h.order.whole⟩, whole, h.onMillis, h.busy⟩

theorem reads (h : s.Timely) :
    s.elapsed = Span.nanosPerMilli * (s.elapsed / Span.nanosPerMilli) := by
  have parts := Nat.div_add_mod s.elapsed Span.nanosPerMilli
  rw [h.now, Nat.add_zero] at parts
  exact parts.symm

theorem passMillis (h : s.Timely) (target t : Nat) :
    (Session.passMillis 0 target t s).1.Timely := by
  fun_induction Session.passMillis 0 target t s with
  | case1 => exact h
  | case2 => exact h.later (Nat.mul_mod_right _ _)
  | case3 t s free next due between ih => exact ih (h.later (Nat.mul_mod_right _ _)).settle
  | case4 => exact h.later (Nat.mul_mod_right _ _)

theorem sleep (h : s.Timely) (span : Span) : (s.sleep span).1.Timely := by
  unfold Session.sleep
  split
  · exact h
  · rw [h.now]
    exact h.passMillis _ _

end Timely

end Session

/-! ## Moves -/

/-- A move is no command or a light one. -/
def Move.isLight : Move → Bool
  | .run c => c.isLight true
  | _ => true

/-- A jump is over a whole number of milliseconds. -/
def Move.isWhole : Move → Bool
  | .jump d => d.toNanos % Span.nanosPerMilli == 0
  | _ => true

/-- A move is no command that writes or removes something under the key. -/
def Move.spares (key : String) : Move → Bool
  | .run c => c.spares key
  | _ => true

namespace Session

variable {s t : Session} {index : Nat} {m : Member}

theorem Timely.act (h : s.Timely) {move : Move} (light : move.isLight = true)
    (whole : move.isWhole = true) : (s.act move).1.Timely := by
  cases move with
  | run command => exact h.finish light
  | sleep span => exact h.sleep span
  | jump span =>
    refine h.later (Nat.mod_eq_zero_of_dvd (Nat.dvd_add ?_ ?_))
    · exact Nat.dvd_of_mod_eq_zero h.now
    · exact Nat.dvd_of_mod_eq_zero (eq_of_beq whole)

/-- After light moves over whole milliseconds all times are whole milliseconds. -/
theorem Timely.run (h : s.Timely) {moves : List Move}
    (light : ∀ move ∈ moves, move.isLight = true) (whole : ∀ move ∈ moves, move.isWhole = true) :
    (s.run moves).1.Timely := by
  induction moves generalizing s with
  | nil => exact h
  | cons move rest ih =>
    rw [List.forall_mem_cons] at light whole
    exact ih (h.act light.1 whole.1).settle light.2 whole.2

/-- A move is no jump or one that overtakes no turn of task `index`. -/
def isInTime (index : Nat) (s : Session) : Move → Bool
  | .jump d => s.inTime index (.time d.toNanos)
  | _ => true

/-- No jump overtakes a turn of task `index`. -/
def jumpsInTime (index : Nat) (s : Session) : List Move → Bool
  | [] => true
  | move :: rest => s.isInTime index move && (s.move move).1.jumpsInTime index rest

/-! ## Time that passes evenly -/

/-- When nothing can go on, the earliest millisecond at which a tick can be delivered lies
ahead. -/
theorem next_due_of_settled (settled : s.pieces = []) {next : Nat}
    (due : s.background.nextDueMilli? = some next) :
    s.elapsed / Span.nanosPerMilli < next := by
  obtain ⟨among, _⟩ := List.min?_eq_some_iff.1 due
  obtain ⟨m, member, dueMilli⟩ := List.mem_filterMap.1 among
  obtain ⟨index, found⟩ := List.getElem?_of_mem member
  unfold Task.dueMilli? at dueMilli
  split at dueMilli
  · next ticker phase =>
    obtain rfl := Option.some.inj dueMilli
    have ahead := ((look_idle_waiting phase).1 (look_idle_of_pieces settled found)).2
    exact Nat.lt_of_not_le (of_decide_eq_false ahead)
  · cases dueMilli

/-- When nothing can go on, no turn of a task comes before the earliest millisecond at which a tick
can be delivered. -/
theorem Timely.inTime (h : s.Timely) (settled : s.pieces = [])
    (interval : ∀ m, s.background.members[index]? = some m →
      m.task.interval.toNanos % Span.nanosPerMilli = 0) {until' : Nat}
    (earliest : ∀ next ∈ s.background.nextDueMilli?, until' ≤ next) {nanos : Nat}
    (within : s.elapsed + nanos ≤ Span.nanosPerMilli * until') :
    s.inTime index (.time nanos) = true := by
  unfold Session.inTime
  cases found : s.background.members[index]? with
  | none => rfl
  | some m =>
    have member := List.mem_of_getElem? found
    simp only [Option.all_some, Bool.or_eq_true, Bool.not_eq_true']
    cases on : s.onDuty m with
    | false => exact .inl rfl
    | true =>
      refine .inr ?_
      rcases h.order.waits_of_settled settled (h.busy m member) found on with
        ⟨how, phase⟩ | ⟨ticker, phase, _⟩
      · rw [Member.awaits, phase]
      · have among : ticker.dueMilli ∈
            s.background.members.filterMap fun m => m.task.dueMilli? :=
          List.mem_filterMap.2 ⟨m, member, by rw [Task.dueMilli?, phase]⟩
        have reached : until' ≤ ticker.dueMilli := by
          cases due : s.background.nextDueMilli? with
          | none =>
            rw [List.min?_eq_none_iff.1 due] at among
            cases among
          | some next =>
            exact Nat.le_trans (earliest next due) ((List.min?_eq_some_iff.1 due).2 _ among)
        obtain ⟨deadline, _⟩ := h.onMillis m member (interval m found) ticker (.inl phase)
        rw [Member.awaits, phase]
        simp only [Bool.or_eq_true, decide_eq_true_eq]
        refine .inr (Nat.le_trans within ?_)
        simp only [Ticker.dueMilli, Span.millisUp, Span.nanosPerMilli] at reached deadline ⊢
        omega

section Tended

variable {ttl : Span} {start : Timestamp} {key : String} {callback : Callback}

/-- An entry is tended by a worker whose interval is a whole number of milliseconds, at a whole
millisecond. -/
structure Watched (ttl : Span) (start : Timestamp) (key : String) (callback : Callback)
    (index : Nat) (s : Session) : Prop extends Tended ttl start key callback index s, Timely s where
  interval : ∀ m, s.background.members[index]? = some m →
    m.task.interval.toNanos % Span.nanosPerMilli = 0

namespace Watched

theorem of_tended (h : s.Watched ttl start key callback index) (proceeds : Proceeds s t)
    (tended : t.Tended ttl start key callback index) (timely : t.Timely) :
    t.Watched ttl start key callback index := by
  refine ⟨tended, timely.now, timely.onMillis, timely.busy, fun m' there => ?_⟩
  obtain ⟨m, found, _⟩ := h.worker
  obtain ⟨m'', found', _, interval, _⟩ := Proceeds.member proceeds found
  obtain rfl := Option.some.inj (there.symm.trans found')
  rw [interval]
  exact h.interval m found

theorem settle (h : s.Watched ttl start key callback index) :
    s.settle.Watched ttl start key callback index := by
  refine h.of_tended (atOnce_settle s).proceeds ?_ h.toTimely.settle
  unfold Session.settle
  generalize sparePieces + s.backlog = pieces
  have tended := h.toTended
  clear h
  -- on the pieces that may still be done; in between nothing need be settled
  induction pieces generalizing s with
  | zero => exact tended
  | succ pieces ih =>
    unfold settleWithin step?
    cases s.pieces.head? with
    | none => exact tended
    | some piece => exact ih (tended.piece piece)

/-- Time passes to a millisecond before which no tick can be delivered. -/
theorem later (h : s.Watched ttl start key callback index) (settled : s.pieces = [])
    {target : Nat} (ahead : s.elapsed ≤ Span.nanosPerMilli * target)
    (earliest : ∀ next ∈ s.background.nextDueMilli?, target ≤ next) :
    ({ s with elapsed := Span.nanosPerMilli * target } : Session).Watched ttl start key callback
      index := by
  have inTime := h.toTimely.inTime settled h.interval earliest
    (Nat.le_of_eq (Nat.add_sub_cancel' ahead))
  have tended := h.toTended.time inTime
  rw [Nat.add_sub_cancel' ahead] at tended
  exact h.of_tended (.single ⟨.time _, ahead⟩) tended (h.toTimely.later (Nat.mul_mod_right _ _))

/-- Time that passes evenly overtakes no turn of a worker. -/
theorem passMillis (h : s.Watched ttl start key callback index) (settled : s.pieces = [])
    {target t : Nat} (reads : s.elapsed = Span.nanosPerMilli * t) (ahead : t ≤ target) :
    (Session.passMillis 0 target t s).1.Watched ttl start key callback index := by
  have upTo : ∀ {u : Nat}, t ≤ u → s.elapsed ≤ Span.nanosPerMilli * u :=
    fun le => reads ▸ Nat.mul_le_mul_left _ le
  -- on the stops: time goes on to the earliest tick, and the session settles there before it goes
  -- on again
  fun_induction Session.passMillis 0 target t s with
  | case1 => exact h
  | case2 t s free idle =>
    refine h.later settled (upTo ahead) fun next due => ?_
    rw [idle] at due
    cases due
  | case3 t s free next due between ih =>
    have there := h.later settled (upTo (Nat.le_of_lt between.1)) fun other also =>
      Nat.le_of_eq (Option.some.inj (due.symm.trans also))
    have elapsed := (atOnce_settle { s with elapsed := Span.nanosPerMilli * next }).elapsed
    refine ih there.settle (Orderly.pieces_settle there.order) elapsed between.2 fun {u} le => ?_
    exact elapsed ▸ Nat.mul_le_mul_left _ le
  | case4 t s free next due beyond =>
    refine h.later settled (upTo ahead) fun other also => ?_
    obtain rfl := Option.some.inj (due.symm.trans also)
    have later := next_due_of_settled settled due
    rw [reads, Nat.mul_div_cancel_left t (by decide)] at later
    omega

theorem sleep (h : s.Watched ttl start key callback index) (settled : s.pieces = [])
    (span : Span) : (s.sleep span).1.Watched ttl start key callback index := by
  unfold Session.sleep
  split
  · exact h
  · rw [h.now]
    refine h.passMillis settled h.toTimely.reads ?_
    simp only [wakeTime, Span.millisUp, Span.nanosPerMilli]
    omega

/-- Light moves that spare the key keep the entry tended, if no jump overtakes a turn of the
worker. -/
theorem run (h : s.Watched ttl start key callback index) (settled : s.pieces = [])
    {moves : List Move} (light : ∀ move ∈ moves, move.isLight = true)
    (whole : ∀ move ∈ moves, move.isWhole = true)
    (spared : ∀ move ∈ moves, move.spares key = true)
    (inTime : s.jumpsInTime index moves = true) :
    (s.run moves).1.Watched ttl start key callback index := by
  induction moves generalizing s with
  | nil => exact h
  | cons move rest ih =>
    rw [List.forall_mem_cons] at light whole spared
    rw [jumpsInTime, Bool.and_eq_true] at inTime
    have acted : (s.act move).1.Watched ttl start key callback index := by
      have timely := h.toTimely.act light.1 whole.1
      cases move with
      | run command =>
        exact h.of_tended (proceeds_act s _) (h.toTended.command light.1 spared.1) timely
      | sleep span => exact h.sleep settled span
      | jump span => exact h.of_tended (proceeds_act s _) (h.toTended.time inTime.1) timely
    exact ih acted.settle (Orderly.pieces_settle acted.order) light.2 whole.2 spared.2 inTime.2

end Watched

end Tended

/-! ## Callbacks that always succeed -/

end Session

/-- An attempt that ends so comes to an item. -/
def Ending.isItem : Ending → Bool
  | .item _ => true
  | .counted _ => true
  | _ => false

/-- All steps of a source do nothing but end with an item. -/
def Source.isReliable (s : Source) : Bool :=
  (s.first :: s.rest).all fun step => step.isPlain && step.ending.isItem

theorem Source.answers_of_isReliable {s : Source} (reliable : s.isReliable = true) (n : Nat) :
    ∃ item, s.answers n = .ok item := by
  have one := List.all_eq_true.1 reliable _ (s.step_mem n)
  rw [Bool.and_eq_true] at one
  unfold Source.answers
  cases ending : (s.step n).ending with
  | item i => exact ⟨i, rfl⟩
  | counted base => exact ⟨base + n + 1, rfl⟩
  | failed text =>
    rw [ending] at one
    cases one.2
  | panicked text =>
    rw [ending] at one
    cases one.2

/-- What comes to an item at once needs no retries. -/
theorem withRetries_ok {f : StateM Nat (Outcome Int)} (items : ∀ n, ∃ item, (f n).1 = .ok item)
    (retries : List Nat) (n : Nat) : ∃ item, (withRetries f retries n).1 = .ok item := by
  induction retries generalizing f with
  | nil => exact items n
  | cons tries rest ih =>
    refine ih fun n => ?_
    obtain ⟨item, eq⟩ := items n
    cases tries with
    | zero => exact ⟨item, eq⟩
    | succ tries =>
      have returned : f n = (.ok item, (f n).2) := Prod.ext eq rfl
      rw [retrying_succ_of_returned returned nofun]
      exact ⟨item, rfl⟩

namespace Session

variable {s t : Session}

/-- A source stays for as long as a session goes on, and only its attempts are counted. -/
theorem Proceeds.source (proceeds : Proceeds s t) {i : Nat} {source : Source}
    (found : s.sources[i]? = some source) :
    ∃ attempts, t.sources[i]? = some { source with attempts } := by
  induction proceeds with
  | refl => exact ⟨source.attempts, found⟩
  | tail _ step ih =>
    obtain ⟨attempts, there⟩ := ih
    cases step.1 with
    | request q =>
      obtain ⟨more, kept⟩ := (grows_answer _ q).kept there
      exact ⟨more, kept⟩
    | look index =>
      rcases look_passes _ index with ⟨eq, _⟩ | ⟨_, _, _, _, _, _, passes⟩
      · rw [eq]
        exact ⟨attempts, there⟩
      · rw [passes.sources]
        exact ⟨attempts, there⟩
    | @cycleEnds index result _ =>
      rcases endCycle_cases _ index result with eq | ⟨_, _, _, _, _, _, eq⟩
      · rw [eq]
        exact ⟨attempts, there⟩
      · rw [eq]
        exact ⟨attempts, there⟩
    | cycleMoves | threads | runtime | time => exact ⟨attempts, there⟩

/-- A callback always succeeds if all steps of its source are reliable. -/
theorem alwaysSucceeds_of_isReliable {callback : Callback} {source : Source}
    (found : s.sources[callback.source]? = some source) (reliable : source.isReliable = true) :
    s.AlwaysSucceeds callback := by
  intro t proceeds
  obtain ⟨attempts, there⟩ := Proceeds.source proceeds found
  have plain : source.isPlain = true := List.all_eq_true.2 fun step member =>
    (Bool.and_eq_true_iff.1 (List.all_eq_true.1 reliable step member)).1
  obtain ⟨_, used, eq, _⟩ := uses_call plain 999 callback.retries t attempts there
  obtain ⟨item, succeeds⟩ := withRetries_ok (f := nextAnswer source.answers)
    (source.answers_of_isReliable reliable) callback.retries attempts
  exact ⟨item, (congrArg Prod.fst eq).symm.trans succeeds⟩

/-! ## The main result -/

/-- Task `index` is a refresh worker on duty, whose interval is no longer than `ttl`. -/
def HasWorker (s : Session) (ttl : Span) (index : Nat) : Prop :=
  ∃ m ∈ s.background.members[index]?, m.task.kind = .refreshWorker ∧
    m.task.interval.toNanos ≤ ttl.toNanos ∧ s.onDuty m = true

instance (s : Session) (ttl : Span) (index : Nat) : Decidable (s.HasWorker ttl index) :=
  inferInstanceAs (Decidable (∃ m ∈ _, _))

/-- An entry is set under the key without an expiry of its own, and the entry that is there then
has this callback, which is light like all that the settings bring and always succeeds. -/
structure SetsReliable (s : Session) (key : String) (item : Int) (settings : List Build)
    (callback : Callback) : Prop where
  light : Build.areLight settings = true
  implicit : ∀ moment, .expires moment ∉ settings
  entry : ∃ e ∈ (s.finish (Command.act (.set key item settings)).work).1.cache.entries.find? key,
    e.refresh = some callback
  succeeds : (s.finish (Command.act (.set key item settings)).work).1.AlwaysSucceeds callback

section KeepWarm

variable {ttl : Span} {start : Timestamp} {limit : Option Nat} {hasRuntime : Bool} {key : String}
  {callback : Callback} {index : Nat} {item : Int} {settings : List Build}

theorem SetsReliable.isLight (sets : s.SetsReliable key item settings callback) :
    (Command.act (.set key item settings)).isLight true = true := sets.light

/-- An entry that is set while a worker is on duty is tended by it. -/
theorem SetsReliable.tended (sets : s.SetsReliable key item settings callback) (order : s.Orderly)
    (runs : s.Runs ttl start) (armed : s.AllArmed) (worker : s.HasWorker ttl index) :
    (s.finish (Command.act (.set key item settings)).work).1.Tended ttl start key callback
      index := by
  have passed := during_finish (Command.act (.set key item settings)).work s
  obtain ⟨m, found, kind, short, _⟩ := worker
  obtain ⟨m', there, kept⟩ := passed.spares.kept found
  obtain ⟨e, present, stored⟩ := sets.entry
  have armed' := Proceeds.allArmed passed.atOnce.proceeds armed
  refine ⟨order.finish sets.isLight, armed', m', there, kept.kind.trans kind, ?_, fun _ => ?_⟩
  · rw [kept.interval]
    exact short
  · refine (runs.warm_set sets.implicit rfl present stored sets.succeeds).mono ?_
    refine Nat.le_trans (armed' index m' there).nextTurn_le ?_
    rw [passed.atOnce.elapsed, kept.interval]
    exact Nat.add_le_add_left short _

theorem SetsReliable.watched (sets : s.SetsReliable key item settings callback) (timely : s.Timely)
    (runs : s.Runs ttl start) (armed : s.AllArmed) (worker : s.HasWorker ttl index)
    (interval : ∀ m ∈ s.background.members[index]?,
      m.task.interval.toNanos % Span.nanosPerMilli = 0) :
    (s.finish (Command.act (.set key item settings)).work).1.Watched ttl start key callback
      index := by
  have passed := during_finish (Command.act (.set key item settings)).work s
  have after := timely.finish sets.isLight
  refine ⟨sets.tended timely.order runs armed worker, after.now, after.onMillis, after.busy,
    fun m' there => ?_⟩
  obtain ⟨m, found, _⟩ := worker
  obtain ⟨m'', there', kept⟩ := passed.spares.kept found
  obtain rfl := Option.some.inj (there.symm.trans there')
  rw [kept.interval]
  exact interval m found

/-- The settings bring one callback, which is reliable, and there is room for the entry. -/
theorem setsReliable_of_fetcher {s : Session} {fetcher : Fetcher}
    (reliable : (Source.ofFetcher fetcher).isReliable = true)
    (fits : s.cache.entries.contains key = true ∨ s.cache.HasRoom) :
    s.SetsReliable key item [.refresh fetcher] ⟨s.sources.length, fetcher.retries⟩ := by
  have light : fetcher.isLight = true := by
    rw [← Source.isLight_ofFetcher]
    refine Step.areLight_iff.2 fun step member => ?_
    have plain := (Bool.and_eq_true_iff.1 (List.all_eq_true.1 reliable step member)).1
    simp only [Step.isPlain, Bool.and_eq_true, Option.isNone_iff_eq_none, List.isEmpty_iff,
      Bool.not_eq_true'] at plain
    obtain ⟨⟨noGate, noCommands⟩, returns⟩ := plain
    exact Step.isLight_iff.2 ⟨noGate, by rw [noCommands]; rfl, returns⟩
  have built : s.build item [.refresh fetcher] =
      ({ s with sources := s.sources ++ [.ofFetcher fetcher] },
        ⟨item, none, some ⟨s.sources.length, fetcher.retries⟩⟩) := by
    obtain ⟨_, _, _, _, _⟩ := fetcher
    rfl
  have sources : (s.finish (Command.act (.set key item [.refresh fetcher])).work).1.sources =
      s.sources ++ [.ofFetcher fetcher] := by
    rw [Command.work, Command.workWith]
    show (s.build item [.refresh fetcher]).1.sources = _
    rw [built]
  have implicit : ∀ moment, .expires moment ∉ [Build.refresh fetcher] := by
    intro moment member
    cases List.mem_singleton.1 member
  refine ⟨Bool.and_eq_true_iff.2 ⟨light, rfl⟩, implicit, ?_, ?_⟩
  · rw [s.entries_set, Cache.find?_set_self fits, built]
    exact ⟨_, rfl, rfl⟩
  · have found : (s.sources ++ [Source.ofFetcher fetcher])[s.sources.length]? =
        some (.ofFetcher fetcher) := List.getElem?_concat_length
    exact alwaysSucceeds_of_isReliable (sources ▸ found) reliable

theorem timely_ofCache (ttl : Span) (limit : Option Nat) (time : TimeSource)
    (hasRuntime : Bool) : (ofCache ttl limit time hasRuntime).Timely :=
  ⟨orderly_ofCache ttl limit time hasRuntime, rfl, nofun, nofun⟩

/-- An entry that is set while a refresh worker is on duty is there, and has not expired, for as
long as the worker is on duty, if the interval of the worker is no longer than the lifetime of
entries, the entry has no expiry of its own, its callback always succeeds, and nothing else is set
or deleted under its key. This is so after anything that happens, in any order, if no time
overtakes a turn of the worker; and after all moves over whole milliseconds, if no jump does. -/
theorem worker_keeps_warm (ordinary : start.nanos < Span.nanosPerSec) :
    (∀ before after : List Happening,
      let s := ((ofCache ttl limit (.running start) hasRuntime).follow before).1
      let t := (s.finish (Command.act (.set key item settings)).work).1
      (∀ happening ∈ before, happening.isLight = true) →
      s.HasWorker ttl index → s.SetsReliable key item settings callback →
      (∀ happening ∈ after, happening.isLight = true ∧ happening.spares key = true) →
      t.staysInTime index after = true →
      (t.follow after).1.Keeps key callback index) ∧
    ∀ before after : List Move,
      let s := ((ofCache ttl limit (.running start) hasRuntime).run before).1
      let t := (s.move (.run (.act (.set key item settings)))).1
      (∀ move ∈ before, move.isLight = true ∧ move.isWhole = true) →
      s.HasWorker ttl index → s.SetsReliable key item settings callback →
      (∀ m ∈ s.background.members[index]?, m.task.interval.toNanos % Span.nanosPerMilli = 0) →
      (∀ move ∈ after, move.isLight = true ∧ move.isWhole = true ∧ move.spares key = true) →
      t.jumpsInTime index after = true →
      (t.run after).1.Keeps key callback index := by
  have begins := runs_ofCache ttl ordinary limit hasRuntime
  have unarmed : (ofCache ttl limit (.running start) hasRuntime).AllArmed := nofun
  constructor
  · intro before after s t light worker sets further inTime
    have proceeds := proceeds_follow (ofCache ttl limit (.running start) hasRuntime) before
    have order : s.Orderly := (orderly_ofCache ttl limit _ hasRuntime).follow light
    have tended := sets.tended order (begins.proceeds proceeds) (Proceeds.allArmed proceeds unarmed)
      worker
    exact (tended.follow (fun happening member => (further happening member).1)
      (fun happening member => (further happening member).2) inTime).keeps
  · intro before after s t light worker sets interval further inTime
    have proceeds := proceeds_run (ofCache ttl limit (.running start) hasRuntime) before
    have timely : s.Timely := (timely_ofCache ttl limit _ hasRuntime).run
      (fun move member => (light move member).1) (fun move member => (light move member).2)
    have watched := sets.watched timely (begins.proceeds proceeds)
      (Proceeds.allArmed proceeds unarmed) worker interval
    exact (watched.settle.run (Orderly.pieces_settle watched.order)
      (fun move member => (further move member).1) (fun move member => (further move member).2.1)
      (fun move member => (further move member).2.2) inTime).keeps

/-- A flush and a cycle fall on one instant, and the interval of the worker is the lifetime of
entries: whichever comes first, the entry is kept. -/
theorem worker_keeps_warm_same_instant :
    let settings : List Build := [.refresh (.mk "source" (.mk none [] (.counted 0)) [] false [])]
    let setUp : List Command := [
      .act (.channel (.create "stop")),
      .act (.task (.start .flusher "flusher" (.ofMillis 500) "stop")),
      .act (.task (.start .refreshWorker "worker" (.ofMillis 1000) "stop"))]
    let empty := ofCache (.ofMillis 1000) none (.running ⟨⟨0, 0⟩, by decide⟩) true
    let s := ((empty.follow (setUp.map .command)).1.finish
      (Command.act (.set "a" 0 settings)).work).1
    let t := ((empty.run (setUp.map .run)).1.move (.run (.act (.set "a" 0 settings)))).1
    let looks : List Happening := [.piece (.look 0), .piece (.look 1)]
    let late := (s.follow (looks ++ .time 1000000000 :: looks ++ .piece (.cycle 1) ::
      .time 1000000000 :: looks)).1
    let slept := (t.run [.jump (.ofMillis 1000), .sleep (.ofMillis 4000)]).1
    (late.Keeps "a" ⟨0, []⟩ 1 ∧ late.HasWorker (.ofMillis 1000) 1) ∧
      slept.Keeps "a" ⟨0, []⟩ 1 ∧ slept.HasWorker (.ofMillis 1000) 1 := by
  intro settings setUp empty s t looks late slept
  have late' : late.Keeps "a" ⟨0, []⟩ 1 :=
    (worker_keeps_warm (by decide)).1 (setUp.map .command) _ (by decide +kernel)
      (by decide +kernel) (setsReliable_of_fetcher (by decide) (.inr nofun)) (by decide +kernel)
      (by decide +kernel)
  have slept' : slept.Keeps "a" ⟨0, []⟩ 1 :=
    (worker_keeps_warm (by decide)).2 (setUp.map .run) _ (by decide +kernel)
      (by decide +kernel) (setsReliable_of_fetcher (by decide) (.inr nofun)) (by decide +kernel)
      (by decide +kernel) (by decide +kernel)
  exact ⟨⟨late', by decide +kernel⟩, slept', by decide +kernel⟩

/-- A jump of time overtakes four turns of a worker. The flush task began first, so its flush comes
before the late cycle and removes the entry, and there is nothing left to refresh. -/
theorem overtaken_turn_loses_entry :
    let settings : List Build := [.refresh (.mk "source" (.mk none [] (.counted 0)) [] false [])]
    let setUp : List Command := [
      .act (.channel (.create "stop")),
      .act (.task (.start .flusher "flusher" (.ofMillis 500) "stop")),
      .act (.task (.start .refreshWorker "worker" (.ofMillis 1000) "stop"))]
    let s := ((ofCache (.ofMillis 1000) none (.running ⟨⟨0, 0⟩, by decide⟩) true).run
      (setUp.map .run)).1
    let t := (s.move (.run (.act (.set "a" 0 settings)))).1
    let u := (t.run [.jump (.ofMillis 5000)]).1
    (s.HasWorker (.ofMillis 1000) 1 ∧ s.SetsReliable "a" 0 settings ⟨0, []⟩) ∧
      t.Keeps "a" ⟨0, []⟩ 1 ∧
      u.HasWorker (.ofMillis 1000) 1 ∧ u.cache.entries.contains "a" = false := by
  intro settings setUp s t u
  have reliable : s.SetsReliable "a" 0 settings ⟨0, []⟩ :=
    setsReliable_of_fetcher (by decide) (.inr nofun)
  exact ⟨⟨by decide +kernel, reliable⟩, by decide +kernel, by decide +kernel, by decide +kernel⟩

end KeepWarm

end Session

end WarmCache
