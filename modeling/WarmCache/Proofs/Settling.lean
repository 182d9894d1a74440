import WarmCache.Proofs.Endings
import WarmCache.Proofs.Grid
import WarmCache.Proofs.Twins
import WarmCache.Proofs.Duties

/-!
# Settling

As long as tasks keep to their duties, the background does what the duties that are due ask for,
and nothing else. A twin without tasks that makes the calls directly stays a twin.

Results:
1. `Stands.look`, `Stands.cycle`: one piece of background work lets one task go on. Either
   nothing is done that counts, or it is the next of the calls yet to be made.
2. `Stands.settle`: when nothing can go on any more, all of these calls are made, each once, and
   every task that goes on waits for the next time that its duty is due.
-/

namespace WarmCache

namespace Session

/-! ## Pieces of work -/

/-- A piece of background work leads from `s` to `t`, and what it does there the calls that come
first of those yet to be done do in the twin `d` of `s`. -/
structure Advances (origins : List Nat) (s d t : Session) : Prop where
  poised : t.Poised origins
  elapsed : t.elapsed = s.elapsed
  duties : t.duties origins = s.duties origins
  less : t.backlog < s.backlog
  twins : ∃ calls, s.calls = calls ++ t.calls ∧ Twins t (d.run (calls.map Move.run)).1

/-- What is changed beside everything else does not count. -/
theorem Twins.beside {s d t : Session} (h : Twins s d) (bare : t.bare = s.bare) : Twins t d where
  bare := bare.trans h.bare
  steady reading := by
    have clock : t.bare.clock = s.bare.clock := by rw [bare]
    show t.bare.clock ≠ _
    rw [clock]
    exact h.steady reading
  quiet source hs := by
    have sources : t.bare.sources = s.bare.sources := by rw [bare]
    change source ∈ t.bare.sources at hs
    rw [sources] at hs
    exact h.quiet source hs
  idle := h.idle

theorem settle_eq_self {s : Session} (none : s.step? = none) : s.settle = s := by
  unfold settle
  generalize sparePieces + s.backlog = pieces
  cases pieces with
  | zero => rfl
  | succ pieces => simp only [settleWithin, none]

theorem Idle.settle {d : Session} (h : d.Idle) : d.settle = d :=
  settle_eq_self (by
    simp [step?, pieces, abortPieces, threadPieces, lookPieces, cyclePieces, h.members, h.threads])

/-- A command is made in a session without tasks. -/
theorem Idle.run_command {d : Session} {command : Command}
    (after : (d.finish command.work).1.Idle) :
    (d.run [.run command]).1 = (d.finish command.work).1 :=
  after.settle

section Steps

variable {s d t : Session} {origins : List Nat} {index origin : Nat} {m m' : Member}

/-- A task goes on, and nothing is done that counts. -/
theorem Replaces.advances (h : Replaces s t index m m') (before : s.Poised origins)
    (twins : Twins s d) (bare : t.bare = s.bare) (from' : origins[index]? = some origin)
    (poised : m'.Poised s.elapsed (s.onDuty m) origin)
    (less : m'.backlog s.elapsed < m.backlog s.elapsed)
    (same : s.onDuty m = true → m'.isCalled s.elapsed = m.isCalled s.elapsed) :
    Advances origins s d t where
  poised := h.stands before fun _ also => by
    obtain rfl := Option.some.inj (from'.symm.trans also)
    exact poised
  elapsed := h.elapsed
  duties := h.duties
  less := by
    have sum := h.backlog
    omega
  twins := ⟨[], by rw [h.called_same same]; rfl, twins.beside bare⟩

/-- A task that is off duty goes. -/
theorem Replaces.advances_off {how : TaskEnd} (h : Replaces s t index m m')
    (before : s.Poised origins) (twins : Twins s d) (bare : t.bare = s.bare)
    (from' : origins[index]? = some origin) (poised : m.Poised s.elapsed (s.onDuty m) origin)
    (off : s.onDuty m = false) (running : m.task.hasEnded = false)
    (phase : m'.task.phase = .ended how) (cycle : m'.cycle = m.cycle) :
    Advances origins s d t := by
  rw [off] at poised
  obtain ⟨none, work⟩ := poised.of_off running
  have idle := cycle.trans none
  have never : ∀ {p : Prop}, s.onDuty m = true → p := fun on =>
    absurd (off.symm.trans on) Bool.false_ne_true
  refine h.advances before twins bare from' (.gone ⟨⟨how, phase⟩, idle, never⟩) ?_ never
  rw [Member.backlog_ended phase idle]
  exact work

/-- A task does its duty, which its twin does directly. Flushes come first. -/
theorem Replaces.advances_duty (h : Replaces s t index m m') (before : s.Poised origins)
    (on : s.onDuty m = true) (from' : origins[index]? = some origin)
    (poised : m'.Poised s.elapsed true origin)
    (less : m'.backlog s.elapsed < m.backlog s.elapsed)
    (called : m.isCalled s.elapsed = true) (done : m'.isCalled s.elapsed = false)
    (first : m.task.kind = .refreshWorker → s.called .flusher = 0)
    (twins : Twins t (d.run [.run m.task.kind.command]).1) : Advances origins s d t where
  poised := h.stands before fun _ also => by
    obtain rfl := Option.some.inj (from'.symm.trans also)
    rw [on]
    exact poised
  elapsed := h.elapsed
  duties := h.duties
  less := by
    have sum := h.backlog
    omega
  twins := by
    refine ⟨[m.task.kind.command], ?_, twins⟩
    have flushes := h.called_done on called done .flusher
    have refreshes := h.called_done on called done .refreshWorker
    cases kind : m.task.kind with
    | flusher =>
      rw [kind] at flushes refreshes
      simp only [reduceCtorEq, if_true, if_false, Nat.add_zero] at flushes refreshes
      rw [calls, calls, flushes, refreshes]
      rfl
    | refreshWorker =>
      have none := first kind
      rw [kind, none] at flushes
      rw [kind] at refreshes
      simp only [reduceCtorEq, if_true, if_false, Nat.add_zero] at flushes refreshes
      rw [calls, calls, none, ← flushes, refreshes]
      rfl

/-- A flush of a task is a flush of its twin. -/
theorem Twins.flush (twins : Twins s d) (bare : t.bare =
    ({ s with cache := (s.cache.flush s.now).1 } : Session).bare) :
    Twins t (d.run [.run TaskKind.flusher.command]).1 := by
  have quiet : Request.isQuiet false (.act (.store .flush)) = true := rfl
  have flushed := twins.answer quiet
  have steady : s.clock.tick = s.clock := by
    cases clock : s.clock with
    | system reading => exact absurd clock (twins.steady reading)
    | manual clock => rfl
    | running start => rfl
  have one : (d.run [.run TaskKind.flusher.command]).1 = (d.answer (.act (.store .flush))).1 :=
    Idle.run_command flushed.idle
  rw [one]
  refine flushed.beside (bare.trans ?_)
  have answered : (s.answer (.act (.store .flush))).1 =
      { s with cache := (s.cache.flush s.now).1, clock := s.clock.tick } := rfl
  rw [answered, steady]

/-- A refresh worker that takes a tick has a refresh to do. -/
theorem Stands.tick_worker {ticker : Ticker} {signal : StopSignal} (h : s.Poised origins)
    (twins : Twins s d) (found : s.background.members[index]? = some m)
    (from' : origins[index]? = some origin) (on : s.onDuty m = true)
    (waits : m.Waits s.elapsed origin ticker) (reached : ticker.deadline = s.elapsed)
    (channel : signal.channel = m.task.signal.channel) (kind : m.task.kind = .refreshWorker) :
    Advances origins s d
      (s.applyLook index m (Task.tick s.elapsed ticker { m.task with signal }) .ticked) := by
  obtain ⟨due, later⟩ := waits.deliver reached
  have tick : Task.tick s.elapsed ticker { m.task with signal } =
      { m.task with signal, phase := .working (ticker.deliver s.elapsed) } := by
    simp only [Task.tick, kind]
  rw [tick]
  simp only [applyLook, tickWork, kind]
  have duty : (⟨.refreshWorker, origin, m.task.interval.toNanos⟩ : Duty) = m.duty origin := by
    rw [Member.duty, kind]
  rw [← duty] at due
  refine Replaces.advances (s := s) (m := m)
    ⟨found, rfl, rfl, rfl, rfl, kind.symm, rfl, rfl, channel⟩ h twins rfl from' ?_ ?_ fun _ => ?_
  · exact .works rfl rfl on rfl (waits.period.trans (congrArg Duty.period duty.symm))
      due later
  · rw [Member.backlog_waiting waits.phase waits.cycle]
    simp only [Member.backlog, Option.any_some, Progress.isReady, if_true]
    omega
  · simp only [Member.isCalled, waits.phase, reached, Nat.le_refl, decide_true]

/-- A flush task that takes a tick flushes at once. -/
theorem Stands.tick_flusher {ticker : Ticker} {signal : StopSignal} (h : s.Poised origins)
    (twins : Twins s d) (found : s.background.members[index]? = some m)
    (from' : origins[index]? = some origin) (on : s.onDuty m = true)
    (waits : m.Waits s.elapsed origin ticker) (reached : ticker.deadline = s.elapsed)
    (channel : signal.channel = m.task.signal.channel) (kind : m.task.kind = .flusher) :
    Advances origins s d
      (s.applyLook index m (Task.tick s.elapsed ticker { m.task with signal }) .ticked) := by
  obtain ⟨due, later⟩ := waits.deliver reached
  have tick : Task.tick s.elapsed ticker { m.task with signal } =
      { m.task with signal, phase := .waiting (ticker.deliver s.elapsed) } := by
    simp only [Task.tick, kind]
  rw [tick]
  simp only [applyLook, tickWork, kind]
  have duty : (⟨.flusher, origin, m.task.interval.toNanos⟩ : Duty) = m.duty origin := by
    rw [Member.duty, kind]
  rw [← duty] at due
  refine Replaces.advances_duty (s := s) (m := m)
    ⟨found, rfl, rfl, rfl, rfl, kind.symm, rfl, rfl, channel⟩ h on from' ?_ ?_ ?_ ?_ ?_ ?_
  · exact .waits ⟨rfl, rfl, waits.period.trans (congrArg Duty.period duty.symm), due⟩
      (Nat.le_of_lt later)
  · rw [Member.backlog_waiting waits.phase waits.cycle]
    refine Nat.lt_of_le_of_lt (Nat.le_of_eq (Member.backlog_waiting rfl rfl)) ?_
    omega
  · simp only [Member.isCalled, waits.phase, reached, Nat.le_refl, decide_true]
  · exact decide_eq_false (Nat.not_le_of_lt later)
  · intro worker
    cases kind.symm.trans worker
  · rw [kind]
    exact twins.flush rfl

/-- A task that begins waits for its first deadline. -/
theorem Stands.start {ticker : Ticker} (h : s.Poised origins) (twins : Twins s d)
    (found : s.background.members[index]? = some m) (from' : origins[index]? = some origin)
    (poised : m.Poised s.elapsed (s.onDuty m) origin) (fresh : m.task.phase = .fresh)
    (starts : Ticker.start? s.elapsed m.task.interval m.task.kind.missedTicks = some ticker) :
    Advances origins s d
      (s.applyLook index m { m.task with phase := .waiting ticker } .begun) := by
  obtain ⟨cycle, rfl⟩ := poised.of_fresh fresh
  obtain ⟨deadline, period, _⟩ := Ticker.start?_eq_some starts
  have positive := m.task.interval.pos
  have later : s.elapsed < ticker.deadline := by
    rw [deadline]
    exact Nat.lt_add_of_pos_right positive
  refine Replaces.advances (s := s) (m := m)
    ⟨found, rfl, rfl, rfl, rfl, rfl, rfl, rfl, rfl⟩ h twins rfl from' ?_ ?_ ?_
  · refine .waits ⟨rfl, cycle, period, ?_⟩ (Nat.le_of_lt later)
    rw [deadline]
    exact .first _
  · refine Nat.lt_of_le_of_lt (Nat.le_of_eq (Member.backlog_waiting rfl cycle)) ?_
    simp only [Member.backlog, fresh]
    omega
  · intro _
    simp only [Member.isCalled, fresh, decide_eq_false_iff_not]
    exact Nat.not_le_of_lt later

theorem Stands.look (h : s.Poised origins) (twins : Twins s d)
    (found : s.background.members[index]? = some m) (busy : (s.look m).2 ≠ .idle) :
    Advances origins s d (s.doPiece (.look index)) := by
  have looks := Task.looks s.elapsed (s.stops.channel m.task.signal.channel) m.task
  rw [doPiece_look_eq found]
  have same := m.task.look_channel s.elapsed (s.stops.channel m.task.signal.channel)
  change Task.Looks _ _ m.task (s.look m).1 (s.look m).2 at looks
  change (s.look m).1.signal.channel = _ at same
  generalize (s.look m).1 = task at looks same ⊢
  generalize (s.look m).2 = step at looks busy ⊢
  obtain ⟨origin, from', poised⟩ := h.member found
  cases looks with
  | idle => exact absurd rfl busy
  | cancelled running abort =>
    have off : s.onDuty m = false := by
      rw [onDuty, abort]
      rfl
    exact Replaces.advances_off (s := s) (m := m)
      ⟨found, rfl, rfl, rfl, rfl, rfl, rfl, rfl, rfl⟩ h twins rfl from' poised off running rfl rfl
  | @begun ticker fresh kept starts =>
    exact h.start twins found from' poised fresh starts
  | overflowed fresh kept none =>
    obtain ⟨cycle, rfl⟩ := poised.of_fresh fresh
    refine Replaces.advances (s := s) (m := m)
      ⟨found, rfl, rfl, rfl, rfl, rfl, rfl, rfl, rfl⟩ h twins rfl from' ?_ ?_ ?_
    · exact .gone ⟨⟨_, rfl⟩, cycle, fun _ => Ticker.start?_eq_none_iff.1 none⟩
    · refine Nat.lt_of_le_of_lt (Nat.le_of_eq (Member.backlog_ended rfl cycle)) ?_
      simp only [Member.backlog, fresh]
      omega
    · intro _
      simp only [Member.isCalled, fresh]
  | @stopped ticker signal waits kept stop =>
    rw [StopSignal.isStopped_channel] at stop
    have off : s.onDuty m = false := by
      rw [onDuty, stop, Bool.not_true, Bool.and_false]
    have running : m.task.hasEnded = false := by rw [Task.hasEnded, waits]
    exact Replaces.advances_off (s := s) (m := m)
      ⟨found, rfl, rfl, rfl, rfl, rfl, rfl, rfl, same⟩ h twins rfl from' poised off running rfl rfl
  | @ticked ticker signal phase kept goes due =>
    rw [StopSignal.isStopped_channel] at goes
    have on : s.onDuty m = true := by
      rw [onDuty, goes, kept]
      rfl
    obtain ⟨waits, ahead⟩ := poised.of_waiting phase
    -- the tick comes exactly at its deadline
    have reached : ticker.deadline = s.elapsed :=
      Nat.le_antisymm (ticker.deadline_le_of_isDue _ due) ahead
    have channel : signal.channel = m.task.signal.channel := by
      rw [← same]
      unfold Task.tick
      dsimp only
      split <;> rfl
    by_cases kind : m.task.kind = .refreshWorker
    · exact h.tick_worker twins found from' on waits reached channel kind
    · exact h.tick_flusher twins found from' on waits reached channel (TaskKind.flusher_of kind)

/-- A refresh of a cycle is a refresh of the twin. -/
theorem Twins.refresh (twins : Twins s d) (bare : t.bare = (s.finish Work.wholeRefresh).1.bare) :
    Twins t (d.run [.run TaskKind.refreshWorker.command]).1 := by
  have refreshed := (Work.agree_wholeRefresh s d twins).twins
  have same : (d.finish TaskKind.refreshWorker.command.work).1 = (d.finish Work.wholeRefresh).1 :=
    congrArg Prod.fst (finish_bind Work.wholeRefresh _ d)
  have one : (d.run [.run TaskKind.refreshWorker.command]).1 = (d.finish Work.wholeRefresh).1 :=
    (Idle.run_command (same ▸ refreshed.idle)).trans same
  rw [one]
  exact refreshed.beside bare

/-- While no task does anything when it is looked at, no flush is yet to be done. -/
theorem Stands.called_flusher (h : s.Poised origins)
    (idle : ∀ m ∈ s.background.members, (s.look m).2 = .idle) : s.called .flusher = 0 := by
  refine List.countP_eq_zero.2 fun m hm called => ?_
  obtain ⟨index, found⟩ := List.getElem?_of_mem hm
  obtain ⟨origin, from', poised⟩ := h.member found
  have nothing := idle m hm
  simp only [Bool.and_eq_true, beq_iff_eq, onDuty, Bool.not_eq_true'] at called
  obtain ⟨⟨kind, kept, goes⟩, called⟩ := called
  rw [← StopSignal.isStopped_channel] at goes
  unfold Member.isCalled at called
  split at called
  · next ticker phase =>
    have due := ticker.isDue_of_le h.now (of_decide_eq_true called)
    have ticked := Task.look_due phase kept goes due
    rw [Session.look, ticked] at nothing
    cases nothing
  · next ticker phase =>
    cases poised with
    | fresh fresh => cases phase.symm.trans fresh
    | waits waits => cases phase.symm.trans waits.phase
    | works _ _ _ worker => cases kind.symm.trans worker
    | gone gone =>
      obtain ⟨how, ended⟩ := gone.phase
      cases phase.symm.trans ended
  · cases called

/-- At the end of its cycle a worker waits again. Besides, the end is only reported. -/
theorem endCycle_of_working {ticker : Ticker} (found : t.background.members[index]? = some m)
    (working : m.task.phase = .working ticker) (kept : m.task.abortRequested = false)
    (result : Except String Summary) :
    ∃ journal, journal.bare = t.journal.bare ∧ t.endCycle index result =
      ({ t with journal } : Session).putMember index
        ⟨{ m.task with phase := .waiting ticker }, none⟩ := by
  have running : m.task.hasEnded = false := by rw [Task.hasEnded, working]
  have waits : m.task.cycleEnded = { m.task with phase := .waiting ticker } := by
    simp only [Task.cycleEnded, working]
  simp only [endCycle, found, running, kept, Bool.or_false, Bool.false_eq_true, if_false, waits]
  refine ⟨(t.reportCycle result).journal, ?_⟩
  cases result <;> exact ⟨rfl, rfl⟩

theorem Stands.cycle {rest : Work (Except String Summary)} (h : s.Poised origins)
    (twins : Twins s d) (found : s.background.members[index]? = some m)
    (ready : m.cycle = some (.ready rest))
    (idle : ∀ m ∈ s.background.members, (s.look m).2 = .idle) :
    Advances origins s d (s.doPiece (.cycle index)) := by
  obtain ⟨origin, from', poised⟩ := h.member found
  cases poised with
  | fresh _ cycle => cases ready.symm.trans cycle
  | waits waits => cases ready.symm.trans waits.cycle
  | gone gone => cases ready.symm.trans gone.cycle
  | @works ticker working cycle on kind period due later =>
    obtain rfl : rest = Work.wholeRefresh := by
      cases ready.symm.trans cycle
      rfl
    have agrees := Work.agree_wholeRefresh s d twins
    have refresh := twins.refresh (t := (s.finish Work.wholeRefresh).1) rfl
    obtain ⟨members, channels⟩ := agrees.minds.alone rfl
    have piece : s.doPiece (.cycle index) = s.resumeCycle index Work.wholeRefresh := by
      simp only [doPiece, found, Option.bind_some, ready]
    rw [piece, resumeCycle, agrees.straight]
    have elapsed := agrees.minds.elapsed
    have threads := agrees.minds.threads
    generalize (s.finish Work.wholeRefresh).1 = t at refresh members channels elapsed threads ⊢
    generalize (s.finish Work.wholeRefresh).2 = result
    show Advances origins s d (t.endCycle index result)
    have kept : m.task.abortRequested = false := by
      simp only [onDuty, Bool.and_eq_true, Bool.not_eq_true'] at on
      exact on.1
    obtain ⟨journal, same, ended⟩ := endCycle_of_working (members ▸ found) working kept result
    rw [ended]
    refine Replaces.advances_duty (m := m)
      (.of_put found members threads elapsed channels rfl rfl rfl rfl) h on from' ?_ ?_ ?_ ?_ ?_ ?_
    · exact .waits ⟨rfl, rfl, period, due⟩ (Nat.le_of_lt later)
    · refine Nat.lt_of_le_of_lt (Nat.le_of_eq (Member.backlog_waiting rfl rfl)) ?_
      simp only [Member.backlog, working, cycle, Option.any_some, Progress.isReady, if_true]
      omega
    · simp only [Member.isCalled, working]
    · exact decide_eq_false (Nat.not_le_of_lt later)
    · exact fun _ => h.called_flusher idle
    · rw [kind]
      exact refresh.beside (congrArg (fun journal => { t.bare with journal }) same)

/-! ## The next piece -/

theorem mem_abortPieces {piece : Piece} (among : piece ∈ s.abortPieces) :
    ∃ index m, piece = .look index ∧ s.background.members[index]? = some m ∧
      (s.look m).2 ≠ .idle := by
  obtain ⟨⟨m, index⟩, there, eq⟩ := List.mem_filterMap.1 among
  dsimp only at eq
  split at eq
  · next abort =>
    simp only [Bool.and_eq_true, Bool.not_eq_true'] at abort
    refine ⟨index, m, (Option.some.inj eq).symm, List.mem_zipIdx_iff_getElem?.1 there, ?_⟩
    rw [Session.look, Task.look_of_abort abort.2 abort.1]
    exact TaskStep.noConfusion
  · cases eq

theorem mem_lookPieces {piece : Piece} (among : piece ∈ s.lookPieces) :
    ∃ index m, piece = .look index ∧ s.background.members[index]? = some m ∧
      (s.look m).2 ≠ .idle := by
  obtain ⟨⟨m, index⟩, there, eq⟩ := List.mem_filterMap.1 among
  dsimp only at eq
  split at eq
  · cases eq
  · next busy =>
    exact ⟨index, m, (Option.some.inj eq).symm, List.mem_zipIdx_iff_getElem?.1 there, busy⟩

theorem mem_cyclePieces {piece : Piece} (among : piece ∈ s.cyclePieces) :
    ∃ index m rest, piece = .cycle index ∧ s.background.members[index]? = some m ∧
      m.cycle = some (.ready rest) := by
  obtain ⟨⟨m, index⟩, there, eq⟩ := List.mem_filterMap.1 among
  dsimp only at eq
  split at eq
  · next ready =>
    have found := List.mem_zipIdx_iff_getElem?.1 there
    cases cycle : m.cycle with
    | none =>
      rw [cycle] at ready
      cases ready
    | some progress =>
      rw [cycle] at ready
      cases progress with
      | ready rest => exact ⟨index, m, rest, (Option.some.inj eq).symm, found, cycle⟩
      | waiting gate rest => cases ready
      | finished result => cases ready
  · cases eq

theorem Stands.threadPieces_eq_nil {P : Nat → Bool → Nat → Member → Prop}
    (h : s.Stands P origins) : s.threadPieces = [] := by
  rw [threadPieces, h.threads]
  rfl

/-- The first piece is a look at which a task does something, or, if there is none, a cycle. -/
theorem Stands.head_pieces (h : s.Poised origins) {piece : Piece}
    (first : s.pieces.head? = some piece) :
    (∃ index m, piece = .look index ∧ s.background.members[index]? = some m ∧
      (s.look m).2 ≠ .idle) ∨
    ∃ index m rest, piece = .cycle index ∧ s.background.members[index]? = some m ∧
      m.cycle = some (.ready rest) ∧ ∀ x ∈ s.background.members, (s.look x).2 = .idle := by
  rw [pieces, h.threadPieces_eq_nil, List.append_nil] at first
  by_cases none : s.abortPieces ++ s.lookPieces = []
  · rw [none, List.nil_append] at first
    obtain ⟨index, m, rest, eq, found, ready⟩ := mem_cyclePieces (List.mem_of_head? first)
    refine .inr ⟨index, m, rest, eq, found, ready, fun x hx => ?_⟩
    obtain ⟨i, there⟩ := List.getElem?_of_mem hx
    exact look_idle_of_lookPieces (List.append_eq_nil_iff.1 none).2 there
  · rw [List.head?_append_of_ne_nil _ none] at first
    rcases List.mem_append.1 (List.mem_of_head? first) with abort | look
    · exact .inl (mem_abortPieces abort)
    · exact .inl (mem_lookPieces look)

theorem Stands.step (h : s.Poised origins) (twins : Twins s d) {piece : Piece}
    (first : s.pieces.head? = some piece) : Advances origins s d (s.doPiece piece) := by
  rcases h.head_pieces first with ⟨index, m, rfl, found, busy⟩ |
    ⟨index, m, rest, rfl, found, ready, idle⟩
  · exact h.look twins found busy
  · exact h.cycle twins found ready idle

/-! ## Settling -/

/-- A waiting task that is looked at for nothing is neither stopped nor to be aborted, and its tick
has not come. -/
theorem look_idle_waiting {ticker : Ticker} (phase : m.task.phase = .waiting ticker) :
    (s.look m).2 = .idle ↔ s.onDuty m = true ∧ ticker.isDue s.elapsed = false := by
  have stop := (StopSignal.wait_eq_isStopped m.task.signal _).trans
    (m.task.signal.isStopped_channel s.stops)
  simp only [Session.look, Task.look, phase, onDuty]
  cases m.task.abortRequested with
  | true => simp
  | false =>
    simp only [Task.lookWaiting, stop]
    cases s.stops.isStopped m.task.signal.channel <;> cases ticker.isDue s.elapsed <;> simp

theorem look_fresh_ne_idle (phase : m.task.phase = .fresh) : (s.look m).2 ≠ .idle := by
  simp only [Session.look, Task.look, phase]
  split
  · simp
  · unfold Task.begin
    split <;> simp

/-- When nothing can go on, tasks rest. -/
theorem Stands.atRest (h : s.Poised origins) (settled : s.pieces = []) : s.AtRest origins := by
  refine ⟨h.threads, h.millis, h.now, h.begins, h.length, fun index m origin found from' => ?_⟩
  have idle := look_idle_of_pieces settled found
  cases h.each index m origin found from' with
  | fresh fresh => exact absurd idle (look_fresh_ne_idle fresh)
  | @waits ticker waits ahead =>
    obtain ⟨on, due⟩ := (look_idle_waiting waits.phase).1 idle
    refine .waits waits on (Nat.lt_of_not_le fun reached => ?_)
    rw [ticker.isDue_of_le h.now reached] at due
    cases due
  | works _ cycle =>
    have none := (List.append_eq_nil_iff.1 settled).2
    have one := List.filterMap_eq_nil_iff.1 none (m, index)
      (List.mem_zipIdx_iff_getElem?.2 found)
    simp only [cycle, Option.any_some, Progress.isReady, if_true, reduceCtorEq] at one
  | gone gone => exact .gone gone

/-- A task that rests is looked at for nothing. -/
theorem look_idle_of_rests (rests : m.Rests s.elapsed (s.onDuty m) origin) :
    (s.look m).2 = .idle := by
  cases rests with
  | @waits ticker waits on ahead =>
    refine (look_idle_waiting waits.phase).2 ⟨on, Bool.eq_false_iff.2 fun due => ?_⟩
    exact Nat.not_le_of_lt ahead (ticker.deadline_le_of_isDue _ due)
  | gone gone =>
    obtain ⟨how, ended⟩ := gone.phase
    rw [Session.look, Task.look_of_ended _ _ _ how ended]

/-- While tasks rest, nothing can go on. -/
theorem Stands.pieces_eq_nil (h : s.AtRest origins) : s.pieces = [] := by
  have noLook : ∀ {piece}, (∃ index m, piece = Piece.look index ∧
      s.background.members[index]? = some m ∧ (s.look m).2 ≠ .idle) → False := by
    rintro piece ⟨index, m, _, found, busy⟩
    obtain ⟨origin, _, rests⟩ := h.member found
    exact busy (look_idle_of_rests rests)
  refine List.eq_nil_iff_forall_not_mem.2 fun piece among => ?_
  rw [pieces, h.threadPieces_eq_nil, List.append_nil] at among
  rcases List.mem_append.1 among with looks | cycle
  · rcases List.mem_append.1 looks with abort | look
    · exact noLook (mem_abortPieces abort)
    · exact noLook (mem_lookPieces look)
  · obtain ⟨index, m, rest, _, found, ready⟩ := mem_cyclePieces cycle
    obtain ⟨origin, _, rests⟩ := h.member found
    cases ready.symm.trans rests.cycle

/-- While tasks rest, nothing is yet to be done. -/
theorem Stands.calls_eq_nil (h : s.AtRest origins) : s.calls = [] := by
  have none : ∀ kind, s.called kind = 0 := by
    refine fun kind => List.countP_eq_zero.2 fun m hm called => ?_
    obtain ⟨index, found⟩ := List.getElem?_of_mem hm
    obtain ⟨origin, _, rests⟩ := h.member found
    rw [Bool.and_eq_true] at called
    have called := called.2
    cases rests with
    | waits waits _ ahead =>
      rw [Member.isCalled, waits.phase] at called
      exact Nat.not_le_of_lt ahead (of_decide_eq_true called)
    | gone gone =>
      obtain ⟨how, ended⟩ := gone.phase
      rw [Member.isCalled, ended] at called
      cases called
  rw [calls, none, none]
  rfl

theorem run_append (s : Session) (moves more : List Move) :
    (s.run (moves ++ more)).1 = ((s.run moves).1.run more).1 := by
  induction moves generalizing s with
  | nil => rfl
  | cons m rest ih => exact ih _

theorem Stands.settleWithin (h : s.Poised origins) (twins : Twins s d) {pieces : Nat}
    (enough : s.backlog ≤ pieces) :
    AtRest origins (Session.settleWithin pieces s) ∧
      (Session.settleWithin pieces s).elapsed = s.elapsed ∧
      (Session.settleWithin pieces s).duties origins = s.duties origins ∧
      Twins (Session.settleWithin pieces s) (d.run (s.calls.map Move.run)).1 := by
  induction pieces generalizing s d with
  | zero =>
    cases first : s.pieces.head? with
    | none =>
      have rest := h.atRest (List.head?_eq_none_iff.1 first)
      refine ⟨rest, rfl, rfl, ?_⟩
      rw [rest.calls_eq_nil]
      exact twins
    | some piece =>
      have less := (h.step twins first).less
      omega
  | succ pieces ih =>
    unfold Session.settleWithin step?
    cases first : s.pieces.head? with
    | none =>
      have rest := h.atRest (List.head?_eq_none_iff.1 first)
      refine ⟨rest, rfl, rfl, ?_⟩
      rw [rest.calls_eq_nil]
      exact twins
    | some piece =>
      have step := h.step twins first
      obtain ⟨calls, eq, after⟩ := step.twins
      obtain ⟨rest, elapsed, duties, twins⟩ := ih step.poised after (by
        have less := step.less
        omega)
      refine ⟨rest, elapsed.trans step.elapsed, duties.trans step.duties, ?_⟩
      rw [eq, List.map_append, run_append]
      exact twins

/-- When the background has settled, every duty that was due is done, and tasks rest. -/
theorem Stands.settle (h : s.Poised origins) (twins : Twins s d) :
    AtRest origins s.settle ∧ s.settle.elapsed = s.elapsed ∧
      s.settle.duties origins = s.duties origins ∧
      Twins s.settle (d.run (s.calls.map Move.run)).1 :=
  h.settleWithin twins (Nat.le_add_left _ _)

theorem Stands.settle_eq (h : s.AtRest origins) : s.settle = s :=
  settle_eq_self (by
    rw [step?, h.pieces_eq_nil]
    rfl)

end Steps

end Session

end WarmCache
