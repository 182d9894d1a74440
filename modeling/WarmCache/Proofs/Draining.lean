import WarmCache.Proofs.Orderly
import WarmCache.Proofs.Settling

/-!
# Background work that drains

With light callbacks only, every piece of background work takes something off what there is to do:
callbacks may stop or abort a task, but they start none and begin no refresh, so they add no piece.
Therefore a session that settles does so until nothing can go on.

Results:
1. `Orderly.backlog_doPiece`: a piece of work lowers the backlog.
2. `Orderly.pieces_settle`: when a session has settled, nothing can go on.
3. `waits_of_settled`: a task that is then on duty waits for a tick that cannot be delivered yet, or
   it is gone.
-/

namespace WarmCache

/-! ## Tasks -/

/-- How many pieces of work a task has before it at `now`, at most, apart from a cycle. -/
def Phase.load (now : Nat) : Phase → Nat
  | .fresh => 2
  | .waiting ticker => 1 + 2 * (now + 1 - ticker.deadline)
  | .working ticker => 1 + 2 * (now + 1 - ticker.deadline)
  | .ended _ => 0

/-- The piece of work that a cycle is, if it may go on. -/
def cycleLoad (cycle : Option RefreshProgress) : Nat := if cycle.any Progress.isReady then 1 else 0

/-- What decides on how much a task has to do: how far it has come, and its cycle. -/
def Member.stage (m : Member) : Phase × Option RefreshProgress := (m.task.phase, m.cycle)

namespace Member

variable {now : Nat} {m m' : Member}

theorem backlog_eq_load (now : Nat) (m : Member) :
    m.backlog now = cycleLoad m.cycle + m.task.phase.load now := by
  unfold backlog cycleLoad
  cases m.task.phase with
  | fresh => rfl
  | waiting ticker => exact Nat.add_assoc _ _ _
  | working ticker => exact Nat.add_assoc _ _ _
  | ended how => rfl

theorem foldr_backlog {ms ms' : List Member} (same : ms'.map stage = ms.map stage) :
    ms'.foldr (fun m n => m.backlog now + n) 0 = ms.foldr (fun m n => m.backlog now + n) 0 := by
  induction ms generalizing ms' with
  | nil =>
    rw [List.map_eq_nil_iff.1 same]
  | cons m rest ih =>
    cases ms' with
    | nil => cases same
    | cons m' rest' =>
      obtain ⟨head, tail⟩ := List.cons.inj same
      obtain ⟨phase, cycle⟩ := Prod.ext_iff.1 head
      change m'.task.phase = m.task.phase at phase
      change m'.cycle = m.cycle at cycle
      rw [List.foldr_cons, List.foldr_cons, backlog_eq_load, backlog_eq_load, phase, cycle, ih tail]

/-- A look at which a task does something leaves it less to do. -/
theorem backlog_look {channel : StopChannel} {step : TaskStep}
    (looks : m.task.Looks now channel m'.task step) (acts : step ≠ .idle)
    (cycle : m'.cycle = m.cycleAfter step) : m'.backlog now < m.backlog now := by
  rw [backlog_eq_load, backlog_eq_load, cycle]
  obtain ⟨task, cycle'⟩ := m'
  cases looks with
  | idle => exact absurd rfl acts
  | cancelled running =>
    refine Nat.add_lt_add_left ?_ _
    cases phase : m.task.phase with
    | fresh => exact Nat.zero_lt_two
    | waiting ticker => exact Nat.lt_add_right _ Nat.one_pos
    | working ticker => exact Nat.lt_add_right _ Nat.one_pos
    | ended how =>
      rw [m.task.hasEnded_iff.2 ⟨how, phase⟩] at running
      cases running
  | @begun ticker phase _ starts =>
    refine Nat.add_lt_add_left ?_ _
    have deadline := (Ticker.start?_eq_some starts).1
    have pos : 0 < m.task.interval.toNanos := m.task.interval.pos
    simp only [phase, Phase.load]
    omega
  | overflowed phase =>
    rw [phase]
    exact Nat.add_lt_add_left Nat.zero_lt_two _
  | stopped _ phase =>
    rw [phase]
    exact Nat.add_lt_add_left (Nat.lt_add_right _ Nat.one_pos) _
  | @ticked ticker signal phase _ _ due =>
    have reached := ticker.deadline_le_of_isDue _ due
    have later : ticker.deadline < (ticker.deliver now).deadline := ticker.lt_next now
    have less : 2 + 2 * (now + 1 - (ticker.deliver now).deadline) <
        1 + 2 * (now + 1 - ticker.deadline) := by omega
    rw [phase]
    refine Nat.lt_of_lt_of_le ?_ (Nat.le_add_left _ _)
    unfold cycleAfter
    dsimp only
    cases m.task.kind with
    | refreshWorker =>
      refine Nat.lt_of_le_of_lt (Nat.le_of_eq ?_) less
      exact (Nat.add_assoc 1 1 _).symm
    | flusher =>
      refine Nat.lt_of_le_of_lt ?_ less
      show cycleLoad none + (1 + 2 * (now + 1 - (ticker.deliver now).deadline)) ≤ _
      rw [cycleLoad]
      exact Nat.add_assoc 0 1 _ ▸ Nat.add_le_add_right (Nat.le_succ 1) _

/-- So does the end of its cycle. -/
theorem backlog_endCycle (ready : m.cycle = some (.ready Work.wholeRefresh)) {task : Task}
    (is : task = m.task ∨ task = m.task.cycleEnded) :
    (⟨task, none⟩ : Member).backlog now < m.backlog now := by
  rw [backlog_eq_load, backlog_eq_load, ready]
  have same : task.phase.load now = m.task.phase.load now := by
    rcases is with rfl | rfl
    · rfl
    · unfold Task.cycleEnded
      split
      · next phase => rw [phase, Phase.load, Phase.load]
      · rfl
  rw [same]
  exact Nat.add_lt_add_right Nat.one_pos _

end Member

namespace Session

/-! ## Light callbacks add no work -/

/-- What there is to do in the background of session `s` is there in session `t` as well, and no
more. -/
structure SameWork (s t : Session) : Prop where
  elapsed : t.elapsed = s.elapsed
  threads : t.background.threads = s.background.threads
  members : t.background.members.map Member.stage = s.background.members.map Member.stage

namespace SameWork

variable {s t u : Session}

theorem of_background (elapsed : t.elapsed = s.elapsed) (same : t.background = s.background) :
    s.SameWork t :=
  ⟨elapsed, by rw [same], by rw [same]⟩

theorem trans (h : s.SameWork t) (h' : t.SameWork u) : s.SameWork u :=
  ⟨h'.elapsed.trans h.elapsed, h'.threads.trans h.threads, h'.members.trans h.members⟩

theorem backlog (h : s.SameWork t) : t.backlog = s.backlog := by
  rw [Session.backlog, Session.backlog, h.elapsed, h.threads, Member.foldr_backlog h.members]

end SameWork

theorem sameWork_performGate {s : Session} (whole : s.background.Whole) {action : GateAction}
    (light : (Action.gate action).isLight false = true) : s.SameWork (s.performGate action).1 := by
  cases action with
  | unlock gate =>
    exact ⟨rfl, (whole.release gate).1, congrArg (List.map _) (whole.release gate).2⟩
  | release gate =>
    exact ⟨rfl, (whole.release gate).1, congrArg (List.map _) (whole.release gate).2⟩
  | spawnRefresh name => cases light
  | isBlocked name => exact ⟨rfl, rfl, rfl⟩
  | join name =>
    simp only [performGate]
    split <;> exact ⟨rfl, rfl, rfl⟩

theorem sameWork_performTask {s : Session} {action : TaskAction}
    (light : (Action.task action).isLight false = true) : s.SameWork (s.performTask action).1 := by
  cases action with
  | start kind name interval signal => cases light
  | abort name =>
    simp only [performTask]
    split
    · refine ⟨rfl, rfl, List.ext_getElem? fun i => ?_⟩
      rw [List.getElem?_map, List.getElem?_map, List.getElem?_modify]
      split
      · rw [Option.map_eq_map, Option.map_map]
        rfl
      · rw [Option.map_eq_map, Option.map_id']
    · exact ⟨rfl, rfl, rfl⟩
  | hasEnded name => exact ⟨rfl, rfl, rfl⟩
  | join name =>
    simp only [performTask]
    split
    · split <;> exact ⟨rfl, rfl, rfl⟩
    · exact ⟨rfl, rfl, rfl⟩

theorem sameWork_aside {s : Session} (whole : s.background.Whole) {q : Request}
    (light : q.isLight false = true) : s.SameWork (s.answer q).1 := by
  by_cases acts : ∃ action, q = .act action
  · obtain ⟨action, rfl⟩ := acts
    cases action with
    | set => cases light
    | store => cases light
    | showValue item settings =>
      obtain ⟨sources, built⟩ := s.build_frame item settings
      refine .of_background (s.answered _).clock.1 ?_
      show (s.build item settings).1.background = _
      rw [built]
    | policy action =>
      refine .of_background (s.answered _).clock.1 ?_
      show (s.performPolicy action).1.background = _
      rcases s.performPolicy_frame action with eq | ⟨_, _, _, eq⟩ <;> rw [eq]
    | note action => exact ⟨rfl, rfl, rfl⟩
    | channel action => exact ⟨rfl, rfl, rfl⟩
    | gate action => exact { sameWork_performGate whole light with }
    | task action => exact { sameWork_performTask light with }
  · exact .of_background (s.answered q).clock.1 (background_answer (not_exists.1 acts))

theorem enduring_sameWork (s : Session) :
    Work.Enduring (fun t => t.Orderly ∧ s.SameWork t) fun _ => True := by
  refine Orderly.enduring (fun light order same => same.trans (sameWork_aside order.whole light))
    (fun _ _ _ _ => trivial) fun result _ same _ => same.trans (.of_background ?_ ?_)
  · exact (answered _ _).clock.1
  · exact background_answer nofun

/-! ## Every piece lowers the backlog -/

variable {s : Session}

theorem mem_threadPieces {piece : Piece} (among : piece ∈ s.threadPieces) :
    ∃ index rest, piece = .thread index ∧ s.background.threads[index]? = some (.ready rest) := by
  obtain ⟨⟨p, index⟩, there, eq⟩ := List.mem_filterMap.1 among
  have found := List.mem_zipIdx_iff_getElem?.1 there
  cases p with
  | ready rest => exact ⟨index, rest, (Option.some.inj eq).symm, found⟩
  | waiting gate rest => cases eq
  | finished result => cases eq

theorem backlog_look_lt {index : Nat} {m : Member} (found : s.background.members[index]? = some m)
    (busy : (s.look m).2 ≠ .idle) : (s.doPiece (.look index)).backlog < s.backlog := by
  rcases s.look_passes index with ⟨_, idle⟩ | ⟨old, new, step, looks, acts, cycle, passes⟩
  · exact absurd (idle m found) busy
  · have less := Member.backlog_look looks acts cycle
    have sum := passes.toReplaces.backlog
    omega

theorem Orderly.backlog_thread_lt (h : s.Orderly) {index : Nat}
    {rest : Work (Except String Summary)}
    (found : s.background.threads[index]? = some (.ready rest)) :
    (s.doPiece (.thread index)).backlog < s.backlog := by
  rcases h.doPiece_thread (enduring_sameWork s) ⟨h.away, ⟨rfl, rfl, rfl⟩⟩ index with
    ⟨_, idle⟩ | ⟨t, told, _, ⟨_, same⟩, _, eq⟩
  · exact absurd found (idle rest)
  · have fewer := countP_set_add Progress.isReady found (.finished (.ok told))
    have backlog := same.backlog
    simp only [Session.backlog, ← List.countP_eq_length_filter, same.threads] at backlog
    rw [eq]
    simp only [Session.backlog, putThread, ← List.countP_eq_length_filter, same.threads]
    simp only [Progress.isReady, Bool.toNat_true, Bool.toNat_false] at fewer
    omega

theorem Orderly.backlog_cycle_lt (h : s.Orderly) {index : Nat} {m : Member}
    {rest : Work (Except String Summary)} (found : s.background.members[index]? = some m)
    (ready : m.cycle = some (.ready rest)) :
    (s.doPiece (.cycle index)).backlog < s.backlog := by
  have there : s.cycle? index = some (.ready rest) := (cycle?_of_found found).trans ready
  rcases h.doPiece_cycle (enduring_sameWork s) ⟨h, ⟨rfl, rfl, rfl⟩⟩ index with
    ⟨_, idle⟩ | ⟨t, told, whole, ⟨_, same⟩, _, eq⟩
  · exact absurd there (idle rest)
  · obtain rfl := Progress.ready.inj (Option.some.inj (there.symm.trans whole))
    -- the task is the one that it was, as far as there is something to do
    have stage := congrArg (fun stages => stages[index]?) same.members
    simp only [List.getElem?_map, found, Option.map_some] at stage
    obtain ⟨m', found', same'⟩ := Option.map_eq_some_iff.1 stage
    have ready' : m'.cycle = some (.ready Work.wholeRefresh) :=
      (congrArg Prod.snd same').trans ready
    obtain ⟨task, passes, is⟩ := endCycle_passes found' (.ok told)
    have less : (⟨task, none⟩ : Member).backlog t.elapsed < m'.backlog t.elapsed :=
      Member.backlog_endCycle ready' (is.imp And.left And.left)
    have sum := passes.toReplaces.backlog
    have backlog := same.backlog
    rw [eq]
    omega

theorem Orderly.backlog_doPiece (h : s.Orderly) {piece : Piece} (among : piece ∈ s.pieces) :
    (s.doPiece piece).backlog < s.backlog := by
  rcases List.mem_append.1 among with others | cycle
  · rcases List.mem_append.1 others with others | look
    · rcases List.mem_append.1 others with abort | thread
      · obtain ⟨index, m, rfl, found, busy⟩ := mem_abortPieces abort
        exact backlog_look_lt found busy
      · obtain ⟨index, rest, rfl, found⟩ := mem_threadPieces thread
        exact h.backlog_thread_lt found
    · obtain ⟨index, m, rfl, found, busy⟩ := mem_lookPieces look
      exact backlog_look_lt found busy
  · obtain ⟨index, m, rest, rfl, found, ready⟩ := mem_cyclePieces cycle
    exact h.backlog_cycle_lt found ready

/-! ## Settling -/

theorem Orderly.pieces_settleWithin (h : s.Orderly) {pieces : Nat} (enough : s.backlog ≤ pieces) :
    (settleWithin pieces s).pieces = [] := by
  induction pieces generalizing s with
  | zero =>
    refine List.eq_nil_iff_forall_not_mem.2 fun piece among => ?_
    exact Nat.not_lt_zero _ (Nat.lt_of_lt_of_le (h.backlog_doPiece among) enough)
  | succ pieces ih =>
    unfold settleWithin step?
    cases first : s.pieces.head? with
    | none => exact List.head?_eq_none_iff.1 first
    | some piece =>
      have less := h.backlog_doPiece (List.mem_of_head? first)
      exact ih (h.doPiece piece) (Nat.le_of_lt_succ (Nat.lt_of_lt_of_le less enough))

/-- When a session has settled, nothing can go on. -/
theorem Orderly.pieces_settle (h : s.Orderly) : s.settle.pieces = [] :=
  h.pieces_settleWithin (Nat.le_add_left _ _)

/-- A task that is on duty when nothing can go on is gone, or it waits for a tick that cannot be
delivered yet. -/
theorem Orderly.waits_of_settled (h : s.Orderly) (settled : s.pieces = []) {index : Nat}
    {m : Member} (busy : m.Busy) (found : s.background.members[index]? = some m)
    (on : s.onDuty m = true) :
    (∃ how, m.task.phase = .ended how) ∨
      ∃ ticker, m.task.phase = .waiting ticker ∧ ticker.isDue s.elapsed = false := by
  have idle := look_idle_of_pieces settled found
  cases phase : m.task.phase with
  | fresh => exact absurd idle (look_fresh_ne_idle phase)
  | waiting ticker => exact .inr ⟨ticker, rfl, ((look_idle_waiting phase).1 idle).2⟩
  | ended how => exact .inl ⟨how, rfl⟩
  | working ticker =>
    rw [onDuty, Bool.and_eq_true, Bool.not_eq_true'] at on
    rcases busy ticker phase with inCycle | abort
    · have none := (List.append_eq_nil_iff.1 settled).2
      have one := List.filterMap_eq_nil_iff.1 none (m, index)
        (List.mem_zipIdx_iff_getElem?.2 found)
      rcases h.whole.members m (List.mem_of_getElem? found) with cycle | cycle
      · rw [cycle] at inCycle
        cases inCycle
      · simp only [cycle, Option.any_some, Progress.isReady, if_true, reduceCtorEq] at one
    · cases abort.symm.trans on.1

end Session

end WarmCache
