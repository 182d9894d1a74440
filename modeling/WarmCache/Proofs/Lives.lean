import WarmCache.Proofs.Reachable

/-!
# The life of a background task

From one step of a session to the next, a background task stays what it is, is looked at, or
comes to the end of a cycle. `Member.Steps` lists what becomes of one task; what other tasks,
callers and callbacks do leaves it alone, except that it may be asked to abort.

Results:
1. `spares_answer`: a request leaves every task as it is, but for an abort that it asks for, and
   any task that it starts has not run yet.
2. `Step.member`, `Step.newMember`: what a step makes of a task, and of a place where none was.
-/

namespace WarmCache

namespace Member

/-- A task is as it was, but for an abort that was asked for and a gate that let its cycle
through. -/
structure Kept (m m' : Member) : Prop where
  task : ∃ abort, m'.task = { m.task with abortRequested := abort } ∧
    (m.task.abortRequested = true → abort = true)
  cycle : m'.cycle.isSome = m.cycle.isSome

namespace Kept

variable {m m' : Member}

theorem refl (m : Member) : Kept m m := ⟨⟨m.task.abortRequested, rfl, id⟩, rfl⟩

theorem trans {m'' : Member} (h : m.Kept m') (h' : m'.Kept m'') : m.Kept m'' := by
  obtain ⟨abort, same, more⟩ := h.task
  obtain ⟨abort', same', more'⟩ := h'.task
  rw [same] at same' more'
  exact ⟨⟨abort', same', more' ∘ more⟩, h'.cycle.trans h.cycle⟩

theorem kind (h : Kept m m') : m'.task.kind = m.task.kind := by
  obtain ⟨abort, same, _⟩ := h.task
  rw [same]

theorem interval (h : Kept m m') : m'.task.interval = m.task.interval := by
  obtain ⟨abort, same, _⟩ := h.task
  rw [same]

theorem phase (h : Kept m m') : m'.task.phase = m.task.phase := by
  obtain ⟨abort, same, _⟩ := h.task
  rw [same]

end Kept

/-- What a step at `now` makes of a task whose stop channel is `channel`. -/
inductive Steps (now : Nat) (channel : StopChannel) (m : Member) : Member → Prop
  | kept {m' : Member} : m.Kept m' → Steps now channel m m'
  /-- The task is looked at. With a tick a refresh worker has a cycle, a flush task has none. -/
  | looks {task : Task} {step : TaskStep} {cycle : Option RefreshProgress} :
      m.task.Looks now channel task step → (step ≠ .ticked → cycle = m.cycle) →
      (step = .ticked → (cycle.isSome = true ↔ m.task.kind = .refreshWorker)) →
      Steps now channel m ⟨task, cycle⟩
  /-- The cycle comes to a gate or goes on from one. -/
  | moves (progress : RefreshProgress) : m.cycle.isSome = true →
      Steps now channel m { m with cycle := some progress }
  /-- The cycle is over, and the task waits again. -/
  | returns : m.cycle.isSome = true → m.task.hasEnded = false → m.task.abortRequested = false →
      Steps now channel m ⟨m.task.cycleEnded, none⟩
  /-- The cycle is over, and the task is gone or is to be aborted. -/
  | outlives : m.cycle.isSome = true → (m.task.hasEnded || m.task.abortRequested) = true →
      Steps now channel m ⟨m.task, none⟩

namespace Steps

variable {now : Nat} {channel : StopChannel} {m m' : Member}

theorem kind (h : m.Steps now channel m') : m'.task.kind = m.task.kind := by
  cases h with
  | kept kept => exact kept.kind
  | looks looks =>
    cases looks with
    | ticked => unfold Task.tick; dsimp only; split <;> rfl
    | _ => rfl
  | moves => rfl
  | returns => unfold Task.cycleEnded; dsimp only; split <;> rfl
  | outlives => rfl

theorem interval (h : m.Steps now channel m') : m'.task.interval = m.task.interval := by
  cases h with
  | kept kept => exact kept.interval
  | looks looks =>
    cases looks with
    | ticked => unfold Task.tick; dsimp only; split <;> rfl
    | _ => rfl
  | moves => rfl
  | returns => unfold Task.cycleEnded; dsimp only; split <;> rfl
  | outlives => rfl

end Steps

end Member

namespace Task

variable {now : Nat} {channel : StopChannel} {t : Task} {ticker : Ticker}

theorem look_fresh (fresh : t.phase = .fresh) (kept : t.abortRequested = false)
    (starts : Ticker.start? now t.interval t.kind.missedTicks = some ticker) :
    t.look now channel = ({ t with phase := .waiting ticker }, .begun) := by
  simp only [look, fresh, kept, Bool.false_eq_true, if_false, begin, starts]

theorem look_due (waits : t.phase = .waiting ticker) (kept : t.abortRequested = false)
    (goes : t.signal.isStopped channel = false) (due : ticker.isDue now = true) :
    t.look now channel =
      (tick now ticker { t with signal := (t.signal.wait channel).1 }, .ticked) := by
  have seen := (StopSignal.wait_eq_isStopped t.signal channel).trans goes
  simp only [look, waits, kept, Bool.false_eq_true, if_false, lookWaiting, seen, due, if_true]

end Task

namespace Session

/-- Every task of session `s` is kept in `t`, and those of `t` that are new have not run yet. -/
structure Spares (s t : Session) : Prop where
  kept : ∀ {i : Nat} {m : Member}, s.background.members[i]? = some m →
    ∃ m', t.background.members[i]? = some m' ∧ m.Kept m'
  fresh : ∀ {i : Nat} {m : Member}, s.background.members[i]? = none →
    t.background.members[i]? = some m → m.task.phase = .fresh ∧ m.cycle = none

namespace Spares

theorem of_members {s t : Session} (h : t.background.members = s.background.members) :
    s.Spares t := by
  refine ⟨fun {i m} found => ⟨m, ?_, .refl m⟩, fun absent found => ?_⟩
  · rw [h, found]
  · rw [h, absent] at found
    cases found

theorem trans {s t u : Session} (h : s.Spares t) (h' : t.Spares u) : s.Spares u := by
  refine ⟨fun found => ?_, fun {i m} absent found => ?_⟩
  · obtain ⟨m', there, kept⟩ := h.kept found
    obtain ⟨m'', there', kept'⟩ := h'.kept there
    exact ⟨m'', there', kept.trans kept'⟩
  · cases between : t.background.members[i]? with
    | none => exact h'.fresh between found
    | some m' =>
      obtain ⟨m'', there, kept⟩ := h'.kept between
      obtain rfl := Option.some.inj (found.symm.trans there)
      obtain ⟨fresh, idle⟩ := h.fresh absent between
      rw [← Option.not_isSome_iff_eq_none, kept.cycle, Option.not_isSome_iff_eq_none]
      exact ⟨kept.phase.trans fresh, idle⟩

theorem length_le {s t : Session} (h : s.Spares t) :
    s.background.members.length ≤ t.background.members.length := by
  refine Nat.le_of_not_lt fun fewer => ?_
  obtain ⟨m', there, _⟩ := h.kept (List.getElem?_eq_getElem fewer)
  rw [List.getElem?_eq_none (Nat.le_refl _)] at there
  cases there

/-- Each task by itself is changed, to one that is kept. -/
theorem of_getElem? {s t : Session} (f : Nat → Member → Member)
    (keeps : ∀ (i : Nat) (m : Member), m.Kept (f i m))
    (h : ∀ i, t.background.members[i]? = (s.background.members[i]?).map (f i)) : s.Spares t := by
  refine ⟨fun {i m} found => ⟨f i m, ?_, keeps i m⟩, fun {i m} absent found => ?_⟩
  · rw [h, found]
    rfl
  · rw [h, absent] at found
    cases found

/-- A task that has not run yet is added behind the others. -/
theorem of_append {s t : Session} {m : Member} (fresh : m.task.phase = .fresh)
    (idle : m.cycle = none) (h : t.background.members = s.background.members ++ [m]) :
    s.Spares t := by
  refine ⟨fun {i old} found => ⟨old, ?_, .refl old⟩, fun {i new} absent found => ?_⟩
  · obtain ⟨inside, _⟩ := List.getElem?_eq_some_iff.1 found
    rw [h, List.getElem?_append_left inside, found]
  · have outside := List.getElem?_eq_none_iff.1 absent
    rw [h, List.getElem?_append_right outside] at found
    obtain rfl := List.mem_singleton.1 (List.mem_of_getElem? found)
    exact ⟨fresh, idle⟩

end Spares

theorem kept_release (gate : String) (m : Member) :
    m.Kept { m with cycle := m.cycle.map fun p => p.letThrough gate } :=
  ⟨⟨m.task.abortRequested, rfl, id⟩, Option.isSome_map⟩

theorem spares_performGate (s : Session) (action : GateAction) :
    s.Spares (s.performGate action).1 := by
  cases action with
  | unlock gate =>
    exact .of_getElem? _ (fun _ m => kept_release gate m) fun i => List.getElem?_map
  | release gate =>
    exact .of_getElem? _ (fun _ m => kept_release gate m) fun i => List.getElem?_map
  | spawnRefresh name => exact .of_members rfl
  | isBlocked name => exact .of_members rfl
  | join name =>
    simp only [performGate]
    split
    · exact .of_members rfl
    · exact .of_members rfl

theorem spares_performTask (s : Session) (action : TaskAction) :
    s.Spares (s.performTask action).1 := by
  cases action with
  | start kind name interval signal =>
    simp only [performTask]
    split
    · exact .of_members rfl
    · split
      · exact .of_members rfl
      · next started start =>
        obtain ⟨i, _, _, _, rfl⟩ := startTask_eq_ok_iff.1 start
        exact .of_append rfl rfl rfl
  | abort name =>
    simp only [performTask]
    split
    · next index _ =>
      refine .of_getElem? (fun i m => if index = i then
        { m with task := { m.task with abortRequested := true } } else m) (fun i m => ?_)
        fun i => ?_
      · split
        · exact ⟨⟨true, rfl, fun _ => rfl⟩, rfl⟩
        · exact .refl m
      · rw [List.getElem?_modify]
        split <;> simp
    · exact .of_members rfl
  | hasEnded name => exact .of_members rfl
  | join name =>
    simp only [performTask]
    split
    · split <;> exact .of_members rfl
    · exact .of_members rfl

theorem spares_perform (s : Session) (action : Action) : s.Spares (s.perform action).1 := by
  cases action with
  | set key item settings =>
    obtain ⟨sources, built⟩ := s.build_frame item settings
    refine .of_members ?_
    show (s.build item settings).1.background.members = _
    rw [built]
  | showValue item settings =>
    obtain ⟨sources, built⟩ := s.build_frame item settings
    refine .of_members ?_
    show (s.build item settings).1.background.members = _
    rw [built]
  | store action =>
    obtain ⟨held, eq⟩ := s.performStore_frame action
    rw [perform, eq]
    exact .of_members rfl
  | policy action =>
    rw [perform]
    rcases s.performPolicy_frame action with eq | ⟨_, _, _, eq⟩
    · rw [eq]
      exact .of_members rfl
    · rw [eq]
      exact .of_members rfl
  | note action => exact .of_members rfl
  | channel action => exact .of_members rfl
  | gate action => exact s.spares_performGate action
  | task action => exact s.spares_performTask action

theorem spares_answer (s : Session) (q : Request) : s.Spares (s.answer q).1 := by
  cases q with
  | act action => exact ⟨(s.spares_perform action).kept, (s.spares_perform action).fresh⟩
  | settle key callback result =>
    obtain ⟨journal, eq⟩ := s.settleOutcome_frame key callback result
    refine .of_members ?_
    show (s.settleOutcome key callback result).1.background.members = _
    rw [eq]
  | attempt source =>
    obtain ⟨sources, journal, eq⟩ := s.beginAttempt_frame source
    refine .of_members ?_
    show (s.beginAttempt source).1.background.members = _
    rw [eq]
  | snapshot => exact .of_members rfl
  | record note => exact .of_members rfl
  | heldCallback slot => exact .of_members rfl

/-! ## Steps -/

section Step

variable {s t : Session} {i : Nat}

theorem getElem?_putMember_self {m : Member} (found : s.background.members[i]? = some m)
    (m' : Member) : (s.putMember i m').background.members[i]? = some m' := by
  obtain ⟨inside, _⟩ := List.getElem?_eq_some_iff.1 found
  exact List.getElem?_set_self inside

theorem getElem?_putMember_ne {j : Nat} (other : j ≠ i) (m' : Member) :
    (s.putMember j m').background.members[i]? = s.background.members[i]? :=
  List.getElem?_set_ne other

theorem getElem?_putMember_none (absent : s.background.members[i]? = none) {j : Nat}
    {m : Member} : (s.putMember j m).background.members[i]? = none := by
  rw [List.getElem?_eq_none_iff] at absent ⊢
  exact Nat.le_trans (Nat.le_of_eq List.length_set) absent

theorem doPiece_look_eq {m : Member} (found : s.background.members[i]? = some m) :
    s.doPiece (.look i) = s.applyLook i m (s.look m).1 (s.look m).2 := by
  simp only [doPiece, found]
  rfl

/-- What a look makes of the task that is looked at. -/
theorem steps_look {m : Member} (found : s.background.members[i]? = some m) :
    ∃ m', (s.doPiece (.look i)).background.members[i]? = some m' ∧
      m.Steps s.elapsed (s.stops.channel m.task.signal.channel) m' := by
  have looks := Task.looks s.elapsed (s.stops.channel m.task.signal.channel) m.task
  rw [doPiece_look_eq found]
  change Task.Looks _ _ m.task (s.look m).1 (s.look m).2 at looks
  generalize (s.look m).1 = task at looks ⊢
  generalize (s.look m).2 = step at looks ⊢
  have put : ∀ (t : Session) (m' : Member), t.background.members = s.background.members →
      (t.putMember i m').background.members[i]? = some m' := by
    intro t m' same
    exact getElem?_putMember_self (same ▸ found) m'
  cases step with
  | idle => exact ⟨m, found, .kept (.refl m)⟩
  | begun => exact ⟨_, put _ _ rfl, .looks looks (fun _ => rfl) nofun⟩
  | overflowed => exact ⟨_, put _ _ rfl, .looks looks (fun _ => rfl) nofun⟩
  | stopped => exact ⟨_, put _ _ rfl, .looks looks (fun _ => rfl) nofun⟩
  | cancelled => exact ⟨_, put _ _ rfl, .looks looks (fun _ => rfl) nofun⟩
  | ticked =>
    have kind : task.kind = m.task.kind := by
      cases looks with
      | ticked => unfold Task.tick; split <;> rfl
    unfold applyLook tickWork
    cases hk : task.kind with
    | refreshWorker =>
      exact ⟨_, put _ _ rfl,
        .looks looks nofun fun _ => ⟨fun _ => kind.symm.trans hk, fun _ => rfl⟩⟩
    | flusher =>
      refine ⟨_, put _ _ rfl, .looks looks nofun fun _ => ⟨nofun, fun worker => ?_⟩⟩
      rw [← kind, hk] at worker
      cases worker

theorem getElem?_doPiece_look_ne {j : Nat} (other : j ≠ i) :
    (s.doPiece (.look j)).background.members[i]? = s.background.members[i]? := by
  have looked := s.doPiece_look j
  generalize s.doPiece (.look j) = after at looked
  cases looked with
  | idle => rfl
  | passed => exact getElem?_putMember_ne other _

/-- What the end of a cycle makes of the task that began it. -/
theorem steps_endCycle {m : Member} (found : s.background.members[i]? = some m)
    (inCycle : m.cycle.isSome = true) (result : Except String Summary) {now : Nat}
    {channel : StopChannel} :
    ∃ m', (s.endCycle i result).background.members[i]? = some m' ∧ m.Steps now channel m' := by
  unfold endCycle
  simp only [found]
  by_cases left : (m.task.hasEnded || m.task.abortRequested) = true
  · rw [if_pos left]
    exact ⟨_, getElem?_putMember_self found _, .outlives inCycle left⟩
  · rw [if_neg left]
    simp only [Bool.or_eq_true, not_or, Bool.not_eq_true] at left
    have reported : (s.reportCycle result).background.members[i]? = some m := by
      cases result with
      | ok summary => exact found
      | error message => exact found
    exact ⟨_, getElem?_putMember_self reported _, .returns inCycle left.1 left.2⟩

theorem getElem?_endCycle_ne {j : Nat} (other : j ≠ i) (result : Except String Summary) :
    (s.endCycle j result).background.members[i]? = s.background.members[i]? := by
  rcases s.endCycle_cases j result with eq | ⟨_, _, _, _, _, _, eq⟩
  · rw [eq]
  · rw [eq]
    exact getElem?_putMember_ne other _

/-- A task goes on from one step to the next. -/
theorem Step.member (step : Step s t) {m : Member}
    (found : s.background.members[i]? = some m) :
    ∃ m', t.background.members[i]? = some m' ∧
      m.Steps s.elapsed (s.stops.channel m.task.signal.channel) m' := by
  cases step with
  | request q =>
    obtain ⟨m', there, kept⟩ := (s.spares_answer q).kept found
    exact ⟨m', there, .kept kept⟩
  | look index =>
    by_cases same : index = i
    · subst same
      exact steps_look found
    · exact ⟨m, (getElem?_doPiece_look_ne same).trans found, .kept (.refl m)⟩
  | @cycleMoves index old progress there inCycle =>
    by_cases same : index = i
    · subst same
      rw [found, Option.some.injEq] at there
      subst there
      exact ⟨_, getElem?_putMember_self found _, .moves progress inCycle⟩
    · exact ⟨m, (getElem?_putMember_ne same _).trans found, .kept (.refl m)⟩
  | @cycleEnds index result has =>
    by_cases same : index = i
    · subst same
      obtain ⟨old, there, inCycle⟩ := has
      rw [found, Option.some.injEq] at there
      subst there
      exact steps_endCycle found inCycle result
    · exact ⟨m, (getElem?_endCycle_ne same result).trans found, .kept (.refl m)⟩
  | threads => exact ⟨m, found, .kept (.refl m)⟩
  | runtime => exact ⟨m, found, .kept (.refl m)⟩
  | time => exact ⟨m, found, .kept (.refl m)⟩

/-- A task that was not there before has not run yet. -/
theorem Step.newMember (step : Step s t) {m : Member}
    (absent : s.background.members[i]? = none) (found : t.background.members[i]? = some m) :
    m.task.phase = .fresh ∧ m.cycle = none := by
  cases step with
  | request q => exact (s.spares_answer q).fresh absent found
  | look index =>
    have looked := s.doPiece_look index
    generalize s.doPiece (.look index) = after at looked found
    cases looked with
    | idle =>
      rw [absent] at found
      cases found
    | passed =>
      rw [getElem?_putMember_none absent] at found
      cases found
  | cycleMoves =>
    rw [getElem?_putMember_none absent] at found
    cases found
  | @cycleEnds index result has =>
    rcases s.endCycle_cases index result with eq | ⟨_, _, journal, _, _, _, eq⟩
    · rw [eq, absent] at found
      cases found
    · rw [eq] at found
      cases (getElem?_putMember_none (s := { s with journal }) absent).symm.trans found
  | threads => rw [absent] at found; cases found
  | runtime => rw [absent] at found; cases found
  | time => rw [absent] at found; cases found

end Step

end Session

end WarmCache
