import WarmCache.Proofs.Lives

/-!
# How background tasks end

A task that was started goes on whatever the cache holds and whatever callbacks do, and however
its cycles end. It ends because it sees its stop signal or gives way to an abort. But its start
does not ask whether its first deadline can be counted, and a task that begins without one panics.

Results:
1. `Member.Steps.running`: a step that ends a task does so for a cause.
2. `ended_for_cause`: every task that is gone had such a cause.
3. `tasks_end_for_cause`: causes, tasks that go on, and what a join answers after a stop.
-/

namespace WarmCache

/-- Why a task that is looked at, at `now` and with its stop channel as it is, ends so. -/
inductive Task.Cause (now : Nat) (channel : StopChannel) (t : Task) : TaskEnd → Prop
  | stopped : t.signal.isStopped channel = true → Cause now channel t .stopped
  | cancelled : t.abortRequested = true → Cause now channel t .cancelled
  /-- The first deadline lies beyond counting. -/
  | uncounted : t.phase = .fresh → Ticker.horizon ≤ now + t.interval.toNanos →
      Cause now channel t (.panicked overflowMessage)

theorem Ticker.start?_eq_none_iff {now : Nat} {i : Interval} {missed : MissedTicks} :
    start? now i missed = none ↔ horizon ≤ now + i.toNanos := by
  unfold start?
  split
  · next counted => exact ⟨nofun, fun beyond => absurd beyond (Nat.not_le_of_lt counted)⟩
  · next beyond => exact ⟨fun _ => Nat.le_of_not_lt beyond, fun _ => rfl⟩

namespace Member

variable {now : Nat} {channel : StopChannel} {m m' : Member}

/-- A task that is gone stays so, and one that ends does so for a cause. -/
theorem Steps.running (h : m.Steps now channel m') {how : TaskEnd}
    (ended : m'.task.phase = .ended how) :
    m.task.phase = .ended how ∨ (m.task.hasEnded = false ∧ m.task.Cause now channel how) := by
  cases h with
  | kept kept => exact .inl (kept.phase.symm.trans ended)
  | looks looks =>
    cases looks with
    | idle => exact .inl ended
    | cancelled running abort =>
      obtain rfl := Phase.ended.inj ended
      exact .inr ⟨running, .cancelled abort⟩
    | begun => cases ended
    | overflowed fresh _ none =>
      obtain rfl := Phase.ended.inj ended
      refine .inr ⟨?_, .uncounted fresh (Ticker.start?_eq_none_iff.1 none)⟩
      rw [Task.hasEnded, fresh]
    | stopped _ waiting _ stop =>
      obtain rfl := Phase.ended.inj ended
      refine .inr ⟨?_, .stopped stop⟩
      rw [Task.hasEnded, waiting]
    | ticked =>
      unfold Task.tick at ended
      dsimp only at ended
      split at ended <;> cases ended
  | moves => exact .inl ended
  | returns =>
    unfold Task.cycleEnded at ended
    dsimp only at ended
    split at ended
    · cases ended
    · exact .inl ended
  | outlives => exact .inl ended

theorem Steps.abortRequested (h : m.Steps now channel m') (abort : m.task.abortRequested = true) :
    m'.task.abortRequested = true := by
  cases h with
  | kept kept =>
    obtain ⟨flag, same, more⟩ := kept.task
    rw [same]
    exact more abort
  | looks looks =>
    cases looks with
    | ticked => unfold Task.tick; dsimp only; split <;> exact abort
    | _ => exact abort
  | moves => exact abort
  | returns => unfold Task.cycleEnded; dsimp only; split <;> exact abort
  | outlives => exact abort

/-- Only a task that is to be aborted is cancelled. -/
theorem Steps.cancelled (h : m.Steps now channel m')
    (before : m.task.phase = .ended .cancelled → m.task.abortRequested = true)
    (ended : m'.task.phase = .ended .cancelled) : m'.task.abortRequested = true := by
  rcases h.running ended with gone | ⟨_, cause⟩
  · exact h.abortRequested (before gone)
  · cases cause with
    | cancelled abort => exact h.abortRequested abort

/-- A task that works has a cycle, unless it is to be aborted. -/
def Busy (m : Member) : Prop :=
  ∀ ticker, m.task.phase = .working ticker → m.cycle.isSome = true ∨ m.task.abortRequested = true

theorem Steps.busy (h : m.Steps now channel m') (busy : m.Busy) : m'.Busy := by
  intro ticker working
  cases h with
  | kept kept =>
    obtain ⟨flag, same, more⟩ := kept.task
    rcases busy ticker (kept.phase.symm.trans working) with inCycle | abort
    · exact .inl (kept.cycle.trans inCycle)
    · rw [same]
      exact .inr (more abort)
  | @looks task step cycle looks other ticks =>
    cases looks with
    | idle =>
      rcases busy ticker working with inCycle | abort
      · rw [other nofun]
        exact .inl inCycle
      · exact .inr abort
    | ticked =>
      refine .inl ((ticks rfl).2 ?_)
      unfold Task.tick at working
      dsimp only at working
      split at working
      · assumption
      · cases working
    | _ => cases working
  | moves => exact .inl rfl
  | returns =>
    unfold Task.cycleEnded at working
    dsimp only at working
    split at working
    · cases working
    · next other => exact absurd working (other ticker)
  | outlives inCycle left =>
    refine .inr ?_
    rw [Task.hasEnded, working, Bool.false_or] at left
    exact left

end Member

namespace Session

variable {ttl : Span} {limit : Option Nat} {time : TimeSource} {hasRuntime : Bool} {s : Session}

/-- In this session task `index`, which was not gone, has a cause to end so. -/
def GivesCause (r : Session) (index : Nat) (interval : Interval) (how : TaskEnd) : Prop :=
  ∃ m, r.background.members[index]? = some m ∧ m.task.hasEnded = false ∧
    m.task.interval = interval ∧
    m.task.Cause r.elapsed (r.stops.channel m.task.signal.channel) how

/-- Whatever holds of a task before it has run, and is kept by every step of its life, holds of
all tasks of a reachable session. -/
theorem Reachable.members {P : Member → Prop}
    (fresh : ∀ m, m.task.phase = .fresh → m.cycle = none → P m)
    (steps : ∀ now channel m m', Member.Steps now channel m m' → P m → P m')
    (reached : Reachable ttl limit time hasRuntime s) : ∀ m ∈ s.background.members, P m := by
  have each : ∀ (i : Nat) (m : Member), s.background.members[i]? = some m → P m := by
    induction reached with
    | refl => exact nofun
    | @tail r s _ step ih =>
      intro i m' found
      cases before : r.background.members[i]? with
      | none =>
        obtain ⟨phase, idle⟩ := step.newMember before found
        exact fresh m' phase idle
      | some m =>
        obtain ⟨m'', there, life⟩ := step.member before
        rw [found, Option.some.injEq] at there
        subst there
        exact steps _ _ m m' life (ih i m before)
  intro m hm
  obtain ⟨i, found⟩ := List.getElem?_of_mem hm
  exact each i m found

theorem ended_for_cause (reached : Reachable ttl limit time hasRuntime s) {i : Nat} {m : Member}
    {how : TaskEnd} (found : s.background.members[i]? = some m)
    (ended : m.task.phase = .ended how) :
    ∃ r, Reachable ttl limit time hasRuntime r ∧ Reaches r s ∧
      r.GivesCause i m.task.interval how := by
  induction reached generalizing m with
  | refl => cases found
  | @tail r s before step ih =>
    cases there : r.background.members[i]? with
    | none =>
      obtain ⟨fresh, _⟩ := step.newMember there found
      cases fresh.symm.trans ended
    | some old =>
      obtain ⟨m', now, life⟩ := step.member there
      rw [found, Option.some.injEq] at now
      subst now
      rcases life.running ended with gone | ⟨running, cause⟩
      · obtain ⟨q, reached, later, given⟩ := ih there gone
        refine ⟨q, reached, later.tail step, ?_⟩
        rw [life.interval]
        exact given
      · exact ⟨r, before, .single step, old, there, running, life.interval.symm, cause⟩

/-! ## Sessions in which nothing can go on -/

theorem look_idle_of_lookPieces {i : Nat} {m : Member} (none : s.lookPieces = [])
    (found : s.background.members[i]? = some m) : (s.look m).2 = .idle := by
  have one := List.filterMap_eq_nil_iff.1 none (m, i)
    (List.mem_zipIdx_iff_getElem?.2 found)
  by_contra other
  simp only [other, if_false, reduceCtorEq] at one

theorem look_idle_of_pieces {i : Nat} {m : Member} (settled : s.pieces = [])
    (found : s.background.members[i]? = some m) : (s.look m).2 = .idle :=
  look_idle_of_lookPieces (List.append_eq_nil_iff.1 (List.append_eq_nil_iff.1 settled).1).2 found

/-- A task that is stopped ends before the background settles, unless its cycle is held up. -/
theorem ended_of_pieces (reached : Reachable ttl limit time hasRuntime s) {i : Nat} {m : Member}
    (settled : s.pieces = []) (found : s.background.members[i]? = some m)
    (kept : m.task.abortRequested = false) (idle : m.cycle = none)
    (stop : m.task.signal.isStopped (s.stops.channel m.task.signal.channel) = true) :
    ∃ how, m.task.phase = .ended how := by
  have nothing := look_idle_of_pieces settled found
  have busy : m.Busy := Reachable.members (fun m phase _ ticker working => by
    cases phase.symm.trans working) (fun _ _ _ _ life => life.busy) reached m
      (List.mem_of_getElem? found)
  unfold look at nothing
  cases phase : m.task.phase with
  | fresh =>
    simp only [Task.look, phase, kept, Bool.false_eq_true, if_false] at nothing
    unfold Task.begin at nothing
    split at nothing <;> cases nothing
  | waiting ticker =>
    have seen := (StopSignal.wait_eq_isStopped m.task.signal _).trans stop
    simp only [Task.look, phase, kept, Bool.false_eq_true, if_false, Task.lookWaiting, seen,
      if_true] at nothing
    cases nothing
  | working ticker =>
    rcases busy ticker phase with inCycle | abort
    · rw [idle] at inCycle
      cases inCycle
    · rw [kept] at abort
      cases abort
  | ended how => exact ⟨how, rfl⟩

/-- What the join of a task answers that ended so. -/
theorem join_of_ended {name : String} {i : Nat} {m : Member} {how : TaskEnd}
    (named : s.background.taskNames.find? name = some i)
    (found : s.background.members[i]? = some m) (ended : m.task.phase = .ended how) :
    (s.perform (.task (.join name))).2 = match how with
      | .stopped => .done
      | .cancelled => .cancelled
      | .panicked message => .panicked message := by
  simp only [perform, performTask, memberOf?, named, Option.bind_some, found, Option.map_some,
    ended]
  cases how <;> rfl

/-- A background task of a reachable session ends because it sees its stop signal or gives way to
an abort, or else it panics when it begins, as its first deadline cannot be counted. No other step
ends it: not what callers and callbacks do, and not the end of a cycle, be it by a panic. Once a
task is stopped that nobody aborts, a join answers that it is done as soon as nothing goes on any
more, but for that panic. -/
theorem tasks_end_for_cause (reached : Reachable ttl limit time hasRuntime s) :
    (∀ (i : Nat) (m : Member) (how : TaskEnd), s.background.members[i]? = some m →
      m.task.phase = .ended how →
      ∃ r, Reachable ttl limit time hasRuntime r ∧ Reaches r s ∧
        r.GivesCause i m.task.interval how) ∧
    (∀ (t : Session) (i : Nat) (m : Member), Step s t → s.background.members[i]? = some m →
      m.task.hasEnded = false → m.task.abortRequested = false →
      m.task.signal.isStopped (s.stops.channel m.task.signal.channel) = false →
      (m.task.phase = .fresh → s.elapsed + m.task.interval.toNanos < Ticker.horizon) →
      ∃ m', t.background.members[i]? = some m' ∧ m'.task.hasEnded = false) ∧
    (∀ (name : String) (i : Nat) (m : Member), s.pieces = [] →
      s.background.taskNames.find? name = some i → s.background.members[i]? = some m →
      m.task.abortRequested = false → m.cycle = none →
      m.task.signal.isStopped (s.stops.channel m.task.signal.channel) = true →
      (s.perform (.task (.join name))).2 = .done ∨
        m.task.phase = .ended (.panicked Task.overflowMessage)) := by
  refine ⟨fun i m how found ended => ended_for_cause reached found ended,
    fun t i m step found running kept waits counted => ?_,
    fun name i m settled named found kept idle stop => ?_⟩
  · obtain ⟨m', there, life⟩ := step.member found
    refine ⟨m', there, Bool.eq_false_iff.2 fun gone => ?_⟩
    obtain ⟨how, ended⟩ := m'.task.hasEnded_iff.1 gone
    rcases life.running ended with before | ⟨_, cause⟩
    · rw [m.task.hasEnded_iff.2 ⟨how, before⟩] at running
      cases running
    · cases cause with
      | stopped stop =>
        rw [waits] at stop
        cases stop
      | cancelled abort =>
        rw [kept] at abort
        cases abort
      | uncounted fresh beyond => exact absurd (counted fresh) (Nat.not_lt_of_le beyond)
  · obtain ⟨how, ended⟩ := ended_of_pieces reached settled found kept idle stop
    obtain ⟨r, _, _, _, _, _, _, cause⟩ := ended_for_cause reached found ended
    rw [join_of_ended named found ended]
    cases how with
    | stopped => exact .inl rfl
    | cancelled =>
      have abort := Reachable.members (fun m phase _ (gone : m.task.phase = .ended .cancelled) => by
        cases phase.symm.trans gone) (fun _ _ _ _ life => life.cancelled) reached m
          (List.mem_of_getElem? found) ended
      rw [kept] at abort
      cases abort
    | panicked message =>
      cases cause
      exact .inr ended

/-- A worker whose every refresh panics is stopped after three seconds: its join answers that it
is done. -/
theorem tasks_end_for_cause_panics :
    let step : WarmCache.Step := .mk none [] (.panicked "boom")
    let s := ((ofCache (.ofSecs 60) none (.manual ⟨0, 0⟩) true).run
      [.run (.act (.set "a" 1 [.refresh (.mk "source" step [] false [])])),
        .run (.act (.channel (.create "stop"))),
        .run (.act (.task (.start .refreshWorker "worker" (.ofSecs 1) "stop"))),
        .sleep (.ofSecs 3),
        .run (.act (.channel (.stop "stop")))]).1
    s.journal.calls = [("source", 3)] ∧ (s.perform (.task (.join "worker"))).2 = .done := by
  intro step s
  have reached : Reachable (.ofSecs 60) none (.manual ⟨0, 0⟩) true s := Reachable.run .refl _
  have settled : s.pieces = [] := by decide +kernel
  have only : s.background.members.map (fun m => (m.task.phase, m.task.abortRequested,
      m.cycle.isSome, m.task.signal.isStopped (s.stops.channel m.task.signal.channel))) =
      [(.ended .stopped, false, false, true)] := by decide +kernel
  have first := congrArg (fun l => l[0]?) only
  simp only [List.getElem?_map, List.getElem?_cons_zero, Option.map_eq_some_iff,
    Prod.mk.injEq] at first
  obtain ⟨m, found, phase, kept, idle, stop⟩ := first
  obtain ⟨_, _, joins⟩ := tasks_end_for_cause reached
  refine ⟨by decide +kernel, ?_⟩
  rcases joins "worker" 0 m settled (by decide +kernel) found kept
    (Option.not_isSome_iff_eq_none.1 (Bool.eq_false_iff.1 idle)) stop with done | panicked
  · exact done
  · cases phase.symm.trans panicked

/-- A worker with an interval of `2 ^ 64 - 1` seconds is accepted. It panics when it begins,
neither stopped nor aborted, and its join answers the panic after a stop too. -/
theorem task_panics_uncounted :
    let begun := ((ofCache (.ofSecs 60) none (.manual ⟨0, 0⟩) true).run
      [.run (.act (.channel (.create "stop"))),
        .run (.act (.task (.start .refreshWorker "worker" ⟨18446744073709551615, 0⟩ "stop")))]).1
    let s := (begun.run [.run (.act (.channel (.stop "stop")))]).1
    begun.background.members.map (fun m => (m.task.phase, m.task.abortRequested,
        m.task.signal.isStopped (begun.stops.channel m.task.signal.channel))) =
      [(.ended (.panicked Task.overflowMessage), false, false)] ∧
      (s.perform (.task (.join "worker"))).2 = .panicked Task.overflowMessage := by
  intro begun s
  have only : s.background.members.map (fun m => m.task.phase) =
      [.ended (.panicked Task.overflowMessage)] := by decide +kernel
  have first := congrArg (fun l => l[0]?) only
  simp only [List.getElem?_map, List.getElem?_cons_zero, Option.map_eq_some_iff] at first
  obtain ⟨m, found, phase⟩ := first
  exact ⟨by decide +kernel, join_of_ended (by decide +kernel) found phase⟩

end Session

end WarmCache
