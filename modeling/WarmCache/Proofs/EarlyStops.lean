import WarmCache.Proofs.Draining

/-!
# Tasks that are stopped before their first tick

Tasks were started and have yet to run. They go on in any order, time passes, and they are asked to
stop, all as long as no tick falls due for a task that was not asked. Then each of them begins,
waits and is stopped, and reports so. Nothing else comes of it.

Results:
1. `look_untouched`: a look at such a task is for nothing, or the task begins or is stopped.
2. `Unticked.untouched`: whatever the order, the entries stay as they were, and all that is reported
   comes from the tasks.
3. `Unticked.ends`: when all were asked to stop and nothing can go on, all are gone.
-/

namespace WarmCache

/-! ## One task -/

theorem Ticker.not_isDue_of_lt (t : Ticker) {now : Nat} (h : now < t.deadline) :
    t.isDue now = false :=
  Bool.eq_false_iff.2 fun due => Nat.not_le_of_lt h (t.deadline_le_of_isDue now due)

/-- How far a task has come that took no tick and was started at `since` at the earliest. -/
inductive Phase.Tickless (since : Nat) (interval : Interval) (stopped : Bool) : Phase → Prop
  | fresh : Tickless since interval stopped .fresh
  | waiting {ticker : Ticker} : since + interval.toNanos ≤ ticker.deadline →
      Tickless since interval stopped (.waiting ticker)
  | ended : stopped = true → Tickless since interval stopped (.ended .stopped)

namespace Member

/-- What a task was given when it was started. -/
def brief (m : Member) : TaskKind × Interval × Nat :=
  (m.task.kind, m.task.interval, m.task.signal.channel)

/-- What a task has reported when it is stopped before its first tick, newest first. -/
def life (m : Member) : List Event :=
  [.stopped m.task.kind, .begun m.task.kind m.task.interval]

/-- What it has reported so far. -/
def said (m : Member) : List Event :=
  match m.task.phase with
  | .fresh => []
  | .ended _ => m.life
  | _ => [.begun m.task.kind m.task.interval]

theorem flatMap_life {ms ms' : List Member} (same : ms.map brief = ms'.map brief) :
    ms.flatMap life = ms'.flatMap life := by
  have ofBriefs : ∀ ms : List Member,
      ms.flatMap life =
        (ms.map brief).flatMap fun brief => [.stopped brief.1, .begun brief.1 brief.2.1] := by
    intro ms
    rw [List.flatMap_map]
    rfl
  rw [ofBriefs, ofBriefs, same]

/-- At `now` no tick falls due for a task unless it is asked to stop, and if it has yet to begin it
can count to its first deadline. -/
def Spared (now : Nat) (stopped : Bool) (m : Member) : Prop :=
  match m.task.phase with
  | .fresh => now + m.task.interval.toNanos < Ticker.horizon
  | .waiting ticker => stopped = false → ticker.isDue now = false
  | _ => True

theorem Spared.mono {now : Nat} {m : Member} (h : m.Spared now false) (stopped : Bool) :
    m.Spared now stopped := by
  unfold Spared at h ⊢
  split at h
  · exact h
  · exact fun _ => h rfl
  · trivial

/-- A task that took no tick and that none falls due for at `now`. -/
structure Untouched (since now : Nat) (stopped : Bool) (m : Member) : Prop where
  kept : m.task.abortRequested = false
  idle : m.cycle = none
  phase : m.task.phase.Tickless since m.task.interval stopped
  spared : m.Spared now stopped

namespace Untouched

variable {since now : Nat} {stopped : Bool} {m : Member}

/-- Time passes. -/
theorem time (h : m.Untouched since now stopped) {later : Nat} (spared : m.Spared later stopped) :
    m.Untouched since later stopped :=
  { h with spared }

/-- The task is asked to stop, or another one is. -/
theorem stop (h : m.Untouched since now stopped) {stopped' : Bool}
    (more : stopped = true → stopped' = true) : m.Untouched since now stopped' := by
  obtain ⟨⟨kind, interval, signal, phase, abort⟩, cycle⟩ := m
  obtain ⟨kept, idle, tickless, spared⟩ := h
  cases tickless with
  | fresh => exact ⟨kept, idle, .fresh, spared⟩
  | waiting ahead =>
    refine ⟨kept, idle, .waiting ahead, fun goesOn => spared (Bool.eq_false_iff.2 fun told => ?_)⟩
    cases (more told).symm.trans goesOn
  | ended told => exact ⟨kept, idle, .ended (more told), trivial⟩

end Untouched

end Member

namespace Session

variable {b s : Session} {index : Nat} {m : Member}

/-- Whether a task was asked to stop. -/
def isTold (s : Session) (m : Member) : Bool := s.stops.isStopped m.task.signal.channel

/-- A look at a task that took no tick is for nothing, or the task goes on by one step, which it
reports. -/
theorem look_untouched {since : Nat} (found : s.background.members[index]? = some m)
    (h : m.Untouched since s.elapsed (s.isTold m)) (later : since ≤ s.elapsed) :
    s.doPiece (.look index) = s ∨
      ∃ m' event, m'.Untouched since s.elapsed (s.isTold m) ∧ m'.brief = m.brief ∧
        m'.said = event :: m.said ∧
        s.doPiece (.look index) = (s.report event).putMember index m' := by
  have looks := Task.looks s.elapsed (s.stops.channel m.task.signal.channel) m.task
  have channel := m.task.look_channel s.elapsed (s.stops.channel m.task.signal.channel)
  rw [doPiece_look_eq found]
  change Task.Looks _ _ m.task (s.look m).1 (s.look m).2 at looks
  change (s.look m).1.signal.channel = _ at channel
  generalize (s.look m).1 = task at looks channel ⊢
  generalize (s.look m).2 = step at looks ⊢
  obtain ⟨kept, idle, phase, spared⟩ := h
  cases looks with
  | idle signal => exact .inl rfl
  | cancelled _ abort => cases kept.symm.trans abort
  | @begun ticker fresh _ starts =>
    refine .inr ⟨{ m with task := { m.task with phase := .waiting ticker } },
      .begun m.task.kind m.task.interval, ⟨kept, idle, ?_, ?_⟩, rfl, ?_, rfl⟩
    · refine .waiting ?_
      rw [(Ticker.start?_eq_some starts).1]
      exact Nat.add_le_add_right later _
    · intro _
      refine ticker.not_isDue_of_lt ?_
      rw [(Ticker.start?_eq_some starts).1]
      exact Nat.lt_add_of_pos_right m.task.interval.pos
    · simp only [Member.said, fresh]
  | overflowed fresh _ overflows =>
    simp only [Member.Spared, fresh] at spared
    simp only [Ticker.start?, if_pos spared, reduceCtorEq] at overflows
  | @stopped ticker signal waiting _ stopped =>
    rw [StopSignal.isStopped_channel] at stopped
    refine .inr ⟨{ m with task := { m.task with signal, phase := .ended .stopped } },
      .stopped m.task.kind, ⟨kept, idle, .ended stopped, trivial⟩, ?_, ?_, rfl⟩
    · exact congrArg (fun c => (m.task.kind, m.task.interval, c)) channel
    · simp only [Member.said, Member.life, waiting]
  | @ticked ticker signal waiting _ goesOn due =>
    rw [StopSignal.isStopped_channel] at goesOn
    simp only [Member.Spared, waiting] at spared
    cases (spared goesOn).symm.trans due

/-- The next tick can only be delivered later than at a time at which none falls due. -/
theorem lt_nextDueMilli {now due : Nat} (spared : ∀ m ∈ s.background.members, m.Spared now false)
    (next : s.background.nextDueMilli? = some due) : now / Span.nanosPerMilli < due := by
  obtain ⟨m, there, waits⟩ := List.mem_filterMap.1 (List.min?_mem next)
  have ahead := spared m there
  unfold Task.dueMilli? at waits
  split at waits
  · next ticker phase =>
    obtain rfl := Option.some.inj waits
    simp only [Member.Spared, phase] at ahead
    exact Nat.lt_of_not_le (of_decide_eq_false (ahead trivial))
  · cases waits

/-- Time passes at one stroke if no tick can be delivered on the way. -/
theorem passMillis_of_lt {past target from' : Nat} (free : s.background.isBlocked = false)
    (ahead : ∀ due, s.background.nextDueMilli? = some due → target < due) :
    passMillis past target from' s =
      ({ s with elapsed := Span.nanosPerMilli * target + past }, true) := by
  unfold passMillis
  rw [if_neg (ne_true_of_eq_false free)]
  cases next : s.background.nextDueMilli? with
  | none => rfl
  | some due => exact if_neg fun both => Nat.not_le_of_lt (ahead due next) both.2

/-- What every piece of work keeps is kept until a session has settled. -/
theorem settle_of_piece {P : Session → Prop}
    (piece : ∀ {t : Session} (next : Piece), P t → P (t.doPiece next)) (h : P s) : P s.settle := by
  have within : ∀ (pieces : Nat) {t : Session}, P t → P (settleWithin pieces t) := by
    intro pieces
    induction pieces with
    | zero => exact id
    | succ pieces ih =>
      intro t h
      unfold settleWithin step?
      cases t.pieces.head? with
      | none => exact h
      | some next => exact ih (piece next h)
  exact within _ h

/-! ## All tasks, in any order -/

/-- Session `b` goes on, and no tick falls due for a task that was not asked to stop. Pieces of
background work are done in any order, and nothing has to be done before something else happens. -/
inductive Unticked (b : Session) : Session → Prop
  | begins : Unticked b b
  | piece {s : Session} (piece : Piece) : Unticked b s → Unticked b (s.doPiece piece)
  | stop {s : Session} (handle : String) :
      Unticked b s → Unticked b { s with stops := s.stops.stop handle }
  | time {s : Session} {now : Nat} : Unticked b s → s.elapsed ≤ now →
      (∀ m ∈ s.background.members, m.Spared now (s.isTold m)) →
      Unticked b { s with elapsed := now }

/-- No task took a tick since session `b`. The entries are what they were then, and only the tasks
have reported anything. -/
structure Untouched (b s : Session) : Prop where
  later : b.elapsed ≤ s.elapsed
  cache : ∃ taken, s.cache = b.cache.claim taken
  threads : s.background.threads = []
  briefs : s.background.members.map Member.brief = b.background.members.map Member.brief
  each : ∀ m ∈ s.background.members, m.Untouched b.elapsed s.elapsed (s.isTold m)
  events : s.journal.events.Perm (s.background.members.flatMap Member.said ++ b.journal.events)

namespace Untouched

/-- All tasks have yet to run and can count to their first deadlines. -/
theorem begins (threads : b.background.threads = [])
    (fresh : ∀ m ∈ b.background.members, m.task.phase = .fresh)
    (each : ∀ m ∈ b.background.members, m.Untouched b.elapsed b.elapsed (b.isTold m)) :
    Untouched b b where
  later := Nat.le_refl _
  cache := ⟨b.cache.workerRunning, rfl⟩
  threads := threads
  briefs := rfl
  each := each
  events := by
    have silent : b.background.members.flatMap Member.said = [] := by
      refine List.flatMap_eq_nil_iff.2 fun m there => ?_
      simp only [Member.said, fresh m there]
    rw [silent]
    exact .refl _

/-- A task goes on and reports it. -/
theorem put (h : Untouched b s) (found : s.background.members[index]? = some m) {m' : Member}
    {event : Event} (untouched : m'.Untouched b.elapsed s.elapsed (s.isTold m))
    (brief : m'.brief = m.brief) (said : m'.said = event :: m.said) :
    Untouched b ((s.report event).putMember index m') where
  later := h.later
  cache := by
    obtain ⟨_, same⟩ := h.cache
    refine ⟨((s.report event).putMember index m').cache.workerRunning, ?_⟩
    show s.cache.claim _ = _
    rw [same]
    rfl
  threads := h.threads
  briefs := by
    obtain ⟨inside, rfl⟩ := List.getElem?_eq_some_iff.1 found
    show (s.background.members.set index m').map Member.brief = _
    rw [List.map_set, brief, ← List.map_set, List.set_getElem_self]
    exact h.briefs
  each := by
    intro x there
    rcases List.mem_or_eq_of_mem_set there with old | rfl
    · exact h.each x old
    · have channel : x.task.signal.channel = m.task.signal.channel :=
        congrArg (fun b => b.2.2) brief
      show x.Untouched _ _ (s.stops.isStopped x.task.signal.channel)
      rw [channel]
      exact untouched
  events := by
    obtain ⟨others, before, after⟩ := exists_others found
    have now := (after m').flatMap_right Member.said
    have was := before.flatMap_right Member.said
    rw [List.flatMap_cons] at now was
    rw [said] at now
    exact (h.events.cons event).trans
      (((was.append_right _).cons event).trans (now.symm.append_right _))

/-- A piece of work does nothing, or a task goes on and reports it. The stop channels stay as they
are. -/
theorem piece (h : Untouched b s) (piece : Piece) :
    Untouched b (s.doPiece piece) ∧ (s.doPiece piece).stops = s.stops := by
  cases piece with
  | look index =>
    cases found : s.background.members[index]? with
    | none =>
      simp only [doPiece, found]
      exact ⟨h, trivial⟩
    | some m =>
      have untouched := h.each m (List.mem_of_getElem? found)
      rcases look_untouched found untouched h.later with
        eq | ⟨m', event, untouched', brief, said, eq⟩
      · rw [eq]
        exact ⟨h, rfl⟩
      · rw [eq]
        exact ⟨h.put found untouched' brief said, rfl⟩
  | thread index =>
    simp only [doPiece, h.threads, List.getElem?_nil]
    exact ⟨h, trivial⟩
  | cycle index =>
    have idle : s.background.members[index]?.bind Member.cycle = none := by
      cases found : s.background.members[index]? with
      | none => rfl
      | some m => exact (h.each m (List.mem_of_getElem? found)).idle
    simp only [doPiece, idle]
    exact ⟨h, trivial⟩

theorem stops_settle (h : Untouched b s) : s.settle.stops = s.stops := by
  have settled := settle_of_piece (P := fun t => Untouched b t ∧ t.stops = s.stops)
    (fun next before => ⟨(before.1.piece next).1, (before.1.piece next).2.trans before.2⟩) ⟨h, rfl⟩
  exact settled.2

theorem stop (h : Untouched b s) (handle : String) :
    Untouched b { s with stops := s.stops.stop handle } :=
  { h with
    each := fun m there => (h.each m there).stop (Stops.isStopped_perform (.stop handle)) }

theorem time (h : Untouched b s) {now : Nat} (later : s.elapsed ≤ now)
    (spared : ∀ m ∈ s.background.members, m.Spared now (s.isTold m)) :
    Untouched b { s with elapsed := now } :=
  { h with
    later := Nat.le_trans h.later later
    each := fun m there => (h.each m there).time (spared m there) }

/-- A task that there is was there at the beginning. -/
theorem exists_brief (h : Untouched b s) (there : m ∈ s.background.members) :
    ∃ m₀ ∈ b.background.members, m₀.brief = m.brief :=
  List.mem_map.1 (h.briefs ▸ List.mem_map_of_mem there)

theorem isBlocked (h : Untouched b s) : s.background.isBlocked = false := by
  refine List.any_eq_false.2 fun m there => ?_
  rw [Member.isBlocked, (h.each m there).idle]
  exact Bool.false_ne_true

/-- When nothing can go on, a task waits and was not asked to stop, or it was stopped. -/
theorem rests (h : Untouched b s) (settled : s.pieces = []) (there : m ∈ s.background.members) :
    (∃ ticker, m.task.phase = .waiting ticker ∧
      b.elapsed + m.task.interval.toNanos ≤ ticker.deadline ∧ s.isTold m = false) ∨
    m.task.phase = .ended .stopped := by
  obtain ⟨index, found⟩ := List.getElem?_of_mem there
  have idle := look_idle_of_pieces settled found
  have tickless := (h.each m there).phase
  generalize phase : m.task.phase = reached at tickless ⊢
  cases tickless with
  | fresh => exact absurd idle (look_fresh_ne_idle phase)
  | waiting first =>
    have on := ((look_idle_waiting phase).1 idle).1
    rw [onDuty, Bool.and_eq_true, Bool.not_eq_true', Bool.not_eq_true'] at on
    exact .inl ⟨_, rfl, first, on.2⟩
  | ended _ => exact .inr rfl

/-- Then no tick falls due within an interval from the beginning. -/
theorem spared (h : Untouched b s) (settled : s.pieces = []) (there : m ∈ s.background.members)
    {now : Nat} (ahead : now < b.elapsed + m.task.interval.toNanos) : m.Spared now false := by
  unfold Member.Spared
  rcases h.rests settled there with ⟨ticker, phase, first, _⟩ | phase
  · rw [phase]
    exact fun _ => ticker.not_isDue_of_lt (Nat.lt_of_lt_of_le ahead first)
  · rw [phase]
    trivial

/-- When all tasks were asked to stop and nothing can go on, all are gone. -/
theorem ended (h : Untouched b s) (settled : s.pieces = [])
    (told : ∀ m ∈ s.background.members, s.isTold m = true) :
    ∀ m ∈ s.background.members, m.task.phase = .ended .stopped := by
  intro m there
  rcases h.rests settled there with ⟨_, _, _, goesOn⟩ | gone
  · cases (told m there).symm.trans goesOn
  · exact gone

end Untouched

namespace Unticked

theorem untouched (h : Unticked b s) (begins : Untouched b b) : Untouched b s := by
  induction h with
  | begins => exact begins
  | piece piece _ ih => exact (ih.piece piece).1
  | stop handle _ ih => exact ih.stop handle
  | time _ later spared ih => exact ih.time later spared

theorem orderly (h : Unticked b s) (order : b.Orderly) : s.Orderly := by
  induction h with
  | begins => exact order
  | piece piece _ ih => exact ih.doPiece piece
  | stop handle _ ih => exact { ih with }
  | time _ _ _ ih => exact { ih with }

/-- To settle is one of the orders. -/
theorem settle (h : Unticked b s) : Unticked b s.settle := settle_of_piece .piece h

/-- Tasks that have yet to run and are asked to stop before their first ticks are stopped in
whatever order they go on. Each has reported its beginning and its end, and the entries are what
they were. -/
theorem ends (h : Unticked b s) (begins : Untouched b b) (settled : s.pieces = [])
    (told : ∀ m ∈ s.background.members, s.isTold m = true) :
    (∀ m ∈ s.background.members, m.task.phase = .ended .stopped) ∧
      (∃ taken, s.cache = b.cache.claim taken) ∧
      s.journal.events.Perm (b.background.members.flatMap Member.life ++ b.journal.events) := by
  have untouched := h.untouched begins
  have ended := untouched.ended settled told
  refine ⟨ended, untouched.cache, ?_⟩
  have all : s.background.members.flatMap Member.said =
      s.background.members.flatMap Member.life := by
    refine List.flatMap_congr fun m there => ?_
    simp only [Member.said, ended m there]
  rw [← Member.flatMap_life untouched.briefs, ← all]
  exact untouched.events

end Unticked

end Session

end WarmCache
