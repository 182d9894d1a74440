import Mathlib.Data.List.Chain
import WarmCache.Proofs.Lives

/-!
# The course of a refresh worker

What a worker does is watched from outside: when it began, and for each of its refresh cycles
whose tick it was, when it began and when it came to its end. `Course` is any course of events in
which time does not go back, with what was watched of one worker on the way.

Results:
1. `Course.run`: a session that makes its moves goes through such a course.
2. `Course.onCourse`: the cycles of a worker are regular: the first has the ticker with which it
   began, each later one the ticker that its predecessor left behind, and none comes before its
   deadline or before the end of its predecessor.
-/

namespace WarmCache

/-- A refresh cycle: the ticker whose tick it was as it stood before, when the cycle began, and
when it came to its end, if it has. -/
structure Cycle where
  ticker : Ticker
  began : Nat
  ended : Option Nat
deriving DecidableEq

/-- The time at which the tick of a cycle was due. -/
def Cycle.deadline (c : Cycle) : Nat := c.ticker.deadline

/-- What was watched of a worker: when it first ran, and its cycles, newest first. -/
structure History where
  start? : Option Nat
  cycles : List Cycle

namespace History

/-- Nothing was watched yet. -/
def empty : History := ⟨none, []⟩

/-- The newest cycle comes to its end. -/
def endNewest (now : Nat) : List Cycle → List Cycle
  | [] => []
  | c :: rest => { c with ended := some now } :: rest

/-- What is watched when a worker goes at `now` from one standing to the next. -/
def observe (h : History) (now : Nat) : Option Standing → Option Standing → History
  | some ⟨_, .fresh, _⟩, some ⟨_, .waiting _, _⟩ => ⟨some now, []⟩
  | some ⟨_, .waiting ticker, _⟩, some ⟨_, .working _, _⟩ =>
    { h with cycles := ⟨ticker, now, none⟩ :: h.cycles }
  | some ⟨_, _, true⟩, some ⟨_, _, false⟩ => { h with cycles := endNewest now h.cycles }
  | _, _ => h

theorem observe_none (h : History) (now : Nat) (a : Option Standing) : h.observe now none a = h :=
  rfl

theorem observe_self (h : History) (now : Nat) (a : Standing) :
    h.observe now (some a) (some a) = h := by
  obtain ⟨kind, phase, inCycle⟩ := a
  cases phase <;> cases inCycle <;> rfl

theorem observe_ended (h : History) (now : Nat) (kind kind' : TaskKind) (phase : Phase)
    (inCycle : Bool) (how : TaskEnd) :
    h.observe now (some ⟨kind, phase, inCycle⟩) (some ⟨kind', .ended how, inCycle⟩) = h := by
  cases phase <;> cases inCycle <;> rfl

theorem observe_cycle_end (h : History) (now : Nat) (kind kind' : TaskKind) {before after : Phase}
    (phase : (∃ ticker, before = .working ticker ∧ after = .waiting ticker) ∨ after = before) :
    h.observe now (some ⟨kind, before, true⟩) (some ⟨kind', after, false⟩) =
      { h with cycles := endNewest now h.cycles } := by
  rcases phase with ⟨ticker, rfl, rfl⟩ | rfl
  · rfl
  · cases after <;> rfl

/-- The ticker that a worker which began with `first` has after these cycles. -/
def armed (first : Ticker) : List Cycle → Ticker
  | [] => first
  | c :: _ => c.ticker.deliver c.began

/-- Cycles of a worker which began with the ticker `first`, as they can be by `now`. -/
inductive Regular (first : Ticker) (now : Nat) : List Cycle → Prop
  | nil : Regular first now []
  | cons {c : Cycle} {rest : List Cycle} : Regular first now rest →
      c.ticker = armed first rest → c.deadline ≤ c.began → c.began ≤ now →
      (∀ older ∈ rest.head?, ∃ e, older.ended = some e ∧ e ≤ c.began) →
      (∀ e, c.ended = some e → c.began ≤ e ∧ e ≤ now) → Regular first now (c :: rest)

namespace Regular

variable {first : Ticker} {now later : Nat} {cycles : List Cycle}

theorem mono (h : Regular first now cycles) (le : now ≤ later) : Regular first later cycles := by
  induction h with
  | nil => exact .nil
  | cons _ ticker due began after ended ih =>
    exact .cons ih ticker due (Nat.le_trans began le) after fun e he =>
      ⟨(ended e he).1, Nat.le_trans (ended e he).2 le⟩

theorem endNewest (h : Regular first now cycles) :
    Regular first now (History.endNewest now cycles) := by
  cases h with
  | nil => exact .nil
  | cons rest ticker due began after _ =>
    exact .cons rest ticker due began after fun e he => by
      rw [← Option.some.inj he]
      exact ⟨began, Nat.le_refl now⟩

theorem ended_le (h : Regular first now cycles) :
    ∀ c ∈ cycles.head?, ∀ e, c.ended = some e → e ≤ now := by
  intro c newest e he
  cases h with
  | nil => cases newest
  | cons _ _ _ _ _ within =>
    obtain rfl := Option.some.inj newest
    exact (within e he).2

theorem armed_endNewest (first : Ticker) (now : Nat) (cycles : List Cycle) :
    armed first (History.endNewest now cycles) = armed first cycles := by
  cases cycles <;> rfl

end Regular

end History

/-- A task waits for a tick of this ticker, or will when its cycle is over. -/
def Task.HasTicker (t : Task) (ticker : Ticker) : Prop :=
  t.phase = .waiting ticker ∨ t.phase = .working ticker

namespace Member

open History

/-- What was watched of a worker agrees with how it stands. -/
structure OnCourse (now : Nat) (m : Member) (h : History) : Prop where
  unbegun : h.start? = none → h.cycles = []
  fresh : m.task.phase = .fresh → h = .empty ∧ m.cycle = none
  begun : ∀ start, h.start? = some start →
    ∃ first, Ticker.start? start m.task.interval .skip = some first ∧
      Regular first now h.cycles ∧ ∀ ticker, m.task.HasTicker ticker →
        ticker = armed first h.cycles
  running : ∀ ticker, m.task.HasTicker ticker → ∃ start, h.start? = some start
  waiting : ∀ ticker, m.task.phase = .waiting ticker → m.cycle = none
  /-- The newest cycle has not ended while there is one, and all others have. -/
  ended : m.cycle = none → ∀ c ∈ h.cycles.head?, ∃ e, c.ended = some e

namespace OnCourse

variable {now : Nat} {m m' : Member} {h : History}

theorem mono (on : m.OnCourse now h) {later : Nat} (le : now ≤ later) : m.OnCourse later h := by
  refine ⟨on.unbegun, on.fresh, fun start began => ?_, on.running, on.waiting, on.ended⟩
  obtain ⟨first, armed, regular, ticker⟩ := on.begun start began
  exact ⟨first, armed, regular.mono le, ticker⟩

/-- A worker that has not run yet. -/
theorem of_fresh (phase : m.task.phase = .fresh) (idle : m.cycle = none) :
    m.OnCourse now .empty := by
  refine ⟨fun _ => rfl, fun _ => ⟨rfl, idle⟩, nofun, fun ticker has => ?_, fun _ _ => idle,
    fun _ => nofun⟩
  rcases has with has | has <;> cases phase.symm.trans has

/-- A worker that stands as before. -/
theorem of_standing (on : m.OnCourse now h) (phase : m'.task.phase = m.task.phase)
    (interval : m'.task.interval = m.task.interval) (cycle : m'.cycle.isSome = m.cycle.isSome) :
    m'.OnCourse now h := by
  have idle : m'.cycle = none ↔ m.cycle = none := by
    rw [← Option.not_isSome_iff_eq_none, ← Option.not_isSome_iff_eq_none, cycle]
  have has : ∀ ticker, m'.task.HasTicker ticker → m.task.HasTicker ticker := by
    intro ticker
    rw [Task.HasTicker, phase]
    exact id
  refine ⟨on.unbegun, fun fresh => ?_, fun start began => ?_, fun ticker alive => ?_,
    fun ticker waits => ?_, ?_⟩
  · exact ⟨(on.fresh (phase ▸ fresh)).1, idle.2 (on.fresh (phase ▸ fresh)).2⟩
  · obtain ⟨first, starts, regular, tickers⟩ := on.begun start began
    exact ⟨first, interval ▸ starts, regular, fun ticker alive => tickers ticker (has _ alive)⟩
  · exact on.running ticker (has _ alive)
  · exact idle.2 (on.waiting ticker (phase ▸ waits))
  · rw [idle]
    exact on.ended

/-- A worker that is gone. -/
theorem of_ended (on : m.OnCourse now h) {how : TaskEnd} (gone : m'.task.phase = .ended how)
    (interval : m'.task.interval = m.task.interval) (cycle : m'.cycle = m.cycle) :
    m'.OnCourse now h := by
  have no_ticker : ∀ ticker, ¬ m'.task.HasTicker ticker := by
    rintro ticker (has | has) <;> cases gone.symm.trans has
  refine ⟨on.unbegun, fun fresh => ?_, fun start began => ?_,
    fun ticker has => absurd has (no_ticker ticker), fun ticker waits => ?_, ?_⟩
  · cases gone.symm.trans fresh
  · obtain ⟨first, starts, regular, _⟩ := on.begun start began
    exact ⟨first, interval ▸ starts, regular, fun ticker has => absurd has (no_ticker ticker)⟩
  · cases gone.symm.trans waits
  · rw [cycle]
    exact on.ended

/-- A worker that begins. -/
theorem of_begin (on : m.OnCourse now h) (fresh : m.task.phase = .fresh) {ticker : Ticker}
    (starts : Ticker.start? now m.task.interval .skip = some ticker)
    (phase : m'.task.phase = .waiting ticker) (interval : m'.task.interval = m.task.interval)
    (cycle : m'.cycle = m.cycle) : m'.OnCourse now ⟨some now, []⟩ := by
  refine ⟨fun _ => rfl, fun fresh => ?_, fun start began => ?_, fun _ _ => ⟨now, rfl⟩,
    fun _ _ => cycle.trans (on.fresh fresh).2, fun _ => nofun⟩
  · cases phase.symm.trans fresh
  · obtain rfl := Option.some.inj began
    refine ⟨ticker, interval ▸ starts, .nil, fun other has => ?_⟩
    rcases has with has | has <;> rw [phase] at has
    · exact (Phase.waiting.inj has).symm
    · cases has

/-- A worker that takes a tick. -/
theorem of_tick (on : m.OnCourse now h) {ticker : Ticker} (waits : m.task.phase = .waiting ticker)
    (due : ticker.deadline ≤ now) (phase : m'.task.phase = .working (ticker.deliver now))
    (interval : m'.task.interval = m.task.interval) (inCycle : m'.cycle.isSome = true) :
    m'.OnCourse now { h with cycles := ⟨ticker, now, none⟩ :: h.cycles } := by
  obtain ⟨start, began⟩ := on.running ticker (.inl waits)
  obtain ⟨first, starts, regular, tickers⟩ := on.begun start began
  obtain rfl := tickers ticker (.inl waits)
  have idle := on.waiting _ waits
  refine ⟨fun none => ?_, fun fresh => ?_, fun start' began' => ?_, fun _ _ => ⟨start, began⟩,
    fun other waits' => ?_, fun none => ?_⟩
  · cases began.symm.trans none
  · cases phase.symm.trans fresh
  · obtain rfl : start = start' := Option.some.inj (began.symm.trans began')
    refine ⟨first, interval ▸ starts, .cons regular rfl due (Nat.le_refl now) ?_ nofun,
      fun other has => ?_⟩
    · intro older newest
      obtain ⟨e, ended⟩ := on.ended idle older newest
      exact ⟨e, ended, regular.ended_le older newest e ended⟩
    · rcases has with has | has <;> rw [phase] at has
      · cases has
      · exact (Phase.working.inj has).symm
  · cases phase.symm.trans waits'
  · rw [none] at inCycle
    cases inCycle

/-- A worker whose cycle is over; its ticker is the same. -/
theorem of_cycle_end (on : m.OnCourse now h) (inCycle : m.cycle.isSome = true)
    (interval : m'.task.interval = m.task.interval) (idle : m'.cycle = none)
    (phase : (∃ ticker, m.task.phase = .working ticker ∧ m'.task.phase = .waiting ticker) ∨
      m'.task.phase = m.task.phase) :
    m'.OnCourse now { h with cycles := endNewest now h.cycles } := by
  have has : ∀ ticker, m'.task.HasTicker ticker → m.task.HasTicker ticker := by
    intro ticker alive
    rcases phase with ⟨before, working, waiting⟩ | same
    · rcases alive with alive | alive <;> rw [waiting] at alive
      · exact .inr (working.trans (congrArg _ (Phase.waiting.inj alive)))
      · cases alive
    · rw [Task.HasTicker, same] at alive
      exact alive
  refine ⟨fun none => ?_, fun fresh => ?_, fun start began => ?_,
    fun ticker alive => on.running ticker (has _ alive), fun _ _ => idle, fun _ c hc => ?_⟩
  · show endNewest now h.cycles = []
    rw [on.unbegun none]
    rfl
  · rcases phase with ⟨ticker, _, waiting⟩ | same
    · cases waiting.symm.trans fresh
    · rw [(on.fresh (same ▸ fresh)).2] at inCycle
      cases inCycle
  · obtain ⟨first, starts, regular, tickers⟩ := on.begun start began
    refine ⟨first, interval ▸ starts, regular.endNewest, fun ticker alive => ?_⟩
    rw [Regular.armed_endNewest]
    exact tickers ticker (has _ alive)
  · cases cycles : h.cycles with
    | nil =>
      rw [cycles] at hc
      cases hc
    | cons newest rest =>
      rw [cycles] at hc
      obtain rfl := Option.some.inj hc
      exact ⟨now, rfl⟩

end OnCourse

/-- Every step keeps a worker on its course. -/
theorem Steps.onCourse {now : Nat} {channel : StopChannel} {m m' : Member} {h : History}
    (life : m.Steps now channel m') (worker : m.task.kind = .refreshWorker)
    (on : m.OnCourse now h) :
    m'.OnCourse now (h.observe now (some m.standing) (some m'.standing)) := by
  have stands : ∀ m' : Member, m'.standing = m.standing → m'.task.interval = m.task.interval →
      m'.OnCourse now (h.observe now (some m.standing) (some m'.standing)) := by
    intro m' same interval
    obtain ⟨_, phase, cycle⟩ := Standing.mk.inj same
    rw [same, observe_self]
    exact on.of_standing phase interval cycle
  have ends : ∀ (m' : Member) (how : TaskEnd), m'.task.phase = .ended how →
      m'.task.interval = m.task.interval → m'.cycle = m.cycle →
      m'.OnCourse now (h.observe now (some m.standing) (some m'.standing)) := by
    intro m' how gone interval cycle
    have shape : m'.standing = ⟨m'.task.kind, .ended how, m.cycle.isSome⟩ := by
      rw [standing, gone, cycle]
    rw [shape, standing, observe_ended]
    exact on.of_ended gone interval cycle
  cases life with
  | kept kept =>
    refine stands m' ?_ kept.interval
    rw [standing, kept.kind, kept.phase, kept.cycle]
    rfl
  | @looks task step cycle looks other ticks =>
    cases looks with
    | idle signal =>
      obtain rfl := other (fun same => by cases same)
      exact stands _ rfl rfl
    | cancelled =>
      obtain rfl := other (fun same => by cases same)
      exact ends _ _ rfl rfl rfl
    | overflowed =>
      obtain rfl := other (fun same => by cases same)
      exact ends _ _ rfl rfl rfl
    | stopped =>
      obtain rfl := other (fun same => by cases same)
      exact ends _ _ rfl rfl rfl
    | @begun ticker fresh _ starts =>
      obtain rfl := other (fun same => by cases same)
      rw [worker] at starts
      have seen : h.observe now (some m.standing)
          (some (Member.standing ⟨{ m.task with phase := .waiting ticker }, m.cycle⟩)) =
          ⟨some now, []⟩ := by
        rw [standing, fresh]
        rfl
      rw [seen]
      exact on.of_begin fresh starts rfl rfl rfl
    | @ticked ticker signal waits _ _ due =>
      have tick : Task.tick now ticker { m.task with signal } =
          { m.task with signal, phase := .working (ticker.deliver now) } := by
        simp only [Task.tick, worker]
      rw [tick]
      have seen : h.observe now (some m.standing) (some (Member.standing
          ⟨{ m.task with signal, phase := .working (ticker.deliver now) }, cycle⟩)) =
          { h with cycles := ⟨ticker, now, none⟩ :: h.cycles } := by
        rw [standing, waits]
        rfl
      rw [seen]
      exact on.of_tick waits (ticker.deadline_le_of_isDue now due) rfl rfl ((ticks rfl).2 worker)
  | moves progress inCycle =>
    refine stands _ ?_ rfl
    rw [standing, standing, inCycle]
    rfl
  | returns inCycle _ _ =>
    have shape : m.standing = ⟨m.task.kind, m.task.phase, true⟩ := by
      rw [standing, inCycle]
    have phase : (∃ ticker, m.task.phase = .working ticker ∧
        m.task.cycleEnded.phase = .waiting ticker) ∨ m.task.cycleEnded.phase = m.task.phase := by
      unfold Task.cycleEnded
      split
      · next ticker working => exact .inl ⟨ticker, working, rfl⟩
      · exact .inr rfl
    have interval : m.task.cycleEnded.interval = m.task.interval := by
      unfold Task.cycleEnded
      split <;> rfl
    rw [shape, standing, Option.isSome_none, observe_cycle_end h now _ _ phase]
    exact on.of_cycle_end inCycle interval rfl phase
  | outlives inCycle _ =>
    have shape : m.standing = ⟨m.task.kind, m.task.phase, true⟩ := by
      rw [standing, inCycle]
    rw [shape, standing, Option.isSome_none, observe_cycle_end h now _ _ (.inr rfl)]
    exact on.of_cycle_end inCycle rfl rfl (.inr rfl)

end Member

namespace Session

variable {ttl : Span} {limit : Option Nat} {time : TimeSource} {hasRuntime : Bool} {index : Nat}

/-- The standing of task `index`, if there is one. -/
def standing? (s : Session) (index : Nat) : Option Standing :=
  (s.background.members[index]?).map Member.standing

/-- The session of a new cache can come to `s` in a course of events in which time does not go
back, and `h` is what was watched of task `index` on the way. -/
inductive Course (ttl : Span) (limit : Option Nat) (time : TimeSource) (hasRuntime : Bool)
    (index : Nat) : Session → History → Prop
  | begins : Course ttl limit time hasRuntime index (ofCache ttl limit time hasRuntime) .empty
  | goesOn {s t : Session} {h : History} : Course ttl limit time hasRuntime index s h →
      Step s t → s.elapsed ≤ t.elapsed →
      Course ttl limit time hasRuntime index t
        (h.observe s.elapsed (s.standing? index) (t.standing? index))

/-- Whatever moves a session makes, there is such a course. -/
theorem Course.run {s : Session} {h : History} (course : Course ttl limit time hasRuntime index s h)
    (moves : List Move) : ∃ h', Course ttl limit time hasRuntime index (s.run moves).1 h' := by
  have path := proceeds_run s moves
  generalize (s.run moves).1 = t at path
  induction path with
  | refl => exact ⟨h, course⟩
  | tail _ step ih =>
    obtain ⟨h', before⟩ := ih
    exact ⟨_, before.goesOn step.1 step.2⟩

/-- In a course of events every worker is on its course, and of a task that does not exist nothing
was watched. -/
theorem Course.onCourse {s : Session} {h : History}
    (course : Course ttl limit time hasRuntime index s h) :
    (s.background.members[index]? = none → h = .empty) ∧
      ∀ m, s.background.members[index]? = some m → m.task.kind = .refreshWorker →
        m.OnCourse s.elapsed h := by
  induction course with
  | begins => exact ⟨fun _ => rfl, nofun⟩
  | @goesOn s t h before step later ih =>
    unfold standing?
    cases was : s.background.members[index]? with
    | none =>
      refine ⟨fun _ => ih.1 was, fun m found _ => ?_⟩
      obtain ⟨fresh, idle⟩ := step.newMember was found
      rw [Option.map_none, History.observe_none, ih.1 was]
      exact .of_fresh fresh idle
    | some m =>
      obtain ⟨m', there, life⟩ := step.member was
      rw [there]
      refine ⟨nofun, fun m'' same worker => ?_⟩
      obtain rfl := Option.some.inj same
      have kind : m.task.kind = .refreshWorker := life.kind.symm.trans worker
      exact (life.onCourse kind (ih.2 m was kind)).mono later

end Session

end WarmCache
