import WarmCache.Proofs.Happenings
import WarmCache.Proofs.Saturation
import WarmCache.Proofs.Settling

/-!
# Starts that are refused

A start that is refused does nothing at all: the task that it would have started is not there,
the claim on the cache stays with whoever has it, and no handle, signal or name is touched. Only
time may have gone by, where it is real. So all such attempts can be left out of what happens in a
session, and nothing else that happens there is changed by it.

Results:
1. `answer_start_refused`: a refused start leaves the session as it was.
2. `answer_start_snd`: what a start is refused for.
3. `follow_without_refused`: what happens without the refused starts.
4. `refused_starts_unobservable`: the session and all other answers are the same.
-/

namespace WarmCache

namespace Session

variable {s : Session} {kind : TaskKind} {name signal : String} {interval : Span}
  {made : StopSignal} {e : CacheError}

/-! ## One attempt -/

/-- The reason for which a start is refused, if it is: an interval of zero before anything else,
then the want of a runtime, then, for a refresh worker, one that the cache already has. -/
def refusal? (s : Session) (kind : TaskKind) (interval : Span) : Option CacheError :=
  if interval.toNanos = 0 then some .invalidInterval
  else if s.hasRuntime = false then some .noRuntime
  else if kind = .refreshWorker ∧ s.cache.workerRunning = true then some .alreadyRunning
  else none

theorem startTask_eq_error_iff : s.startTask kind interval made = .error e ↔
    s.refusal? kind interval = some e := by
  unfold startTask refusal? Interval.ofSpan?
  by_cases positive : 0 < interval.toNanos
  · rw [dif_pos positive, if_neg (Nat.ne_of_gt positive)]
    cases s.hasRuntime with
    | false => simp
    | true =>
      cases kind <;> cases s.cache.workerRunning <;> simp
  · rw [dif_neg positive, if_pos (Nat.eq_zero_of_not_pos positive)]
    simp

/-- What a start answers whose signal there is. -/
theorem answer_start_snd (named : s.stops.signals.find? signal = some made) :
    (s.answer (.act (.task (.start kind name interval signal)))).2 =
      match s.refusal? kind interval with
      | some e => .refused e
      | none => .started := by
  simp only [answer, reply, perform, performTask, named]
  cases start : s.startTask kind interval made with
  | error e => rw [startTask_eq_error_iff.1 start]
  | ok started =>
    have free : s.refusal? kind interval = none := by
      refine Option.eq_none_iff_forall_ne_some.2 fun e refusal => ?_
      cases start.symm.trans (startTask_eq_error_iff.2 refusal)
    rw [free]

theorem performTask_start_refused
    (refused : (s.performTask (.start kind name interval signal)).2 = .refused e) :
    (s.performTask (.start kind name interval signal)).1 = s ∧
      s.refusal? kind interval = some e := by
  simp only [performTask] at refused ⊢
  split at refused
  · cases refused
  · next made named =>
    split at refused
    · next e' start =>
      obtain rfl := Answer.refused.inj refused
      exact ⟨rfl, startTask_eq_error_iff.1 start⟩
    · cases refused

/-- A start that is refused changes nothing. If the clock follows real time, that goes on. -/
theorem answer_start_refused
    (refused : (s.answer (.act (.task (.start kind name interval signal)))).2 = .refused e) :
    (s.answer (.act (.task (.start kind name interval signal)))).1 =
        { s with clock := s.clock.tick } ∧
      s.refusal? kind interval = some e := by
  obtain ⟨same, refusal⟩ := performTask_start_refused refused
  have answer : (s.answer (.act (.task (.start kind name interval signal)))).1 =
      { (s.performTask (.start kind name interval signal)).1 with
        clock := (s.performTask (.start kind name interval signal)).1.clock.tick } := rfl
  rw [answer, same]
  exact ⟨rfl, refusal⟩

/-! ## Attempts among other things -/

/-- This happening is the start of a task, and this is the answer by which it is refused. -/
def isRefused : Happening × Option Answer → Bool
  | (.command (.act (.task (.start _ _ _ _))), some (.refused _)) => true
  | _ => false

theorem happen_of_isRefused {h : Happening} (refused : isRefused (h, (s.happen h).2) = true) :
    (s.happen h).1 = { s with clock := s.clock.tick } := by
  unfold isRefused at refused
  split at refused
  · next kind name interval signal e eq =>
    obtain ⟨rfl, answer⟩ := Prod.mk.inj eq
    exact (answer_start_refused (Option.some.inj answer)).1
  · cases refused

/-- What happens in a session, with its answers. -/
def history (s : Session) (hs : List Happening) : List (Happening × Option Answer) :=
  hs.zip (s.follow hs).2

/-- In place of a refused start only real time goes on. -/
def pausing (p : Happening × Option Answer) : Happening × Option Answer :=
  if isRefused p then (.reading, none) else p

theorem follow_pausing (s : Session) (hs : List Happening) :
    s.follow ((s.history hs).map fun p => (pausing p).1) =
      ((s.follow hs).1, (s.history hs).map fun p => (pausing p).2) := by
  induction hs generalizing s with
  | nil => rfl
  | cons h rest ih =>
    have split : s.history (h :: rest) =
        (h, (s.happen h).2) :: (s.happen h).1.history rest := rfl
    have same : s.happen (pausing (h, (s.happen h).2)).1 =
        ((s.happen h).1, (pausing (h, (s.happen h).2)).2) := by
      unfold pausing
      split
      · next refused => rw [happen_of_isRefused refused]; rfl
      · rfl
    rw [split, List.map_cons, List.map_cons, follow, same]
    dsimp only
    rw [ih]
    rfl

/-- A clock that does not follow real time does not begin to do so. -/
theorem Proceeds.steady {t : Session} (proceeds : Proceeds s t)
    (steady : s.clock.tick = s.clock) : t.clock.tick = t.clock := by
  induction proceeds with
  | refl => exact steady
  | tail _ step ih =>
    rcases step.1.clock with eq | eq | ⟨_, after, _, eq⟩
    · rw [eq, ih]
    · rw [eq, ih, ih]
    · rw [eq]
      rfl

theorem follow_without_refused (steady : s.clock.tick = s.clock) (hs : List Happening) :
    s.follow (((s.history hs).filter fun p => !isRefused p).map Prod.fst) =
      ((s.follow hs).1, ((s.history hs).filter fun p => !isRefused p).map Prod.snd) := by
  induction hs generalizing s with
  | nil => rfl
  | cons h rest ih =>
    have split : s.history (h :: rest) =
        (h, (s.happen h).2) :: (s.happen h).1.history rest := rfl
    have later := ih ((proceeds_happen s h).steady steady)
    rw [split]
    cases refused : isRefused (h, (s.happen h).2) with
    | true =>
      rw [List.filter_cons_of_neg (by rw [refused]; decide)]
      have same : (s.happen h).1 = s := by rw [happen_of_isRefused refused, steady]
      rw [follow_cons_fst]
      rw [same] at later ⊢
      exact later
    | false =>
      rw [List.filter_cons_of_pos (by rw [refused]; rfl), List.map_cons, List.map_cons, follow]
      dsimp only
      rw [later]
      rfl

/-! ## Batches -/

theorem finish_workAll (s : Session) (commands : List Command) :
    s.follow (commands.map .command) =
      ((s.finish (Command.workAllWith (Work.call Work.maxDepth) commands)).1,
        (s.finish (Command.workAllWith (Work.call Work.maxDepth) commands)).2.map some) := by
  induction commands generalizing s with
  | nil => rfl
  | cons command rest ih =>
    have first : Command.workAllWith (Work.call Work.maxDepth) (command :: rest) =
        command.work.bind fun answer =>
          (Command.workAllWith (Work.call Work.maxDepth) rest).bind fun answers =>
            .done (answer :: answers) := rfl
    have next := ih (s.finish command.work).1
    rw [first, finish_bind, finish_bind, List.map_cons, follow]
    dsimp only [happen]
    rw [next]
    rfl

/-- The commands of a batch are made one after the other. -/
theorem finish_batch (s : Session) (commands : List Command) :
    ∃ answers, s.follow (commands.map .command) =
        ((s.finish (Command.batch commands).work).1, answers.map some) ∧
      (s.finish (Command.batch commands).work).2 = .batch answers := by
  have all : (Command.batch commands).work =
      (Command.workAllWith (Work.call Work.maxDepth) commands).bind fun answers =>
        .done (.batch answers) := rfl
  rw [all, finish_bind]
  exact ⟨_, finish_workAll s commands, rfl⟩

/-! ## Moves -/

/-- This move is the start of a task, and the answer of its reading refuses it. -/
def isRefusedMove : Move × Reading → Bool
  | (.run (.act (.task (.start _ _ _ _))), ⟨.refused _, _⟩) => true
  | _ => false

theorem move_of_isRefusedMove {m : Move} (rests : s.step? = none)
    (steady : s.clock.tick = s.clock) (refused : isRefusedMove (m, (s.move m).2) = true) :
    (s.move m).1 = s := by
  unfold isRefusedMove at refused
  split at refused
  · next kind name interval signal e size eq =>
    obtain ⟨rfl, reading⟩ := Prod.mk.inj eq
    have answer := congrArg Reading.answer reading
    have same := (answer_start_refused answer).1
    have acted : (s.act (.run (.act (.task (.start kind name interval signal))))).1 = s := by
      rw [steady] at same
      exact same
    show (s.act (.run (.act (.task (.start kind name interval signal))))).1.settle = s
    rw [acted]
    exact settle_eq_self rests
  · cases refused

/-- All background work that can be done is done before each of these moves and after them. -/
def Settles (s : Session) (moves : List Move) : Prop :=
  ∀ before after, moves = before ++ after → (s.run before).1.step? = none

theorem run_without_refused (steady : s.clock.tick = s.clock) {moves : List Move}
    (settles : s.Settles moves) :
    s.run (((moves.zip (s.run moves).2).filter fun p => !isRefusedMove p).map Prod.fst) =
      ((s.run moves).1,
        ((moves.zip (s.run moves).2).filter fun p => !isRefusedMove p).map Prod.snd) := by
  induction moves generalizing s with
  | nil => rfl
  | cons m rest ih =>
    have split : (m :: rest).zip (s.run (m :: rest)).2 =
        (m, (s.move m).2) :: rest.zip ((s.move m).1.run rest).2 := rfl
    have after : (s.run (m :: rest)).1 = ((s.move m).1.run rest).1 := rfl
    have moved : Proceeds s (s.move m).1 :=
      (proceeds_act s m).trans (atOnce_settle _).proceeds
    have later := ih (moved.steady steady) fun before after eq =>
      settles (m :: before) after (by rw [eq]; rfl)
    rw [split, after]
    cases refused : isRefusedMove (m, (s.move m).2) with
    | true =>
      have same : (s.move m).1 = s := move_of_isRefusedMove (settles [] _ rfl) steady refused
      rw [List.filter_cons_of_neg (by rw [refused]; decide)]
      rw [same] at later ⊢
      exact later
    | false =>
      rw [List.filter_cons_of_pos (by rw [refused]; rfl), List.map_cons, List.map_cons, run]
      dsimp only
      rw [later]

/-! ## The whole -/

/-- A start that is refused cannot be noticed, be it made by a caller or by a callback: the session
is as it was before, but for real time. It is refused for an interval of zero before anything
else, then for want of a runtime, and last because the cache has a refresh worker. So if only time
goes on in place of each start that a caller made and that was refused, the session and all other
answers stay the same, and if the clock does not follow real time, the starts can be left out. -/
theorem refused_starts_unobservable (s : Session) :
    (∀ kind name interval signal e,
      (s.answer (.act (.task (.start kind name interval signal)))).2 = .refused e →
      (s.answer (.act (.task (.start kind name interval signal)))).1 =
        { s with clock := s.clock.tick }) ∧
    (∀ kind name interval signal made, s.stops.signals.find? signal = some made →
      (s.answer (.act (.task (.start kind name interval signal)))).2 =
        if interval.toNanos = 0 then .refused .invalidInterval
        else if s.hasRuntime = false then .refused .noRuntime
        else if kind = .refreshWorker ∧ s.cache.workerRunning = true then
          .refused .alreadyRunning
        else .started) ∧
    (∀ hs, s.follow ((s.history hs).map fun p => (pausing p).1) =
      ((s.follow hs).1, (s.history hs).map fun p => (pausing p).2)) ∧
    (s.clock.tick = s.clock → ∀ hs,
      s.follow (((s.history hs).filter fun p => !isRefused p).map Prod.fst) =
        ((s.follow hs).1, ((s.history hs).filter fun p => !isRefused p).map Prod.snd)) ∧
    (∀ commands, ∃ answers, s.follow (commands.map .command) =
        ((s.finish (Command.batch commands).work).1, answers.map some) ∧
      (s.finish (Command.batch commands).work).2 = .batch answers) ∧
    ∀ moves, s.clock.tick = s.clock → s.Settles moves →
      s.run (((moves.zip (s.run moves).2).filter fun p => !isRefusedMove p).map Prod.fst) =
        ((s.run moves).1,
          ((moves.zip (s.run moves).2).filter fun p => !isRefusedMove p).map Prod.snd) := by
  refine ⟨fun kind name interval signal e refused => (answer_start_refused refused).1,
    fun kind name interval signal made named => ?_, follow_pausing s,
    fun steady hs => follow_without_refused steady hs, finish_batch s,
    fun moves steady settles => run_without_refused steady settles⟩
  rw [answer_start_snd named, refusal?]
  by_cases zero : interval.toNanos = 0
  · rw [if_pos zero, if_pos zero]
  · rw [if_neg zero, if_neg zero]
    by_cases none : s.hasRuntime = false
    · rw [if_pos none, if_pos none]
    · rw [if_neg none, if_neg none]
      by_cases taken : kind = .refreshWorker ∧ s.cache.workerRunning = true
      · rw [if_pos taken, if_pos taken]
      · rw [if_neg taken, if_neg taken]

/-- While the cycle of a refresh worker waits at a gate, another worker is refused, and so is a
flush task with an interval of zero. Without these two attempts all goes the same way. -/
theorem refused_starts_unobservable_in_cycle :
    let step : WarmCache.Step := .mk (some "gate") [] (.item 5)
    let s := ofCache (.ofSecs 60) none (.manual ⟨0, 0⟩) true
    let hs : List Happening :=
      [.command (.act (.set "a" 1 [.refresh (.mk "source" step [] false [])])),
        .command (.act (.channel (.create "stop"))),
        .command (.act (.task (.start .refreshWorker "worker" (.ofSecs 1) "stop"))),
        .piece (.look 0), .time 1000000000, .piece (.look 0), .piece (.cycle 0),
        .command (.act (.task (.start .refreshWorker "second" (.ofSecs 2) "stop"))),
        .command (.act (.task (.start .flusher "third" (.ofSecs 0) "stop"))),
        .command (.act (.gate (.unlock "gate"))), .piece (.cycle 0)]
    let kept := (s.history hs).filter fun p => !isRefused p
    (s.history hs).map isRefused =
        [false, false, false, false, false, false, false, true, true, false, false] ∧
      s.follow (kept.map Prod.fst) = ((s.follow hs).1, kept.map Prod.snd) := by
  intro step s hs kept
  obtain ⟨_, _, _, without, _⟩ := refused_starts_unobservable s
  exact ⟨by decide +kernel, without rfl hs⟩

end Session

end WarmCache
