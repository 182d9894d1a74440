import WarmCache.Session.Settle
import WarmCache.Proofs.Requests

/-!
# What a piece of background work does

A background task does one thing at each look: it begins, takes a tick, sees its stop signal,
gives way to an abort, or does nothing. `Task.Looks` lists these with what each of them takes for
granted; `Standing.Passes` is what is left of them for the claim on a cache.

Results:
1. `Task.looks`: the list is complete.
2. `doPiece_look`: a look changes the one task that is looked at, and, if a flush task took a
   tick, the entries by one flush.
3. `endCycle_cases`: the end of a cycle changes the one task that began it.
-/

namespace WarmCache

/-! ## Looks of a task -/

theorem Task.hasEnded_iff (t : Task) : t.hasEnded = true ↔ ∃ how, t.phase = .ended how := by
  cases h : t.phase <;> simp [hasEnded, h]

/-- What one look at `now` makes of task `t`, whose stop channel is `channel`: the task after it
and what it did. -/
inductive Task.Looks (now : Nat) (channel : StopChannel) (t : Task) : Task → TaskStep → Prop
  /-- Nothing happens, but the signal may have been looked at. -/
  | idle (signal : StopSignal) : Looks now channel t { t with signal } .idle
  | cancelled : t.hasEnded = false → t.abortRequested = true →
      Looks now channel t { t with phase := .ended .cancelled } .cancelled
  | begun {ticker : Ticker} : t.phase = .fresh → t.abortRequested = false →
      Ticker.start? now t.interval t.kind.missedTicks = some ticker →
      Looks now channel t { t with phase := .waiting ticker } .begun
  | overflowed : t.phase = .fresh → t.abortRequested = false →
      Ticker.start? now t.interval t.kind.missedTicks = none →
      Looks now channel t { t with phase := .ended (.panicked overflowMessage) } .overflowed
  | stopped {ticker : Ticker} (signal : StopSignal) : t.phase = .waiting ticker →
      t.abortRequested = false → t.signal.isStopped channel = true →
      Looks now channel t { t with signal, phase := .ended .stopped } .stopped
  | ticked {ticker : Ticker} (signal : StopSignal) : t.phase = .waiting ticker →
      t.abortRequested = false → t.signal.isStopped channel = false → ticker.isDue now = true →
      Looks now channel t (tick now ticker { t with signal }) .ticked

theorem Task.looks_waiting {now : Nat} {channel : StopChannel} {t : Task} {ticker : Ticker}
    (phase : t.phase = .waiting ticker) (kept : t.abortRequested = false) :
    Looks now channel t (t.lookWaiting now channel ticker).1
      (t.lookWaiting now channel ticker).2 := by
  have agree := StopSignal.wait_eq_isStopped t.signal channel
  cases stop : (t.signal.wait channel).2 with
  | true =>
    simp only [lookWaiting, stop, if_true]
    exact .stopped _ phase kept (agree ▸ stop)
  | false =>
    cases due : ticker.isDue now with
    | true =>
      simp only [lookWaiting, stop, due, Bool.false_eq_true, if_false, if_true]
      exact .ticked _ phase kept (agree ▸ stop) due
    | false =>
      simp only [lookWaiting, stop, due, Bool.false_eq_true, if_false]
      exact .idle _

theorem Task.looks_begin {now : Nat} {channel : StopChannel} {t : Task}
    (phase : t.phase = .fresh) (kept : t.abortRequested = false) :
    Looks now channel t (t.begin now).1 (t.begin now).2 := by
  cases armed : Ticker.start? now t.interval t.kind.missedTicks with
  | some ticker =>
    simp only [begin, armed]
    exact .begun phase kept armed
  | none =>
    simp only [begin, armed]
    exact .overflowed phase kept armed

theorem Task.look_of_abort {now : Nat} {channel : StopChannel} {t : Task}
    (running : t.hasEnded = false) (abort : t.abortRequested = true) :
    t.look now channel = ({ t with phase := .ended .cancelled }, .cancelled) := by
  unfold look
  split
  · next how h =>
    simp only [hasEnded, h, Bool.true_eq_false] at running
  · rw [if_pos abort]

theorem Task.looks (now : Nat) (channel : StopChannel) (t : Task) :
    Looks now channel t (t.look now channel).1 (t.look now channel).2 := by
  cases ended : t.hasEnded with
  | true =>
    obtain ⟨how, h⟩ := t.hasEnded_iff.1 ended
    rw [look_of_ended now channel t how h]
    exact .idle t.signal
  | false =>
    cases abort : t.abortRequested with
    | true =>
      rw [look_of_abort ended abort]
      exact .cancelled ended abort
    | false =>
      cases phase : t.phase with
      | fresh =>
        have same : t.look now channel = t.begin now := by
          simp only [look, phase, abort, Bool.false_eq_true, if_false]
        rw [same]
        exact looks_begin phase abort
      | waiting ticker =>
        have same : t.look now channel = t.lookWaiting now channel ticker := by
          simp only [look, phase, abort, Bool.false_eq_true, if_false]
        rw [same]
        exact looks_waiting phase abort
      | working ticker =>
        have same : t.look now channel = (t, .idle) := by
          simp only [look, phase, abort, Bool.false_eq_true, if_false]
        rw [same]
        exact .idle t.signal
      | ended how =>
        rw [look_of_ended now channel t how phase]
        exact .idle t.signal

/-! ## Looks as they bear on the claim -/

/-- How the standing of a task passes on at a look that does something. -/
inductive Standing.Passes : Standing → Standing → Prop
  | begins {kind : TaskKind} {inCycle : Bool} {ticker : Ticker} :
      Passes ⟨kind, .fresh, inCycle⟩ ⟨kind, .waiting ticker, inCycle⟩
  /-- A task ends, by a panic, by its stop signal or by an abort. Its cycle stays. -/
  | ends {kind : TaskKind} {phase : Phase} {inCycle : Bool} {how : TaskEnd} :
      Passes ⟨kind, phase, inCycle⟩ ⟨kind, .ended how, inCycle⟩
  /-- A refresh worker takes a tick and has a cycle from then on. -/
  | cycles {before after : Ticker} {inCycle : Bool} :
      Passes ⟨.refreshWorker, .waiting before, inCycle⟩ ⟨.refreshWorker, .working after, true⟩
  | flushes {before after : Ticker} {inCycle : Bool} :
      Passes ⟨.flusher, .waiting before, inCycle⟩ ⟨.flusher, .waiting after, false⟩

namespace Session

/-- What a look of task `index` made of session `s`. -/
inductive Looked (s : Session) (index : Nat) : Session → Prop
  | idle : Looked s index s
  /-- The task passed on, something may have been reported, and at the tick of a flush task the
  expired entries went. -/
  | passed {m m' : Member} (ops : List (CacheOp Int)) {journal : Journal} :
      s.background.members[index]? = some m → m.standing.Passes m'.standing →
      Looked s index
        { s.putMember index m' with
          cache := (s.putMember index m').cache.applyAll ops
          journal }

theorem doPiece_look (s : Session) (index : Nat) : Looked s index (s.doPiece (.look index)) := by
  cases found : s.background.members[index]? with
  | none =>
    simp only [doPiece, found]
    exact .idle
  | some m =>
    have looks := Task.looks s.elapsed (s.stops.channel m.task.signal.channel) m.task
    have split : s.doPiece (.look index) = s.applyLook index m (s.look m).1 (s.look m).2 := by
      simp only [doPiece, found]
      rfl
    rw [split]
    change Task.Looks _ _ m.task (s.look m).1 (s.look m).2 at looks
    generalize (s.look m).1 = task at looks ⊢
    generalize (s.look m).2 = step at looks ⊢
    obtain ⟨⟨kind, interval, signal, phase, abort⟩, cycle⟩ := m
    cases looks with
    | idle signal => exact .idle
    | cancelled => exact .passed [] found .ends
    | begun hphase _ _ =>
      obtain rfl : phase = .fresh := hphase
      exact .passed [] found .begins
    | overflowed => exact .passed [] found .ends
    | stopped => exact .passed [] found .ends
    | @ticked ticker signal hphase _ _ _ =>
      obtain rfl : phase = .waiting ticker := hphase
      cases kind with
      | refreshWorker => exact .passed [] found .cycles
      | flusher => exact .passed [.flush s.now] found .flushes

/-! ## Ends of cycles -/

/-- At the end of its cycle a task is put back without one. It is the task that it was, or it has
not ended and waits again; in the latter case the end of the cycle is reported. -/
theorem endCycle_cases (s : Session) (index : Nat) (result : Except String Summary) :
    s.endCycle index result = s ∨
      ∃ m task journal, s.background.members[index]? = some m ∧ task.kind = m.task.kind ∧
        (task = m.task ∨ m.task.hasEnded = false) ∧
        s.endCycle index result = ({ s with journal } : Session).putMember index ⟨task, none⟩ := by
  unfold endCycle
  cases found : s.background.members[index]? with
  | none => exact .inl rfl
  | some m =>
    by_cases left : (m.task.hasEnded || m.task.abortRequested) = true
    · simp only [left, if_true]
      exact .inr ⟨m, m.task, s.journal, rfl, rfl, .inl rfl, rfl⟩
    · have running : m.task.hasEnded = false := by
        rw [Bool.or_eq_true, not_or, Bool.not_eq_true] at left
        exact left.1
      have kind : m.task.cycleEnded.kind = m.task.kind := by
        unfold Task.cycleEnded
        split <;> rfl
      simp only [left]
      cases result with
      | ok summary => exact .inr ⟨m, _, _, rfl, kind, .inr running, rfl⟩
      | error message => exact .inr ⟨m, _, _, rfl, kind, .inr running, rfl⟩

end Session

end WarmCache
