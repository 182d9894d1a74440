import Mathlib.Data.List.Perm.Subperm
import WarmCache.Proofs.Courses

/-!
# The grid of a refresh worker

The deadlines of a worker lie on a grid, which begins one interval after the worker first ran and
whose step is the interval, cut to the longest period. A cycle that overruns leaves points of the
grid out; no deadline leaves the grid.

Results:
1. `Ticker.next_of_skip`: the next deadline of a ticker that skips, after a tick in time and after
   a late one.
2. `History.Regular.grid`: the deadlines of regular cycles, on the grid and all different.
3. `cycles_keep_to_grid`: where the deadlines of a worker lie, when its cycles begin and how many
   have begun, and what follows a late tick.
-/

namespace WarmCache

namespace Ticker

theorem start?_eq_some {now : Nat} {i : Interval} {missed : MissedTicks} {t : Ticker}
    (h : start? now i missed = some t) :
    t.deadline = now + i.toNanos ∧ t.period = min longestPeriod i.toNanos ∧ t.missed = missed := by
  unfold start? at h
  split at h
  · obtain rfl := Option.some.inj h
    exact ⟨rfl, rfl, rfl⟩
  · cases h

theorem start?_of_lt {now : Nat} {i : Interval} (missed : MissedTicks)
    (h : now + i.toNanos < horizon) : ∃ t, start? now i missed = some t := by
  unfold start?
  rw [if_pos h]
  exact ⟨_, rfl⟩

/-- A tick that is late can be delivered. -/
theorem isDue_of_late {t : Ticker} {now : Nat} (late : tolerance + t.deadline < now) :
    t.isDue now = true := by
  refine decide_eq_true ?_
  simp only [dueMilli, Span.millisUp, Span.nanosPerMilli]
  simp only [tolerance] at late
  omega

/-- A ticker that skips goes on by one period after a tick in time, and after a late one to the
first point of its grid that lies ahead. -/
theorem next_of_skip {t : Ticker} {now : Nat} (skips : t.missed = .skip) (due : t.deadline ≤ now) :
    ∃ k, 0 < k ∧ t.next now = t.deadline + k * t.period ∧
      if tolerance + t.deadline < now then now < t.next now ∧ t.next now ≤ now + t.period
      else k = 1 := by
  by_cases late : tolerance + t.deadline < now
  · have ahead := next_of_late_skip t now (decide_eq_true late) skips
    refine ⟨(now - t.deadline) / t.period + 1, Nat.succ_pos _, ?_, by rw [if_pos late]; exact ahead⟩
    have parts := Nat.div_add_mod (now - t.deadline) t.period
    have below := Nat.mod_lt (now - t.deadline) t.period_pos
    have next : t.next now = now + t.period - (now - t.deadline) % t.period := by
      simp only [next, isLate, late, decide_true, if_true, skips]
    rw [next, Nat.add_mul, Nat.one_mul, Nat.mul_comm _ t.period]
    omega
  · refine ⟨1, Nat.one_pos, ?_, by rw [if_neg late]⟩
    simp only [next, isLate, late, decide_false, Bool.false_eq_true, if_false, Nat.one_mul]

end Ticker

/-- There are at most `b` different numbers below `b`. -/
theorem countP_lt_of_pairwise {ns : List Nat} (distinct : ns.Pairwise (· > ·)) (b : Nat) :
    ns.countP (· < b) ≤ b := by
  rw [List.countP_eq_length_filter]
  have nodup : (ns.filter (· < b)).Nodup :=
    (distinct.imp fun {_ _} more => Nat.ne_of_gt more).filter _
  have within : ns.filter (· < b) ⊆ List.range b := by
    intro n hn
    rw [List.mem_range]
    exact of_decide_eq_true (List.mem_filter.1 hn).2
  calc (ns.filter (· < b)).length ≤ (List.range b).length :=
        (List.Nodup.subperm nodup within).length_le
    _ = b := List.length_range

namespace History.Regular

variable {first : Ticker} {now : Nat} {cycles : List Cycle}

theorem due (h : Regular first now cycles) : ∀ c ∈ cycles, c.deadline ≤ c.began := by
  induction h with
  | nil => exact nofun
  | cons _ _ due _ _ _ ih => exact List.forall_mem_cons.2 ⟨due, ih⟩

/-- Each cycle has the ticker that the one before it left behind, and begins when that one is
over. -/
theorem chain (h : Regular first now cycles) :
    cycles.IsChain fun newer older => newer.ticker = older.ticker.deliver older.began ∧
      ∃ e, older.ended = some e ∧ older.began ≤ e ∧ e ≤ newer.began := by
  induction h with
  | nil => exact .nil
  | @cons c rest regular ticker _ _ after _ ih =>
    cases regular with
    | nil => exact .singleton c
    | @cons older rest _ _ _ _ _ within =>
      obtain ⟨e, ended, before⟩ := after older rfl
      exact .cons_cons ⟨ticker, e, ended, (within e ended).1, before⟩ ih

/-- The deadlines lie on the grid of the first, strictly one after the other, and so does the next.
All tickers skip, with the same period. -/
theorem grid (h : Regular first now cycles) (skips : first.missed = .skip) :
    ((armed first cycles).missed = .skip ∧ (armed first cycles).period = first.period) ∧
      ∃ (n : Nat) (ns : List Nat), (n :: ns).Pairwise (· > ·) ∧
        (n :: ns).getLast? = some 0 ∧
        (armed first cycles).deadline = first.deadline + n * first.period ∧
        cycles.map Cycle.deadline = ns.map fun n => first.deadline + n * first.period := by
  induction h with
  | nil =>
    refine ⟨⟨skips, rfl⟩, 0, [], List.pairwise_singleton _ _, rfl, ?_, rfl⟩
    rw [Nat.zero_mul, Nat.add_zero]
    rfl
  | @cons c rest _ ticker due _ _ _ ih =>
    obtain ⟨⟨missed, period⟩, n, ns, distinct, last, deadline, before⟩ := ih
    rw [← ticker] at missed period deadline
    obtain ⟨k, pos, next, _⟩ := Ticker.next_of_skip missed due
    refine ⟨⟨missed, period⟩, n + k, n :: ns, ?_, ?_, ?_, ?_⟩
    · refine List.pairwise_cons.2 ⟨fun m hm => ?_, distinct⟩
      rcases List.mem_cons.1 hm with rfl | hm
      · exact Nat.lt_add_of_pos_right pos
      · exact Nat.lt_add_right k ((List.pairwise_cons.1 distinct).1 m hm)
    · rw [List.getLast?_cons_cons]
      exact last
    · show c.ticker.next c.began = _
      rw [next, period, deadline, Nat.add_mul, Nat.add_assoc]
    · rw [List.map_cons, List.map_cons, before]
      exact congrArg (· :: _) deadline

theorem tickers (h : Regular first now cycles) (skips : first.missed = .skip) :
    ∀ c ∈ cycles, c.ticker.missed = .skip ∧ c.ticker.period = first.period := by
  induction h with
  | nil => exact nofun
  | cons regular ticker _ _ _ _ ih =>
    refine List.forall_mem_cons.2 ⟨?_, ih⟩
    rw [ticker]
    exact (regular.grid skips).1

/-- A tick in time is followed by the next point of the grid, a late one by the first ahead. -/
theorem follow (h : Regular first now cycles) (skips : first.missed = .skip) :
    cycles.IsChain fun newer older =>
      (∃ e, older.ended = some e ∧ older.began ≤ e ∧ e ≤ newer.began) ∧
        if Ticker.tolerance + older.deadline < older.began then
          older.began < newer.deadline ∧ newer.deadline ≤ older.began + first.period
        else newer.deadline = older.deadline + first.period := by
  refine List.IsChain.imp_of_mem_imp (fun newer older _ there after => ?_) h.chain
  obtain ⟨ticker, past⟩ := after
  obtain ⟨missed, period⟩ := h.tickers skips older there
  obtain ⟨k, _, next, ahead⟩ := Ticker.next_of_skip missed (h.due older there)
  have deadline : newer.deadline = older.ticker.next older.began := by
    rw [Cycle.deadline, ticker]
    rfl
  refine ⟨past, ?_⟩
  rw [deadline, ← period]
  show if Ticker.tolerance + older.ticker.deadline < older.began then _ else _
  split
  · next late =>
    rw [if_pos late] at ahead
    exact ahead
  · next inTime =>
    rw [if_neg inTime] at ahead
    rw [next, ahead, Nat.one_mul]
    rfl

/-- By `t` no more cycles have begun than there are points of the grid. -/
theorem countP_began (h : Regular first now cycles) (skips : first.missed = .skip) (t : Nat) :
    cycles.countP (·.began ≤ t) ≤
      if t < first.deadline then 0 else (t - first.deadline) / first.period + 1 := by
  obtain ⟨_, n, ns, distinct, _, _, deadlines⟩ := h.grid skips
  have reached : ∀ m, first.deadline + m * first.period ≤ t ↔
      m < if t < first.deadline then 0 else (t - first.deadline) / first.period + 1 := by
    intro m
    split
    · constructor <;> intro <;> omega
    · next past =>
      rw [Nat.lt_succ_iff, Nat.le_div_iff_mul_le first.period_pos]
      omega
  calc cycles.countP (·.began ≤ t)
      ≤ cycles.countP (·.deadline ≤ t) := List.countP_mono_left fun c hc began => by
        rw [decide_eq_true_eq] at began ⊢
        exact Nat.le_trans (h.due c hc) began
    _ = (cycles.map Cycle.deadline).countP (· ≤ t) := by rw [List.countP_map]; rfl
    _ = ns.countP (· < if t < first.deadline then 0
          else (t - first.deadline) / first.period + 1) := by
        rw [deadlines, List.countP_map]
        exact List.countP_congr fun m _ => by
          simp only [Function.comp_apply, decide_eq_true_eq]
          exact reached m
    _ ≤ _ := countP_lt_of_pairwise (List.pairwise_cons.1 distinct).2 _

end History.Regular

namespace Session

open History

variable {ttl : Span} {limit : Option Nat} {time : TimeSource} {hasRuntime : Bool} {index : Nat}
  {s : Session}

/-- A worker that has not run yet begins at its next look. -/
theorem worker_begins {m : Member} (found : s.background.members[index]? = some m)
    (fresh : m.task.phase = .fresh) (kept : m.task.abortRequested = false)
    (counted : s.elapsed + m.task.interval.toNanos < Ticker.horizon) :
    ∃ m' ticker, (s.doPiece (.look index)).background.members[index]? = some m' ∧
      m'.task.phase = .waiting ticker ∧
      ticker.deadline = s.elapsed + m.task.interval.toNanos := by
  obtain ⟨ticker, starts⟩ := Ticker.start?_of_lt m.task.kind.missedTicks counted
  have look : s.look m = ({ m.task with phase := .waiting ticker }, .begun) :=
    Task.look_fresh fresh kept starts
  refine ⟨⟨{ m.task with phase := .waiting ticker }, m.cycle⟩, ticker, ?_, rfl,
    (Ticker.start?_eq_some starts).1⟩
  rw [doPiece_look_eq found, look]
  exact getElem?_putMember_self found _

/-- A worker whose tick is due begins a cycle at its next look. -/
theorem worker_ticks {m : Member} {ticker : Ticker} (found : s.background.members[index]? = some m)
    (worker : m.task.kind = .refreshWorker) (waits : m.task.phase = .waiting ticker)
    (kept : m.task.abortRequested = false)
    (goes : m.task.signal.isStopped (s.stops.channel m.task.signal.channel) = false)
    (due : ticker.isDue s.elapsed = true) :
    ∃ m', (s.doPiece (.look index)).background.members[index]? = some m' ∧
      m'.task.phase = .working (ticker.deliver s.elapsed) ∧ m'.cycle.isSome = true := by
  have look : s.look m = (Task.tick s.elapsed ticker { m.task with
      signal := (m.task.signal.wait (s.stops.channel m.task.signal.channel)).1 }, .ticked) :=
    Task.look_due waits kept goes due
  refine ⟨⟨{ m.task with
      signal := (m.task.signal.wait (s.stops.channel m.task.signal.channel)).1,
      phase := .working (ticker.deliver s.elapsed) }, some (.ready Work.wholeRefresh)⟩,
    ?_, rfl, rfl⟩
  rw [doPiece_look_eq found, look]
  simp only [Task.tick, worker, applyLook, tickWork]
  exact getElem?_putMember_self found _

/-- In any course of events in which time does not go back, a refresh worker with the interval `I`
that first ran at `start` has its deadlines at `start + I` and on the grid with step `P` from
there, which is `I`, cut to the longest period. No cycle begins before its deadline or before the
end of the one before it, so no more cycles have begun by any time than there were points of the
grid. A tick that was delivered in time is followed by the next point of the grid, and a late one
by the first that lies ahead. So once a cycle has overrun the next deadline, one more cycle begins
at once, and the deadline after it lies ahead. -/
theorem cycles_keep_to_grid {h : History} {m : Member}
    (course : Course ttl limit time hasRuntime index s h)
    (found : s.background.members[index]? = some m) (worker : m.task.kind = .refreshWorker) :
    let I := m.task.interval.toNanos
    let P := min Ticker.longestPeriod I
    (m.task.phase = .fresh → m.task.abortRequested = false → s.elapsed + I < Ticker.horizon →
      ∃ m' ticker, (s.doPiece (.look index)).background.members[index]? = some m' ∧
        m'.task.phase = .waiting ticker ∧ ticker.deadline = s.elapsed + I) ∧
    ∀ start, h.start? = some start →
      (∃ ns : List Nat, ns.Pairwise (· > ·) ∧ (∀ n ∈ ns.getLast?, n = 0) ∧
        h.cycles.map Cycle.deadline = ns.map fun n => start + I + n * P) ∧
      (∀ c ∈ h.cycles, c.deadline ≤ c.began) ∧
      (h.cycles.IsChain fun newer older =>
        (∃ e, older.ended = some e ∧ older.began ≤ e ∧ e ≤ newer.began) ∧
        if Ticker.tolerance + older.deadline < older.began then
          older.began < newer.deadline ∧ newer.deadline ≤ older.began + P
        else newer.deadline = older.deadline + P) ∧
      (∀ t, h.cycles.countP (·.began ≤ t) ≤
        if t < start + I then 0 else (t - (start + I)) / P + 1) ∧
      (I ≤ Ticker.longestPeriod →
        (∃ ks : List Nat, ks.Pairwise (· > ·) ∧ (∀ k ∈ ks.getLast?, k = 1) ∧
          h.cycles.map Cycle.deadline = ks.map fun k => start + k * I) ∧
        ∀ t, h.cycles.countP (·.began ≤ t) ≤ (t - start) / I) ∧
      ∀ ticker newest e, m.task.phase = .waiting ticker → m.task.abortRequested = false →
        m.task.signal.isStopped (s.stops.channel m.task.signal.channel) = false →
        h.cycles.head? = some newest → newest.ended = some e →
        Ticker.tolerance + ticker.deadline < e →
        ∃ m' next, (s.doPiece (.look index)).background.members[index]? = some m' ∧
          m'.task.phase = .working next ∧ m'.cycle.isSome = true ∧
          s.elapsed < next.deadline ∧ next.deadline ≤ s.elapsed + P ∧
          ∃ n, next.deadline = start + I + n * P := by
  intro I P
  refine ⟨worker_begins found, fun start began => ?_⟩
  obtain ⟨first, starts, regular, tickers⟩ := (course.onCourse.2 m found worker).begun start began
  obtain ⟨deadline, period, skips⟩ := Ticker.start?_eq_some starts
  obtain ⟨⟨missed, same⟩, n, ns, distinct, last, next, deadlines⟩ := regular.grid skips
  rw [deadline, period] at next deadlines
  have firstOfAll : ∀ n ∈ ns.getLast?, n = 0 := by
    intro m hm
    cases ns with
    | nil => cases hm
    | cons n' ns =>
      rw [List.getLast?_cons_cons] at last
      exact Option.some.inj (hm.symm.trans last)
  have strict := (List.pairwise_cons.1 distinct).2
  have follow := regular.follow skips
  have counts := regular.countP_began skips
  rw [period] at follow
  simp only [deadline, period] at counts
  refine ⟨⟨ns, strict, firstOfAll, deadlines⟩, regular.due, follow, counts, fun short => ?_,
    fun ticker newest e waits kept goes newestOf ended late => ?_⟩
  · have whole : P = I := Nat.min_eq_right short
    have pos : 0 < I := m.task.interval.pos
    refine ⟨⟨ns.map (· + 1), ?_, fun k hk => ?_, ?_⟩, fun t => (counts t).trans ?_⟩
    · exact List.pairwise_map.2 (strict.imp fun {_ _} more => Nat.succ_lt_succ more)
    · rw [List.getLast?_map] at hk
      obtain ⟨n, lastOf, rfl⟩ := Option.map_eq_some_iff.1 hk
      rw [firstOfAll n lastOf]
    · rw [deadlines, List.map_map]
      refine List.map_congr_left fun n _ => ?_
      show start + I + n * P = start + (n + 1) * I
      rw [whole, Nat.add_mul, Nat.one_mul]
      omega
    · show (if t < start + I then 0 else (t - (start + I)) / P + 1) ≤ _
      rw [whole]
      split
      · exact Nat.zero_le _
      · rw [← Nat.add_div_right _ pos]
        exact Nat.div_le_div_right (by omega)
  · obtain rfl := tickers ticker (.inl waits)
    have past := regular.ended_le newest newestOf e ended
    have due : (armed first h.cycles).isDue s.elapsed = true :=
      Ticker.isDue_of_late (Nat.lt_of_lt_of_le late past)
    obtain ⟨m', there, phase, inCycle⟩ := worker_ticks found worker waits kept goes due
    obtain ⟨k, _, after, ahead⟩ :=
      Ticker.next_of_skip missed (Ticker.deadline_le_of_isDue _ _ due)
    rw [if_pos (Nat.lt_of_lt_of_le late past), same, period] at ahead
    refine ⟨m', _, there, phase, inCycle, ahead.1, ahead.2, n + k, ?_⟩
    show (armed first h.cycles).next s.elapsed = _
    rw [after, next, same, period, Nat.add_mul, Nat.add_assoc]

/-- A worker with an interval of one second whose first cycle takes three seconds: its next cycle
begins at once, and the deadline after it is the next point of the grid, two having been left
out. -/
theorem cycles_keep_to_grid_overrun :
    let answer := fun (s : Session) (action : Action) => (s.answer (.act action)).1
    let begun := (answer (answer (ofCache (.ofSecs 60) none (.manual ⟨0, 0⟩) true)
      (.channel (.create "stop")))
      (.task (.start .refreshWorker "worker" (.ofSecs 1) "stop"))).doPiece (.look 0)
    let ticked := { begun with elapsed := 1000000000 : Session }.doPiece (.look 0)
    let s := { ticked with elapsed := 4000000000 : Session }.endCycle 0 (.ok .empty)
    ∃ h, Course (.ofSecs 60) none (.manual ⟨0, 0⟩) true 0 s h ∧
      h.cycles.map (fun c => (c.deadline, c.began, c.ended)) =
        [(1000000000, 1000000000, some 4000000000)] ∧
      ∃ m' next, (s.doPiece (.look 0)).background.members[0]? = some m' ∧
        m'.task.phase = .working next ∧ next.deadline = 5000000000 := by
  intro answer begun ticked s
  have fresh : Course (.ofSecs 60) none (.manual ⟨0, 0⟩) true 0 _ _ := .begins
  have started := (fresh.goesOn (.request (.act (.channel (.create "stop"))))
    (by decide +kernel)).goesOn
    (.request (.act (.task (.start .refreshWorker "worker" (.ofSecs 1) "stop"))))
    (by decide +kernel)
  have first := ((started.goesOn (.look 0) (by decide +kernel)).goesOn (.time 1000000000)
    (by decide +kernel)).goesOn (.look 0) (by decide +kernel)
  have overrun := first.goesOn (.time 4000000000) (by decide +kernel)
  have cycle : HasCycle { ticked with elapsed := 4000000000 } 0 := hasCycle_iff_standings.2
    ⟨⟨.refreshWorker, .working ⟨2000000000, 1000000000, .skip, by decide⟩, true⟩,
      by decide +kernel, rfl⟩
  have course : Course (.ofSecs 60) none (.manual ⟨0, 0⟩) true 0 s _ :=
    overrun.goesOn (.cycleEnds (.ok .empty) cycle) (by decide +kernel)
  refine ⟨_, course, by decide +kernel, ?_⟩
  have only : s.background.members.map (fun m => (m.task.kind, m.task.interval.toNanos,
      m.task.phase, m.task.abortRequested,
      m.task.signal.isStopped (s.stops.channel m.task.signal.channel))) =
      [(.refreshWorker, 1000000000, .waiting ⟨2000000000, 1000000000, .skip, by decide⟩, false,
        false)] := by decide +kernel
  have one := congrArg (fun l => l[0]?) only
  simp only [List.getElem?_map, List.getElem?_cons_zero, Option.map_eq_some_iff,
    Prod.mk.injEq] at one
  obtain ⟨m, found, worker, interval, waits, kept, goes⟩ := one
  obtain ⟨_, grid⟩ := cycles_keep_to_grid course found worker
  obtain ⟨_, _, _, _, _, catchUp⟩ := grid 0 (by decide +kernel)
  obtain ⟨m', next, there, phase, _, ahead, within, n, deadline⟩ :=
    catchUp ⟨2000000000, 1000000000, .skip, by decide⟩
      ⟨⟨1000000000, 1000000000, .skip, by decide⟩, 1000000000, some 4000000000⟩ 4000000000
      waits kept goes (by decide +kernel) rfl (by decide +kernel)
  have now : s.elapsed = 4000000000 := by decide +kernel
  have period : min Ticker.longestPeriod 1000000000 = 1000000000 := by decide
  simp only [now, interval, period] at ahead within deadline
  exact ⟨m', next, there, phase, by omega⟩

/-- With an interval of a second more than the longest period, two cycles have begun before two
intervals have passed: the second deadline comes one longest period after the first. -/
theorem second_cycle_before_two_intervals :
    let step : WarmCache.Step := .mk none [] (.item 5)
    let s := ((ofCache (.ofSecs 60) none (.manual ⟨0, 0⟩) true).run
      [.run (.act (.set "a" 1 [.refresh (.mk "source" step [] false [])])),
        .run (.act (.channel (.create "stop"))),
        .run (.act (.task (.start .refreshWorker "worker" (.ofSecs 946080001) "stop"))),
        .sleep (.ofSecs 946080000), .sleep (.ofSecs 1), .sleep (.ofSecs 946080000)]).1
    s.background.members.map (fun m => (m.task.kind, m.task.interval.toNanos)) =
        [(.refreshWorker, 946080001000000000)] ∧
      s.elapsed / 946080001000000000 = 1 ∧ s.journal.calls = [("source", 2)] := by
  decide +kernel

end Session

end WarmCache
