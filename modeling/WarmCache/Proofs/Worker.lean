import WarmCache.Proofs.Reachable

/-!
# The claim of a refresh worker

A cache has at most one refresh worker. The flag that says so is taken at the start of a worker
and given back when the last of it is gone: its task, or a refresh cycle that outlives the task.
Only one standing at a time holds the cache, and `Claimed` says that the flag tells whether there
is one.

Results:
1. `claimed_step`: every step of a session keeps the flag true to what is there.
2. `worker_claims_cache`: what follows for the flag, for cycles and for further starts.
-/

namespace WarmCache

namespace Standing

/-- What still exists of a refresh worker holds its cache. -/
def holds (a : Standing) : Bool :=
  a.kind == .refreshWorker &&
    match a.phase with
    | .ended _ => a.inCycle
    | _ => true

/-- Only a refresh worker has a cycle, and only while it works or after its end. -/
def Sound (a : Standing) : Prop :=
  a.inCycle = true →
    a.kind = .refreshWorker ∧ ((∃ ticker, a.phase = .working ticker) ∨ ∃ how, a.phase = .ended how)

theorem holds_standing (m : Member) : m.standing.holds = m.holdsCache := by
  unfold holds Member.standing Member.holdsCache Task.hasEnded
  cases m.task.phase <;> simp

theorem Sound.holds {a : Standing} (sound : a.Sound) (inCycle : a.inCycle = true) :
    a.holds = true := by
  obtain ⟨kind, ⟨ticker, phase⟩ | ⟨how, phase⟩⟩ := sound inCycle
  · simp [Standing.holds, kind, phase]
  · simp [Standing.holds, kind, phase, inCycle]

/-- No look lets a task hold the cache that did not hold it before. -/
theorem Passes.holds {a b : Standing} (passes : a.Passes b) (after : b.holds = true) :
    a.holds = true := by
  cases passes with
  | begins => exact after
  | @ends kind phase inCycle how =>
    simp only [Standing.holds, Bool.and_eq_true] at after ⊢
    refine ⟨after.1, ?_⟩
    cases phase with
    | ended _ => exact after.2
    | _ => rfl
  | cycles => rfl
  | flushes => cases after

theorem Passes.sound {a b : Standing} (passes : a.Passes b) (sound : a.Sound) : b.Sound := by
  cases passes with
  | begins =>
    intro inCycle
    obtain ⟨_, ⟨_, phase⟩ | ⟨_, phase⟩⟩ := sound inCycle
    · cases phase
    · cases phase
  | ends => exact fun inCycle => ⟨(sound inCycle).1, .inr ⟨_, rfl⟩⟩
  | cycles => exact fun _ => ⟨rfl, .inl ⟨_, rfl⟩⟩
  | flushes => exact nofun

end Standing

/-! ## The invariant -/

/-- The flag tells whether some task or its cycle holds the cache, and no two of them do. -/
structure Claimed (standings : List Standing) (flag : Bool) : Prop where
  flag_iff : flag = true ↔ ∃ (i : Nat) (a : Standing), standings[i]? = some a ∧ a.holds = true
  unique : ∀ (i j : Nat) (a b : Standing), standings[i]? = some a → standings[j]? = some b →
    a.holds = true → b.holds = true → i = j
  sound : ∀ a ∈ standings, a.Sound

namespace Claimed

variable {standings : List Standing} {flag : Bool}

theorem empty : Claimed [] false :=
  ⟨⟨nofun, nofun⟩, nofun, nofun⟩

/-- A task that is started holds the cache if it is a refresh worker, which starts only if nothing
else does. -/
theorem append (h : Claimed standings flag) {kind : TaskKind}
    (free : kind = .refreshWorker → flag = false) :
    Claimed (standings ++ [⟨kind, .fresh, false⟩]) (flag || kind == .refreshWorker) := by
  have last : ∀ {i : Nat} {a : Standing}, (standings ++ [⟨kind, .fresh, false⟩])[i]? = some a →
      a.holds = true → standings[i]? = some a ∨ (i = standings.length ∧ kind = .refreshWorker) := by
    intro i a found holds
    rcases Nat.lt_or_ge i standings.length with inside | outside
    · rw [List.getElem?_append_left inside] at found
      exact .inl found
    · rw [List.getElem?_append_right outside] at found
      obtain ⟨at_end, rfl⟩ := List.getElem?_eq_some_iff.1 found
      rw [List.length_singleton] at at_end
      simp only [List.getElem_singleton, Standing.holds, Bool.and_true, beq_iff_eq] at holds
      exact .inr ⟨by omega, holds⟩
  have taken : ∀ {i : Nat} {a : Standing}, standings[i]? = some a → a.holds = true →
      kind ≠ .refreshWorker := by
    intro i a found holds worker
    have set := h.flag_iff.2 ⟨i, a, found, holds⟩
    rw [free worker] at set
    cases set
  refine ⟨⟨fun set => ?_, ?_⟩, fun i j a b fi fj hi hj => ?_, fun a ha => ?_⟩
  · rcases Bool.or_eq_true_iff.1 set with set | worker
    · obtain ⟨i, a, found, holds⟩ := h.flag_iff.1 set
      obtain ⟨inside, _⟩ := List.getElem?_eq_some_iff.1 found
      exact ⟨i, a, by rw [List.getElem?_append_left inside, found], holds⟩
    · refine ⟨standings.length, ⟨kind, .fresh, false⟩, List.getElem?_concat_length, ?_⟩
      simp only [Standing.holds, worker, Bool.and_true]
  · rintro ⟨i, a, found, holds⟩
    rcases last found holds with old | ⟨_, worker⟩
    · rw [h.flag_iff.2 ⟨i, a, old, holds⟩, Bool.true_or]
    · rw [worker, beq_self_eq_true, Bool.or_true]
  · rcases last fi hi with oldi | ⟨rfl, worker⟩ <;> rcases last fj hj with oldj | ⟨rfl, worker'⟩
    · exact h.unique i j a b oldi oldj hi hj
    · exact absurd worker' (taken oldi hi)
    · exact absurd worker (taken oldj hj)
    · rfl
  · rcases List.mem_append.1 ha with old | new
    · exact h.sound a old
    · rw [List.mem_singleton.1 new]
      exact nofun

/-- A task that passes on gives the flag back when it ceases to hold the cache. -/
theorem set (h : Claimed standings flag) {i : Nat} {a b : Standing} (found : standings[i]? = some a)
    (keeps : b.holds = true → a.holds = true) (sound : b.Sound) :
    Claimed (standings.set i b) (if a.holds && !b.holds then false else flag) := by
  obtain ⟨inside, _⟩ := List.getElem?_eq_some_iff.1 found
  have here : (standings.set i b)[i]? = some b := List.getElem?_set_self inside
  have before : ∀ {j : Nat} {c : Standing}, (standings.set i b)[j]? = some c →
      c.holds = true → ∃ d, standings[j]? = some d ∧ d.holds = true := by
    intro j c foundj holds
    by_cases same : i = j
    · subst same
      rw [here, Option.some.injEq] at foundj
      rw [← foundj] at holds
      exact ⟨a, found, keeps holds⟩
    · rw [List.getElem?_set_ne same] at foundj
      exact ⟨c, foundj, holds⟩
  refine ⟨⟨fun flagged => ?_, ?_⟩, fun j k c d fj fk hj hk => ?_, fun c hc => ?_⟩
  · cases hb : b.holds with
    | true => exact ⟨i, b, here, hb⟩
    | false =>
      cases ha : a.holds with
      | true => simp only [ha, hb, Bool.not_false, Bool.and_true, if_true] at flagged; cases flagged
      | false =>
        simp only [ha, Bool.false_and, Bool.false_eq_true, if_false] at flagged
        obtain ⟨j, c, foundj, holds⟩ := h.flag_iff.1 flagged
        have other : i ≠ j := by
          rintro rfl
          rw [found, Option.some.injEq] at foundj
          rw [← foundj, ha] at holds
          cases holds
        exact ⟨j, c, by rw [List.getElem?_set_ne other, foundj], holds⟩
  · rintro ⟨j, c, foundj, holds⟩
    obtain ⟨d, was, held⟩ := before foundj holds
    have flagged := h.flag_iff.2 ⟨j, d, was, held⟩
    cases ha : a.holds with
    | false => simpa only [Bool.false_and, Bool.false_eq_true, if_false] using flagged
    | true =>
      obtain rfl := h.unique i j a d found was ha held
      rw [here, Option.some.injEq] at foundj
      rw [foundj, holds]
      exact flagged
  · obtain ⟨c', wasj, heldj⟩ := before fj hj
    obtain ⟨d', wask, heldk⟩ := before fk hk
    exact h.unique j k c' d' wasj wask heldj heldk
  · rcases List.mem_or_eq_of_mem_set hc with old | rfl
    · exact h.sound c old
    · exact sound

end Claimed

namespace Session

/-! ## Steps keep the invariant -/

theorem getElem?_standings {s : Session} {index : Nat} {m : Member}
    (found : s.background.members[index]? = some m) :
    s.background.standings[index]? = some m.standing := by
  rw [Background.standings, List.getElem?_map, found]
  rfl

theorem standings_putMember (s : Session) (index : Nat) (m : Member) :
    (s.putMember index m).background.standings = s.background.standings.set index m.standing :=
  List.map_set

theorem workerRunning_putMember {s : Session} {index : Nat} {m : Member}
    (found : s.background.members[index]? = some m) (m' : Member) :
    (s.putMember index m').cache.workerRunning =
      if m.standing.holds && !m'.standing.holds then false else s.cache.workerRunning := by
  simp only [putMember, found, Option.any_some, Standing.holds_standing]

theorem claimed_putMember {s : Session} {index : Nat} {m m' : Member}
    (h : Claimed s.background.standings s.cache.workerRunning)
    (found : s.background.members[index]? = some m)
    (keeps : m'.standing.holds = true → m.standing.holds = true) (sound : m'.standing.Sound) :
    Claimed (s.putMember index m').background.standings
      (s.putMember index m').cache.workerRunning := by
  rw [standings_putMember, workerRunning_putMember found]
  exact h.set (getElem?_standings found) keeps sound

/-- A task whose cycle is over holds the cache only if it did so before. -/
theorem claimed_endCycle {s : Session} (index : Nat) (result : Except String Summary)
    (h : Claimed s.background.standings s.cache.workerRunning) :
    Claimed (s.endCycle index result).background.standings
      (s.endCycle index result).cache.workerRunning := by
  rcases s.endCycle_cases index result with eq | ⟨m, task, journal, found, kind, same, eq⟩
  · rw [eq]
    exact h
  · rw [eq]
    refine claimed_putMember (s := { s with journal }) h found (fun holds => ?_) nofun
    rw [Standing.holds_standing, Member.holdsCache] at holds ⊢
    simp only [kind, Option.isSome_none, Bool.or_false, Bool.and_eq_true] at holds
    obtain ⟨worker, running⟩ := holds
    have before : (!m.task.hasEnded) = true := by
      rcases same with rfl | before
      · exact running
      · rw [before, Bool.not_false]
    rw [worker, before, Bool.true_or, Bool.and_self]

theorem claimed_step {s t : Session} (step : Step s t)
    (h : Claimed s.background.standings s.cache.workerRunning) :
    Claimed t.background.standings t.cache.workerRunning := by
  cases step with
  | request q =>
    rcases (s.answered q).tasks with ⟨standings, flag⟩ |
      ⟨kind, interval, signal, started, start, standings, flag⟩
    · rw [standings, flag]
      exact h
    · obtain ⟨more, taken⟩ := startTask_standings start
      obtain ⟨_, _, _, free, _⟩ := startTask_eq_ok_iff.1 start
      rw [standings, flag, more, taken]
      exact h.append free
  | look index =>
    have looked := s.doPiece_look index
    generalize s.doPiece (.look index) = after at looked
    cases looked with
    | idle => exact h
    | passed ops found passes =>
      have sound := h.sound _ (List.mem_of_getElem? (getElem?_standings found))
      rw [Cache.workerRunning_applyAll]
      exact claimed_putMember h found passes.holds (passes.sound sound)
  | @cycleMoves index m progress found inCycle =>
    have same : ({ m with cycle := some progress } : Member).standing = m.standing := by
      rw [Member.standing, Member.standing, inCycle]
      rfl
    refine claimed_putMember h found (fun holds => same ▸ holds) ?_
    rw [same]
    exact h.sound _ (List.mem_of_getElem? (getElem?_standings found))
  | cycleEnds result _ => exact claimed_endCycle _ result h
  | threads => exact h
  | runtime => exact h
  | time => exact h

/-! ## Every session -/

variable {ttl : Span} {limit : Option Nat} {time : TimeSource} {hasRuntime : Bool} {s : Session}

theorem Reachable.claimed (h : Reachable ttl limit time hasRuntime s) :
    Claimed s.background.standings s.cache.workerRunning := by
  induction h with
  | refl => exact .empty
  | tail _ step ih => exact claimed_step step ih

theorem workerRunning_iff (h : Claimed s.background.standings s.cache.workerRunning) :
    s.cache.workerRunning = true ↔ ∃ m ∈ s.background.members, m.standing.holds = true := by
  rw [h.flag_iff]
  constructor
  · rintro ⟨i, a, found, holds⟩
    obtain ⟨m, member, rfl⟩ := List.mem_map.1 (List.mem_of_getElem? found)
    exact ⟨m, member, holds⟩
  · rintro ⟨m, member, holds⟩
    obtain ⟨i, found⟩ := List.getElem?_of_mem member
    exact ⟨i, m.standing, getElem?_standings found, holds⟩

/-- A task that holds the cache is a refresh worker that has not ended or has a cycle. -/
theorem holds_iff {m : Member} :
    m.standing.holds = true ↔
      m.task.kind = .refreshWorker ∧ (m.task.hasEnded = false ∨ m.cycle.isSome = true) := by
  rw [Standing.holds_standing, Member.holdsCache, Bool.and_eq_true, beq_iff_eq,
    Bool.or_eq_true, Bool.not_eq_true']

/-- A refresh worker that takes a tick is still waiting for it, so it has no cycle. -/
theorem standing_of_ticked {m : Member} (ticked : (s.look m).2 = .ticked) :
    ∃ ticker, m.task.phase = .waiting ticker := by
  have looks := Task.looks s.elapsed (s.stops.channel m.task.signal.channel) m.task
  change Task.Looks _ _ m.task (s.look m).1 (s.look m).2 at looks
  rw [ticked] at looks
  generalize (s.look m).1 = task at looks
  cases looks with
  | ticked _ phase => exact ⟨_, phase⟩

/-- The flag is set exactly while the task of a refresh worker or a cycle of it exists. There is
one of them at a time, cycles do not overlap, and none exists when a worker begins the next. With
something to run on, a worker starts at an interval that is not zero exactly when nothing is left
of any earlier one. -/
theorem worker_claims_cache (h : Reachable ttl limit time hasRuntime s) :
    (s.cache.workerRunning = true ↔ ∃ m ∈ s.background.members,
        m.task.kind = .refreshWorker ∧ (m.task.hasEnded = false ∨ m.cycle.isSome = true)) ∧
      (∀ (i j : Nat) (m m' : Member),
        s.background.members[i]? = some m → s.background.members[j]? = some m' →
        m.task.kind = .refreshWorker ∧ (m.task.hasEnded = false ∨ m.cycle.isSome = true) →
        m'.task.kind = .refreshWorker ∧ (m'.task.hasEnded = false ∨ m'.cycle.isSome = true) →
        i = j) ∧
      (∀ (i j : Nat) (m m' : Member),
        s.background.members[i]? = some m → s.background.members[j]? = some m' →
        m.cycle.isSome = true → m'.cycle.isSome = true → i = j) ∧
      (∀ m ∈ s.background.members, m.task.kind = .refreshWorker → (s.look m).2 = .ticked →
        ∀ m' ∈ s.background.members, m'.cycle = none) ∧
      ∀ interval signal, s.hasRuntime = true → 0 < interval.toNanos →
        ((∃ started, s.startTask .refreshWorker interval signal = .ok started) ↔
          ∀ m ∈ s.background.members, m.task.kind = .refreshWorker →
            m.task.hasEnded = true ∧ m.cycle = none) := by
  have claimed := h.claimed
  have flag := workerRunning_iff claimed
  have inCycle : ∀ {i : Nat} {m : Member}, s.background.members[i]? = some m →
      m.cycle.isSome = true → m.standing.holds = true := fun found cycle =>
    (claimed.sound _ (List.mem_of_getElem? (getElem?_standings found))).holds cycle
  refine ⟨?_, fun i j m m' fi fj hi hj => ?_, fun i j m m' fi fj ci cj => ?_,
    fun m hm kind ticked m' hm' => ?_, fun interval signal runtime positive => ?_⟩
  · rw [flag]
    exact exists_congr fun m => and_congr_right fun _ => holds_iff
  · exact claimed.unique i j _ _ (getElem?_standings fi) (getElem?_standings fj)
      (holds_iff.2 hi) (holds_iff.2 hj)
  · exact claimed.unique i j _ _ (getElem?_standings fi) (getElem?_standings fj)
      (inCycle fi ci) (inCycle fj cj)
  · obtain ⟨ticker, phase⟩ := standing_of_ticked ticked
    obtain ⟨i, fi⟩ := List.getElem?_of_mem hm
    obtain ⟨j, fj⟩ := List.getElem?_of_mem hm'
    rw [← Option.not_isSome_iff_eq_none]
    intro cycle
    have running : m.task.hasEnded = false := by rw [Task.hasEnded, phase]
    -- both hold the cache, so they are one, and a task that waits has no cycle
    obtain rfl := claimed.unique i j _ _ (getElem?_standings fi) (getElem?_standings fj)
      (holds_iff.2 ⟨kind, .inl running⟩) (inCycle fj cycle)
    rw [fi, Option.some.injEq] at fj
    subst fj
    obtain ⟨_, ⟨_, busy⟩ | ⟨_, ended⟩⟩ := claimed.sound _ (List.mem_map_of_mem hm) cycle
    · cases phase.symm.trans busy
    · cases phase.symm.trans ended
  · have free : (∃ started, s.startTask .refreshWorker interval signal = .ok started) ↔
        s.cache.workerRunning = false := by
      constructor
      · rintro ⟨started, start⟩
        obtain ⟨_, _, _, free, _⟩ := startTask_eq_ok_iff.1 start
        exact free rfl
      · intro free
        exact ⟨_, startTask_eq_ok_iff.2
          ⟨⟨interval, positive⟩, dif_pos positive, runtime, fun _ => free, rfl⟩⟩
    rw [free, ← Bool.not_eq_true, flag]
    constructor
    · intro none m hm kind
      have gone : ¬ m.standing.holds = true := fun holds => none ⟨m, hm, holds⟩
      rw [holds_iff, not_and, not_or, Bool.not_eq_false] at gone
      obtain ⟨ended, cycle⟩ := gone kind
      exact ⟨ended, Option.not_isSome_iff_eq_none.1 cycle⟩
    · rintro all ⟨m, hm, holds⟩
      obtain ⟨kind, left⟩ := holds_iff.1 holds
      obtain ⟨ended, cycle⟩ := all m hm kind
      rw [ended, cycle] at left
      rcases left with left | left <;> cases left

/-- A worker that is aborted in the middle of a cycle, which waits at a gate: its task is gone, the
flag is still set, and no other worker starts. -/
theorem worker_claims_cache_aborted :
    let step : WarmCache.Step := .mk (some "gate") [] (.item 5)
    let s := ((ofCache (.ofSecs 60) none (.manual ⟨0, 0⟩) true).run
      [.run (.act (.set "a" 1 [.refresh (.mk "source" step [] false [])])),
        .run (.act (.channel (.create "stop"))),
        .run (.act (.task (.start .refreshWorker "worker" (.ofSecs 1) "stop"))),
        .jump (.ofSecs 1),
        .run (.act (.task (.abort "worker")))]).1
    s.background.members.map (fun m => (m.task.hasEnded, m.cycle.isSome)) = [(true, true)] ∧
      s.cache.workerRunning = true ∧
      ¬ ∃ started, s.startTask .refreshWorker (.ofSecs 2) ⟨0, 0⟩ = .ok started := by
  intro step s
  have reached : Reachable (.ofSecs 60) none (.manual ⟨0, 0⟩) true s := Reachable.run .refl _
  have left : s.background.members.map
      (fun m => (m.task.kind, m.task.hasEnded, m.cycle.isSome)) =
      [(.refreshWorker, true, true)] := by decide +kernel
  obtain ⟨m, hm, eq⟩ := List.mem_map.1 (left ▸ List.mem_singleton_self _)
  simp only [Prod.mk.injEq] at eq
  obtain ⟨kind, _, cycle⟩ := eq
  obtain ⟨flag, _, _, _, starts⟩ := worker_claims_cache reached
  refine ⟨by decide +kernel, flag.2 ⟨m, hm, kind, .inr cycle⟩, fun started => ?_⟩
  have left := (starts (.ofSecs 2) ⟨0, 0⟩ (by decide +kernel) (by decide)).1 started
  obtain ⟨_, none⟩ := left m hm kind
  rw [none] at cycle
  cases cycle

end Session

end WarmCache
