import WarmCache.Session.Perform
import WarmCache.Proofs.Slots

/-!
# What a request does

Whatever a session, a callback or a background task wants of the session it asks for in single
requests. Here is what one request does to the cache, to the tasks in the background and to the
claim of a refresh worker on the cache.

Results:
1. `answered`: to the entries a request does the operations that `Session.opsOf` lists; it lets no
   time pass; and it leaves the tasks where they stood or starts one more.
2. `startTask_eq_ok_iff`: a start succeeds exactly when its interval is not zero, there is a
   runtime, and, for a refresh worker, the cache has none.
-/

namespace WarmCache

/-! ## How far a task has come -/

/-- What the claim on a cache depends on: the kind of a task, its phase, and whether a refresh
cycle that it began still exists. -/
structure Standing where
  kind : TaskKind
  phase : Phase
  inCycle : Bool
deriving DecidableEq, Repr

/-- The standing of a background task. -/
def Member.standing (m : Member) : Standing := ⟨m.task.kind, m.task.phase, m.cycle.isSome⟩

/-- The standings of all background tasks, in the order in which they were started. -/
def Background.standings (b : Background) : List Standing := b.members.map Member.standing

theorem Background.standings_release (b : Background) (gate : String) :
    (b.release gate).standings = b.standings := by
  simp only [standings, release, List.map_map]
  refine List.map_congr_left fun m _ => ?_
  simp only [Function.comp_apply, Member.standing, Option.isSome_map]

namespace Session

/-! ## Operations on the cache -/

/-- The operations on the entries that an action on the store comes to. -/
def storeOps (s : Session) : StoreAction → List (CacheOp Int)
  | .get key => [.get key]
  | .getItem key => [.get key]
  | .delete key => [.delete key]
  | .flush => [.flush s.now]
  | .setMany stem first count =>
    (numberedKeys stem first count).map fun key => .set s.now key.1 (.ofItem key.2)
  | .getMany stem first count => (numberedKeys stem first count).map fun key => .get key.1
  | .deleteMany stem first count => (numberedKeys stem first count).map fun key => .delete key.1
  | .showEntry key => [.get key]
  | .showExpiry key => [.get key]
  | .hold key _ => [.get key]
  | _ => []

/-- The operations on the entries that a request comes to. -/
def opsOf (s : Session) : Request → List (CacheOp Int)
  | .act (.set key item settings) => [.set s.now key (s.build item settings).2]
  | .act (.store action) => s.storeOps action
  | .settle key callback result => [.settle s.now key callback result]
  | _ => []

/-- Building a value may make sources for its callbacks, and does nothing else. -/
theorem build_frame (s : Session) (item : Int) (settings : List Build) :
    ∃ sources, (s.build item settings).1 = { s with sources } := by
  have each : ∀ (s : Session) (value : Value Int) (setting : Build),
      ∃ sources, (s.applySetting value setting).1 = { s with sources } := by
    intro s value setting
    cases setting with
    | expires moment => exact ⟨s.sources, rfl⟩
    | refresh fetcher =>
      obtain ⟨_, _, _, _, _⟩ := fetcher
      exact ⟨_, rfl⟩
    | share slot retries =>
      simp only [applySetting]
      split
      · exact ⟨s.sources, rfl⟩
      · exact ⟨s.sources, rfl⟩
  unfold build
  generalize Value.ofItem item = value
  induction settings generalizing s value with
  | nil => exact ⟨s.sources, rfl⟩
  | cons setting rest ih =>
    obtain ⟨sources, one⟩ := each s value setting
    obtain ⟨sources', more⟩ := ih (s.applySetting value setting).1 (s.applySetting value setting).2
    refine ⟨sources', ?_⟩
    rw [List.foldl_cons]
    refine more.trans ?_
    rw [one]

/-- A value is built in the same way in a session that only differs in what building does not read
and does not change. -/
theorem build_map {f : Session → Session} (held : ∀ s, (f s).held = s.held)
    (instants : ∀ s moment, (f s).instantOf moment = s.instantOf moment)
    (adds : ∀ s sources, f { s with sources } = { f s with sources })
    (sources : ∀ s, (f s).sources = s.sources) (s : Session) (item : Int)
    (settings : List Build) :
    (f s).build item settings = (f (s.build item settings).1, (s.build item settings).2) := by
  have each : ∀ (s : Session) (value : Value Int) (setting : Build),
      (f s).applySetting value setting =
        (f (s.applySetting value setting).1, (s.applySetting value setting).2) := by
    intro s value setting
    cases setting with
    | expires moment => simp only [applySetting, instants]
    | refresh fetcher =>
      obtain ⟨name, first, rest, cyclic, retries⟩ := fetcher
      let made := Source.ofFetcher (.mk name first rest cyclic retries)
      simp only [applySetting, addSource, sources]
      rw [adds s (s.sources ++ [made])]
    | share slot retries =>
      cases found : (s.held.find? slot).bind Entry.refresh <;>
        simp only [applySetting, held, found]
  unfold build
  generalize Value.ofItem item = value
  induction settings generalizing s value with
  | nil => rfl
  | cons setting rest ih =>
    exact (congrArg (fun start => List.foldl _ start rest) (each s value setting)).trans (ih _ _)

theorem foldl_set (s : Session) (keys : List (String × Int)) :
    keys.foldl (fun s key => (Session.set s key.1 (.ofItem key.2)).1) s =
      { s with
        cache := s.cache.applyAll (keys.map fun key => .set s.now key.1 (.ofItem key.2)) } := by
  induction keys generalizing s with
  | nil => rfl
  | cons key rest ih => exact ih _

theorem foldl_get (s : Session) (keys : List (String × Int)) :
    keys.foldl (fun s key => (Session.get s key.1).1) s =
      { s with cache := s.cache.applyAll (keys.map fun key => .get key.1) } := by
  induction keys generalizing s with
  | nil => rfl
  | cons key rest ih => exact ih _

theorem setMany_fst (s : Session) (keys : List (String × Int)) :
    (s.setMany keys).1 =
      { s with
        cache := s.cache.applyAll (keys.map fun key => .set s.now key.1 (.ofItem key.2)) } := by
  refine Eq.trans ?_ (s.foldl_set keys)
  refine (List.foldl_hom Prod.fst fun (x : Session × Nat × Option (Int × CacheError)) key =>
    ?_).symm
  dsimp only
  split <;> simp_all only

theorem getMany_fst (s : Session) (keys : List (String × Int)) :
    (s.getMany keys).1 = { s with cache := s.cache.applyAll (keys.map fun key => .get key.1) } := by
  refine Eq.trans ?_ (s.foldl_get keys)
  refine (List.foldl_hom Prod.fst fun (x : Session × List Int) key => ?_).symm
  dsimp only
  split <;> simp_all only

theorem foldl_delete (c : Cache Int) (keys : List (String × Int)) :
    keys.foldl (fun c key => Cache.delete c key.1) c =
      c.applyAll (keys.map fun key => .delete key.1) := by
  induction keys generalizing c with
  | nil => rfl
  | cons key rest ih => exact ih _

/-- An action on the store does its operations; besides, it may keep a copy of an entry. -/
theorem performStore_frame (s : Session) (action : StoreAction) :
    ∃ held, (s.performStore action).1 =
      { s with cache := s.cache.applyAll (s.storeOps action), held } := by
  cases action with
  | setMany stem first count => exact ⟨s.held, s.setMany_fst _⟩
  | getMany stem first count => exact ⟨s.held, s.getMany_fst _⟩
  | deleteMany stem first count =>
    refine ⟨s.held, ?_⟩
    simp only [performStore, foldl_delete, storeOps]
  | hold key slot =>
    simp only [performStore]
    split
    · exact ⟨_, rfl⟩
    · exact ⟨s.held, rfl⟩
  | held slot =>
    refine ⟨s.held, ?_⟩
    simp only [performStore]
    split <;> rfl
  | heldExpiredAt slot moment =>
    refine ⟨s.held, ?_⟩
    simp only [performStore]
    split <;> rfl
  | _ => exact ⟨s.held, rfl⟩

/-- An action on the clock or the policy may move a clock that is moved by hand, and does nothing
else. -/
theorem performPolicy_frame (s : Session) (action : PolicyAction) :
    (s.performPolicy action).1 = s ∨
      ∃ before after, s.clock = .manual before ∧
        (s.performPolicy action).1 = { s with clock := .manual after } := by
  cases action with
  | advance d =>
    simp only [performPolicy]
    split
    · next clock h => exact .inr ⟨clock, _, h, rfl⟩
    · exact .inl rfl
  | setClock moment =>
    simp only [performPolicy]
    split
    · next clock h => exact .inr ⟨clock, _, h, rfl⟩
    · exact .inl rfl
  | _ => exact .inl rfl

/-- Gates and background refreshes do not touch the standing of a task. -/
theorem performGate_frame (s : Session) (action : GateAction) :
    ∃ background, (s.performGate action).1 = { s with background } ∧
      background.standings = s.background.standings := by
  cases action with
  | unlock gate => exact ⟨_, rfl, s.background.standings_release gate⟩
  | release gate => exact ⟨_, rfl, s.background.standings_release gate⟩
  | spawnRefresh name => exact ⟨_, rfl, rfl⟩
  | isBlocked name => exact ⟨s.background, rfl, rfl⟩
  | join name =>
    simp only [performGate]
    split
    · exact ⟨_, rfl, rfl⟩
    · exact ⟨s.background, rfl, rfl⟩

/-- A start succeeds exactly when nothing stands against it, and then there is one task more; a
refresh worker has the cache from then on. -/
theorem startTask_eq_ok_iff {s started : Session} {kind : TaskKind} {interval : Span}
    {signal : StopSignal} :
    s.startTask kind interval signal = .ok started ↔
      ∃ i, Interval.ofSpan? interval = some i ∧ s.hasRuntime = true ∧
        (kind = .refreshWorker → s.cache.workerRunning = false) ∧
        started =
          { s with
            cache := s.cache.claim (s.cache.workerRunning || kind == .refreshWorker)
            background :=
              { s.background with
                members := s.background.members ++ [⟨.spawn kind i signal, none⟩] } } := by
  unfold startTask
  cases hi : Interval.ofSpan? interval with
  | none => simp
  | some i =>
    cases hr : s.hasRuntime with
    | false => simp
    | true =>
      have free : (kind == .refreshWorker && s.cache.workerRunning) = true ↔
          ¬(kind = .refreshWorker → s.cache.workerRunning = false) := by
        cases kind <;> simp
      by_cases hf : kind = .refreshWorker → s.cache.workerRunning = false
      · have open' : (kind == .refreshWorker && s.cache.workerRunning) = false :=
          Bool.eq_false_iff.2 fun taken => free.1 taken hf
        simp only [Bool.not_true, Bool.false_eq_true, if_false, open', Except.ok.injEq]
        constructor
        · rintro rfl
          exact ⟨i, rfl, trivial, hf, rfl⟩
        · rintro ⟨_, same, _, _, rfl⟩
          cases same
          rfl
      · simp only [Bool.not_true, Bool.false_eq_true, if_false, free.2 hf, if_true]
        constructor
        · intro h
          cases h
        · rintro ⟨_, _, _, h, _⟩
          exact absurd h hf

theorem standings_abort (b : Background) (index : Nat) :
    (b.members.modify index fun m =>
      { m with task := { m.task with abortRequested := true } }).map Member.standing =
      b.standings := by
  refine List.ext_getElem? fun i => ?_
  simp only [Background.standings, List.getElem?_map, List.getElem?_modify]
  by_cases h : index = i
  · simp only [h, if_true]
    cases b.members[i]? <;> rfl
  · simp only [h, if_false]
    cases b.members[i]? <;> rfl

/-- A start adds one task, which has not run yet. -/
theorem startTask_standings {s started : Session} {kind : TaskKind} {interval : Span}
    {signal : StopSignal} (start : s.startTask kind interval signal = .ok started) :
    started.background.standings = s.background.standings ++ [⟨kind, .fresh, false⟩] ∧
      started.cache.workerRunning = (s.cache.workerRunning || kind == .refreshWorker) := by
  obtain ⟨i, _, _, _, rfl⟩ := startTask_eq_ok_iff.1 start
  exact ⟨List.map_append, rfl⟩

/-- An action on tasks leaves their standing as it is, or it starts one. -/
theorem performTask_cases (s : Session) (action : TaskAction) :
    (∃ background, (s.performTask action).1 = { s with background } ∧
      background.standings = s.background.standings) ∨
    ∃ kind interval signal started background,
      s.startTask kind interval signal = .ok started ∧
        (s.performTask action).1 = { started with background } ∧
        background.standings = started.background.standings := by
  cases action with
  | start kind name interval signal =>
    simp only [performTask]
    split
    · exact .inl ⟨s.background, rfl, rfl⟩
    · next found _ =>
      split
      · exact .inl ⟨s.background, rfl, rfl⟩
      · next started h => exact .inr ⟨kind, interval, found, started, _, h, rfl, rfl⟩
  | abort name =>
    simp only [performTask]
    split
    · exact .inl ⟨_, rfl, standings_abort _ _⟩
    · exact .inl ⟨s.background, rfl, rfl⟩
  | hasEnded name => exact .inl ⟨s.background, rfl, rfl⟩
  | join name =>
    simp only [performTask]
    split
    · split <;> exact .inl ⟨_, rfl, rfl⟩
    · exact .inl ⟨s.background, rfl, rfl⟩

theorem beginAttempt_frame (s : Session) (source : Nat) :
    ∃ sources journal, (s.beginAttempt source).1 = { s with sources, journal } := by
  unfold beginAttempt
  split
  · exact ⟨s.sources, s.journal, rfl⟩
  · exact ⟨_, _, rfl⟩

theorem settleOutcome_frame (s : Session) (key : String) (callback : Callback)
    (result : Except String Int) :
    ∃ journal, (s.settleOutcome key callback result).1 =
      { s with cache := (s.cache.settle s.now key callback result).1, journal } := by
  cases result with
  | error message => exact ⟨_, rfl⟩
  | ok item => exact ⟨s.journal, rfl⟩

/-! ## Requests -/

/-- What became of session `s` when it answered request `q`. -/
structure Answered (s : Session) (q : Request) (t : Session) : Prop where
  /-- To the entries and counters it did the operations that the request comes to. -/
  cache : ∃ taken, t.cache = (s.cache.applyAll (s.opsOf q)).claim taken
  /-- No time passed. A clock that is moved by hand may have been moved; of any other a reading
  was taken. -/
  clock : t.elapsed = s.elapsed ∧ (t.clock = s.clock.tick ∨
    ∃ before after, s.clock = .manual before ∧ t.clock = .manual after)
  /-- Either the tasks stand where they stood, or one more was started. -/
  tasks : (t.background.standings = s.background.standings ∧
      t.cache.workerRunning = s.cache.workerRunning) ∨
    ∃ kind interval signal started, s.startTask kind interval signal = .ok started ∧
      t.background.standings = started.background.standings ∧
      t.cache.workerRunning = started.cache.workerRunning

/-- Most requests change the standing of no task and move no clock. -/
theorem Answered.of_frame {s t : Session} {q : Request} {clock : Clock}
    {sources : List Source} {held : Keyed (Entry Int)} {journal : Journal} {stops : Stops}
    {background : Background}
    (eq : t = { s with
      cache := s.cache.applyAll (s.opsOf q), clock, sources, held, journal, stops, background })
    (hclock : clock = s.clock.tick ∨
      ∃ before after, s.clock = .manual before ∧ clock = .manual after)
    (standings : background.standings = s.background.standings) : Answered s q t := by
  subst eq
  have flag := s.cache.workerRunning_applyAll (s.opsOf q)
  exact ⟨⟨_, rfl⟩, ⟨rfl, hclock⟩, .inl ⟨standings, flag⟩⟩

theorem answered (s : Session) (q : Request) : Answered s q (s.answer q).1 := by
  cases q with
  | act action =>
    have done : (s.answer (.act action)).1 =
      { (s.perform action).1 with clock := (s.perform action).1.clock.tick } := rfl
    rw [done]
    cases action with
    | set key item settings =>
      have set : (s.perform (.set key item settings)).1 =
        (Session.set (s.build item settings).1 key (s.build item settings).2).1 := rfl
      obtain ⟨sources, built⟩ := s.build_frame item settings
      rw [set, built]
      exact .of_frame rfl (.inl rfl) rfl
    | showValue item settings =>
      have shown : (s.perform (.showValue item settings)).1 = (s.build item settings).1 := rfl
      obtain ⟨sources, built⟩ := s.build_frame item settings
      rw [shown, built]
      exact .of_frame rfl (.inl rfl) rfl
    | store action =>
      obtain ⟨held, eq⟩ := s.performStore_frame action
      rw [perform, eq]
      exact .of_frame rfl (.inl rfl) rfl
    | policy action =>
      rw [perform]
      rcases s.performPolicy_frame action with eq | ⟨before, after, manual, eq⟩
      · rw [eq]
        exact .of_frame rfl (.inl rfl) rfl
      · rw [eq]
        exact .of_frame rfl (.inr ⟨before, after, manual, rfl⟩) rfl
    | note action => exact .of_frame rfl (.inl rfl) rfl
    | channel action => exact .of_frame rfl (.inl rfl) rfl
    | gate action =>
      obtain ⟨background, eq, standings⟩ := s.performGate_frame action
      rw [perform, eq]
      exact .of_frame rfl (.inl rfl) standings
    | task action =>
      rw [perform]
      rcases s.performTask_cases action with
        ⟨background, eq, standings⟩ |
        ⟨kind, interval, signal, started, background, start, eq, standings⟩
      · rw [eq]
        exact .of_frame rfl (.inl rfl) standings
      · rw [eq]
        refine ⟨?_, ?_, .inr ⟨kind, interval, signal, started, start, standings, rfl⟩⟩
        · obtain ⟨_, _, _, _, rfl⟩ := startTask_eq_ok_iff.1 start
          exact ⟨_, rfl⟩
        · obtain ⟨_, _, _, _, rfl⟩ := startTask_eq_ok_iff.1 start
          exact ⟨rfl, .inl rfl⟩
  | settle key callback result =>
    have done : (s.answer (.settle key callback result)).1 =
      { (s.settleOutcome key callback result).1 with
        clock := (s.settleOutcome key callback result).1.clock.tick } := rfl
    obtain ⟨journal, eq⟩ := s.settleOutcome_frame key callback result
    rw [done, eq]
    exact .of_frame rfl (.inl rfl) rfl
  | attempt source =>
    have done : (s.answer (.attempt source)).1 =
      { (s.beginAttempt source).1 with clock := (s.beginAttempt source).1.clock.tick } := rfl
    obtain ⟨sources, journal, eq⟩ := s.beginAttempt_frame source
    rw [done, eq]
    exact .of_frame rfl (.inl rfl) rfl
  | snapshot => exact .of_frame rfl (.inl rfl) rfl
  | record note => exact .of_frame rfl (.inl rfl) rfl
  | heldCallback slot => exact .of_frame rfl (.inl rfl) rfl

end Session

end WarmCache
