import WarmCache.Proofs.Duties
import WarmCache.Proofs.Ledger
import WarmCache.Proofs.Light
import WarmCache.Proofs.Runs

/-!
# Sessions with light callbacks

A session with light callbacks only is orderly: every callback that it keeps, under a key or in a
slot, has its source, and every background refresh and every cycle has either yet to begin or is
over.

Results:
1. `Orderly.answer`: requests leave a session orderly.
2. `look_passes`, `endCycle_passes`: what looks and the ends of cycles change.
3. `Orderly.doPiece_thread`, `Orderly.doPiece_cycle`: a background refresh or a cycle that goes on
   comes to its end at once.
4. `Orderly.follow`: whatever light things happen, a session stays orderly.
-/

namespace WarmCache

/-! ## Callbacks that are kept -/

namespace Keyed

variable {α : Type} {table : Keyed α} {key : String} {pair : String × α}

theorem mem_put {value : α} (h : pair ∈ table.put key value) : pair ∈ table ∨ pair.2 = value := by
  induction table with
  | nil =>
    obtain rfl := List.mem_singleton.1 h
    exact .inr rfl
  | cons head rest ih =>
    obtain ⟨k, v⟩ := head
    unfold put at h
    split at h
    · rcases List.mem_cons.1 h with rfl | old
      · exact .inr rfl
      · exact .inl (List.mem_cons_of_mem _ old)
    · rcases List.mem_cons.1 h with rfl | later
      · exact .inl List.mem_cons_self
      · exact (ih later).imp_left (List.mem_cons_of_mem _)

theorem mem_of_mem_remove (h : pair ∈ table.remove key) : pair ∈ table := by
  induction table with
  | nil => exact h
  | cons head rest ih =>
    obtain ⟨k, v⟩ := head
    unfold remove at h
    split at h
    · exact List.mem_cons_of_mem _ h
    · rcases List.mem_cons.1 h with rfl | later
      · exact List.mem_cons_self
      · exact List.mem_cons_of_mem _ (ih later)

/-- Every callback in the table has one of the first `n` sources. -/
def Sourced (n : Nat) (table : Keyed (Entry Int)) : Prop :=
  ∀ pair ∈ table, ∀ callback, pair.2.refresh = some callback → callback.source < n

theorem Sourced.mono {table : Keyed (Entry Int)} {m n : Nat} (h : table.Sourced m) (le : m ≤ n) :
    table.Sourced n :=
  fun pair member callback stored => Nat.lt_of_lt_of_le (h pair member callback stored) le

theorem Sourced.find? {table : Keyed (Entry Int)} {n : Nat} (h : table.Sourced n)
    {callback : Callback} (found : (table.find? key).bind Entry.refresh = some callback) :
    callback.source < n := by
  obtain ⟨e, there, stored⟩ := Option.bind_eq_some_iff.1 found
  exact h (key, e) (mem_of_find? there) callback stored

end Keyed

/-- The callback that an operation stores with an entry. -/
def CacheOp.callback? {α : Type} : CacheOp α → Option Callback
  | .set _ _ value => value.refresh
  | .settle _ _ callback _ => some callback
  | _ => none

namespace Cache

variable {α : Type} {c : Cache α} {pair : String × Entry α}

theorem mem_apply {op : CacheOp α} (h : pair ∈ (c.apply op).entries) :
    pair ∈ c.entries ∨ pair.2.refresh = op.callback? := by
  cases op with
  | set now key value =>
    simp only [apply] at h
    rcases c.set_cases key with present | ⟨absent, room⟩ | ⟨absent, limit, hl, full⟩
    · rw [set_of_contains present] at h
      exact (Keyed.mem_put h).imp_right (congrArg Entry.refresh)
    · rw [set_of_hasRoom absent room] at h
      exact (Keyed.mem_put h).imp_right (congrArg Entry.refresh)
    · rw [set_of_full absent hl full] at h
      exact .inl h
  | get key =>
    rw [apply, get_entries] at h
    exact .inl h
  | delete key =>
    simp only [apply, delete] at h
    split at h
    · exact .inl (Keyed.mem_of_mem_remove h)
    · exact .inl h
  | flush now => exact .inl (List.mem_of_mem_filter h)
  | settle now key callback result =>
    cases result with
    | error message => exact .inl h
    | ok item =>
      simp only [apply, settle] at h
      split at h
      · exact (Keyed.mem_put h).imp_right (congrArg Entry.refresh)
      · exact .inl h

theorem mem_applyAll {ops : List (CacheOp α)} (h : pair ∈ (c.applyAll ops).entries) :
    pair ∈ c.entries ∨ ∃ op ∈ ops, pair.2.refresh = op.callback? := by
  induction ops generalizing c with
  | nil => exact .inl h
  | cons op rest ih =>
    rcases ih h with before | ⟨later, member, stored⟩
    · exact (mem_apply before).imp_right fun stored => ⟨op, List.mem_cons_self, stored⟩
    · exact .inr ⟨later, List.mem_cons_of_mem _ member, stored⟩

end Cache

namespace Session

/-- A value takes its callback from a slot, or it makes it with its source. -/
theorem build_sourced {s : Session} (held : s.held.Sourced s.sources.length) (item : Int)
    (settings : List Build) {callback : Callback}
    (stored : (s.build item settings).2.refresh = some callback) :
    callback.source < (s.build item settings).1.sources.length := by
  have each : ∀ (settings : List Build) (t : Session) (value : Value Int),
      t.held.Sourced t.sources.length →
      (∀ callback, value.refresh = some callback → callback.source < t.sources.length) →
      let built :=
        settings.foldl (fun p setting => p.1.applySetting p.2 setting) (t, value)
      ∀ callback, built.2.refresh = some callback → callback.source < built.1.sources.length := by
    intro settings
    induction settings with
    | nil => exact fun t value _ known => known
    | cons setting rest ih =>
      intro t value held known
      cases setting with
      | expires moment => exact ih t { value with expires := some (t.instantOf moment) } held known
      | refresh fetcher =>
        obtain ⟨name, first, steps, cyclic, retries⟩ := fetcher
        let made := t.addSource (.mk name first steps cyclic retries)
        have more : made.1.sources.length = t.sources.length + 1 := List.length_append
        refine ih made.1 { value with refresh := some made.2 } (held.mono ?_) fun new stored => ?_
        · exact more ▸ Nat.le_succ _
        · obtain rfl := Option.some.inj stored
          exact more ▸ Nat.lt_succ_self _
      | share slot retries =>
        simp only [List.foldl_cons, applySetting]
        split
        · next kept found =>
          refine ih t _ held fun shared stored => ?_
          obtain rfl := Option.some.inj stored
          have source := held.find? found
          cases retries <;> exact source
        · exact ih t value held known
  have unset : ∀ callback, (Value.ofItem item).refresh ≠ some callback :=
    fun _ => (Option.some_ne_none _).symm
  exact each settings s (.ofItem item) held (fun _ set => absurd set (unset _)) callback stored

/-- What is kept in a slot was there before or comes from the cache. -/
theorem mem_held_performStore {s : Session} {action : StoreAction} {pair : String × Entry Int}
    (h : pair ∈ (s.performStore action).1.held) :
    pair ∈ s.held ∨ ∃ there ∈ s.cache.entries, pair.2 = there.2 := by
  cases action with
  | hold key slot =>
    simp only [performStore, get] at h
    split at h
    · next e found =>
      rw [Cache.get_snd] at found
      exact (Keyed.mem_put h).imp_right fun same => ⟨_, Keyed.mem_of_find? found, same⟩
    · exact .inl h
  | setMany stem first count =>
    rw [performStore, setMany_fst] at h
    exact .inl h
  | getMany stem first count =>
    rw [performStore, getMany_fst] at h
    exact .inl h
  | held slot =>
    simp only [performStore] at h
    split at h <;> exact .inl h
  | heldExpiredAt slot moment =>
    simp only [performStore] at h
    split at h <;> exact .inl h
  | _ => exact .inl h

end Session

/-! ## Work under way -/

/-- A task has no cycle, or one that has yet to begin. -/
def Member.Whole (m : Member) : Prop := m.cycle = none ∨ m.cycle = some (.ready Work.wholeRefresh)

/-- The cycle that a task has after a look. -/
def Member.cycleAfter (m : Member) : TaskStep → Option RefreshProgress
  | .ticked =>
    match m.task.kind with
    | .refreshWorker => some (.ready Work.wholeRefresh)
    | .flusher => none
  | _ => m.cycle

/-- A look leaves a task what it is. -/
theorem Task.Looks.keeps {now : Nat} {channel : StopChannel} {t t' : Task} {step : TaskStep}
    (h : t.Looks now channel t' step) : t'.kind = t.kind ∧ t'.interval = t.interval ∧
      t'.abortRequested = t.abortRequested := by
  cases h with
  | ticked =>
    unfold tick
    split <;> exact ⟨rfl, rfl, rfl⟩
  | _ => exact ⟨rfl, rfl, rfl⟩

/-- A look leaves a task without a cycle, with its own or with one that has yet to begin. -/
theorem Member.Whole.look {m m' : Member} (h : m.Whole) {step : TaskStep}
    (cycle : m'.cycle = m.cycleAfter step) : m'.Whole := by
  rw [Whole, cycle]
  cases step with
  | ticked =>
    unfold cycleAfter
    cases m.task.kind with
    | refreshWorker => exact .inr rfl
    | flusher => exact .inl rfl
  | _ => exact h

/-- Background refreshes and cycles have yet to begin or are over. -/
structure Background.Whole (b : Background) : Prop where
  threads : ∀ p ∈ b.threads, p = .ready Work.wholeRefresh ∨ ∃ result, p = .finished result
  members : ∀ m ∈ b.members, m.Whole

namespace Background.Whole

variable {b : Background}

/-- There is nobody to let through at a gate. -/
theorem release (h : b.Whole) (gate : String) :
    (b.release gate).threads = b.threads ∧ (b.release gate).members = b.members := by
  constructor
  · refine (List.map_congr_left fun p member => ?_).trans (List.map_id _)
    rcases h.threads p member with rfl | ⟨result, rfl⟩ <;> rfl
  · refine (List.map_congr_left fun m member => ?_).trans (List.map_id _)
    obtain ⟨task, cycle⟩ := m
    rcases h.members _ member with idle | ready
    · obtain rfl : cycle = none := idle
      rfl
    · obtain rfl : cycle = some (.ready Work.wholeRefresh) := ready
      rfl

/-- Names and gates do not matter. -/
theorem of_eq (h : b.Whole) {b' : Background} (threads : b'.threads = b.threads)
    (members : b'.members = b.members) : b'.Whole :=
  ⟨threads ▸ h.threads, members ▸ h.members⟩

theorem set_member (h : b.Whole) {index : Nat} {m : Member} (whole : m.Whole) {b' : Background}
    (threads : b'.threads = b.threads) (members : b'.members = b.members.set index m) :
    b'.Whole := by
  refine ⟨threads ▸ h.threads, fun x there => ?_⟩
  rw [members] at there
  rcases List.mem_or_eq_of_mem_set there with old | rfl
  · exact h.members x old
  · exact whole

end Background.Whole

namespace Session

theorem whole_performGate {s : Session} (h : s.background.Whole) (action : GateAction) :
    (s.performGate action).1.background.Whole := by
  cases action with
  | unlock gate => exact h.of_eq (h.release gate).1 (h.release gate).2
  | release gate => exact h.of_eq (h.release gate).1 (h.release gate).2
  | spawnRefresh name =>
    refine ⟨fun p member => ?_, h.members⟩
    rcases List.mem_append.1 member with old | new
    · exact h.threads p old
    · exact .inl (List.mem_singleton.1 new)
  | isBlocked name => exact h
  | join name =>
    simp only [performGate]
    split
    · exact h.of_eq rfl rfl
    · exact h

theorem whole_performTask {s : Session} (h : s.background.Whole) (action : TaskAction) :
    (s.performTask action).1.background.Whole := by
  cases action with
  | start kind name interval signal =>
    simp only [performTask]
    split
    · exact h
    · split
      · exact h
      · next started start =>
        obtain ⟨i, _, _, _, rfl⟩ := startTask_eq_ok_iff.1 start
        refine ⟨h.threads, fun m member => ?_⟩
        rcases List.mem_append.1 member with old | new
        · exact h.members m old
        · obtain rfl := List.mem_singleton.1 new
          exact .inl rfl
  | abort name =>
    simp only [performTask]
    split
    · next index _ =>
      refine ⟨h.threads, fun m member => ?_⟩
      obtain ⟨i, found⟩ := List.getElem?_of_mem member
      rw [List.getElem?_modify] at found
      obtain ⟨old, there, rfl⟩ := Option.map_eq_some_iff.1 found
      have whole := h.members old (List.mem_of_getElem? there)
      split <;> exact whole
    · exact h
  | hasEnded name => exact h
  | join name =>
    simp only [performTask]
    split
    · split <;> exact h.of_eq rfl rfl
    · exact h

theorem whole_perform {s : Session} (h : s.background.Whole) (action : Action) :
    (s.perform action).1.background.Whole := by
  cases action with
  | set key item settings =>
    obtain ⟨sources, built⟩ := s.build_frame item settings
    show (s.build item settings).1.background.Whole
    rw [built]
    exact h
  | showValue item settings =>
    obtain ⟨sources, built⟩ := s.build_frame item settings
    show (s.build item settings).1.background.Whole
    rw [built]
    exact h
  | store action =>
    obtain ⟨held, eq⟩ := s.performStore_frame action
    rw [perform, eq]
    exact h
  | policy action =>
    rw [perform]
    rcases s.performPolicy_frame action with eq | ⟨_, _, _, eq⟩
    · rw [eq]
      exact h
    · rw [eq]
      exact h
  | note action => exact h
  | channel action => exact h
  | gate action => exact whole_performGate h action
  | task action => exact whole_performTask h action

/-- A request other than an action leaves the background alone. -/
theorem background_answer {s : Session} {q : Request} (other : ∀ action, q ≠ .act action) :
    (s.answer q).1.background = s.background := by
  cases q with
  | act action => exact absurd rfl (other action)
  | settle key callback result => cases result <;> rfl
  | attempt source =>
    obtain ⟨sources, journal, begun⟩ := s.beginAttempt_frame source
    show (s.beginAttempt source).1.background = _
    rw [begun]
  | snapshot => rfl
  | record note => rfl
  | heldCallback slot => rfl

theorem whole_answer {s : Session} (h : s.background.Whole) (q : Request) :
    (s.answer q).1.background.Whole := by
  by_cases acts : ∃ action, q = .act action
  · obtain ⟨action, rfl⟩ := acts
    exact whole_perform h action
  · rw [background_answer (not_exists.1 acts)]
    exact h

/-! ## Orderly sessions -/

/-- All callbacks are light, and those that are kept have their sources. Background refreshes and
cycles have yet to begin or are over. -/
structure Orderly (s : Session) : Prop where
  light : s.KeepsLight
  stored : s.cache.entries.Sourced s.sources.length
  held : s.held.Sourced s.sources.length
  whole : s.background.Whole

theorem orderly_ofCache (ttl : Span) (limit : Option Nat) (time : TimeSource)
    (hasRuntime : Bool) : (ofCache ttl limit time hasRuntime).Orderly :=
  ⟨nofun, nofun, nofun, ⟨nofun, nofun⟩⟩

/-- What a request stores has its source, if what it settles does. -/
theorem stored_answer {s : Session} (h : s.Orderly) {q : Request}
    (settles : ∀ key callback result, q = .settle key callback result →
      callback.source < s.sources.length) :
    (s.answer q).1.cache.entries.Sourced (s.answer q).1.sources.length := by
  have grown := (s.grows_answer q).length_le
  intro pair member callback stored
  obtain ⟨taken, cache⟩ := (s.answered q).cache
  rw [cache] at member
  rcases Cache.mem_applyAll member with old | ⟨op, among, new⟩
  · exact Nat.lt_of_lt_of_le (h.stored pair old callback stored) grown
  · rw [stored] at new
    cases q with
    | act action =>
      cases action with
      | set key item settings =>
        obtain rfl := List.mem_singleton.1 among
        exact build_sourced h.held item settings new.symm
      | store action =>
        change op ∈ s.storeOps action at among
        cases action with
        | setMany stem first count =>
          obtain ⟨_, _, rfl⟩ := List.mem_map.1 among
          cases new
        | getMany stem first count =>
          obtain ⟨_, _, rfl⟩ := List.mem_map.1 among
          cases new
        | deleteMany stem first count =>
          obtain ⟨_, _, rfl⟩ := List.mem_map.1 among
          cases new
        | get | getItem | delete | flush | showEntry | showExpiry | hold =>
          obtain rfl := List.mem_singleton.1 among
          cases new
        | _ => cases among
      | _ => cases among
    | settle key callback' result =>
      obtain rfl := List.mem_singleton.1 among
      obtain rfl := Option.some.inj new
      exact Nat.lt_of_lt_of_le (settles _ _ _ rfl) grown
    | _ => cases among

theorem held_answer {s : Session} (h : s.Orderly) (q : Request) :
    (s.answer q).1.held.Sourced (s.answer q).1.sources.length := by
  have grown := (s.grows_answer q).length_le
  have same : (s.answer q).1.held = s.held →
      (s.answer q).1.held.Sourced (s.answer q).1.sources.length :=
    fun eq => eq ▸ h.held.mono grown
  cases q with
  | act action =>
    cases action with
    | store action =>
      intro pair member callback stored
      refine Nat.lt_of_lt_of_le ?_ grown
      rcases mem_held_performStore member with old | ⟨there, old, eq⟩
      · exact h.held pair old callback stored
      · exact h.stored there old callback (eq ▸ stored)
    | set key item settings =>
      obtain ⟨sources, built⟩ := s.build_frame item settings
      refine same ?_
      show (s.build item settings).1.held = _
      rw [built]
    | showValue item settings =>
      obtain ⟨sources, built⟩ := s.build_frame item settings
      refine same ?_
      show (s.build item settings).1.held = _
      rw [built]
    | policy action =>
      refine same ?_
      show (s.performPolicy action).1.held = _
      rcases s.performPolicy_frame action with eq | ⟨_, _, _, eq⟩ <;> rw [eq]
    | note action => exact same rfl
    | channel action => exact same rfl
    | gate action =>
      refine same ?_
      obtain ⟨_, eq, _⟩ := s.performGate_frame action
      show (s.performGate action).1.held = _
      rw [eq]
    | task action =>
      refine same ?_
      show (s.performTask action).1.held = _
      rcases s.performTask_cases action with ⟨_, eq, _⟩ | ⟨_, _, _, _, _, start, eq, _⟩
      · rw [eq]
      · obtain ⟨_, _, _, _, rfl⟩ := startTask_eq_ok_iff.1 start
        rw [eq]
  | settle key callback result => exact same (by cases result <;> rfl)
  | attempt source =>
    refine same ?_
    obtain ⟨sources, journal, begun⟩ := s.beginAttempt_frame source
    show (s.beginAttempt source).1.held = _
    rw [begun]
  | snapshot => exact same rfl
  | record note => exact same rfl
  | heldCallback slot => exact same rfl

theorem Orderly.answer {s : Session} (h : s.Orderly) {own : Bool} {q : Request}
    (light : q.isLight own = true)
    (settles : ∀ key callback result, q = .settle key callback result →
      callback.source < s.sources.length) : (s.answer q).1.Orderly :=
  ⟨h.light.answer light, stored_answer h settles, held_answer h q, whole_answer h.whole q⟩

/-- What requests keep beside the order of a session is kept by all work with light callbacks. -/
theorem Orderly.enduring {R : Session → Prop} {fits : String × Callback → Prop}
    (aside : ∀ {s : Session} {q : Request}, q.isLight false = true → s.Orderly → R s →
      R (s.answer q).1)
    (snapshot : ∀ {s : Session}, s.Orderly → R s → ∀ pair ∈ s.cache.refreshable, fits pair)
    (settles : ∀ {s : Session} {pair : String × Callback} (result : Except String Int),
      s.Orderly → R s → fits pair → R (s.answer (.settle pair.1 pair.2 result)).1) :
    Work.Enduring (fun s => s.Orderly ∧ R s) fits where
  light holds := holds.1.light
  aside {s q} light holds := by
    refine ⟨holds.1.answer light fun key callback result eq => ?_, aside light holds.1 holds.2⟩
    rw [eq] at light
    cases light
  snapshot := by
    intro s holds pair member
    obtain ⟨e, among, stored⟩ := Cache.mem_refreshable.1 member
    exact ⟨holds.1.stored _ among _ stored, snapshot holds.1 holds.2 pair member⟩
  settles := by
    intro s pair result holds known fit
    have light : Request.isLight true (.settle pair.1 pair.2 result) = true := rfl
    refine ⟨holds.1.answer light fun _ _ _ eq => ?_, settles result holds.1 holds.2 fit⟩
    obtain ⟨-, rfl, -⟩ := Request.settle.inj eq
    exact known

/-! ## Pieces of background work -/

/-- In session `t`, task `index` is `m'` and no longer `m`. Besides, these operations were done to
the entries, and something may have been reported. -/
structure Passes (s t : Session) (index : Nat) (m m' : Member) (ops : List (CacheOp Int)) : Prop
    extends Replaces s t index m m' where
  cache : ∃ taken, t.cache = (s.cache.applyAll ops).claim taken
  clock : t.clock = s.clock
  sources : t.sources = s.sources
  held : t.held = s.held

/-- Nothing comes of a look, or the task that is looked at goes on. -/
theorem look_passes (s : Session) (index : Nat) :
    (s.doPiece (.look index) = s ∧
      ∀ m, s.background.members[index]? = some m → (s.look m).2 = .idle) ∨
    ∃ m m' step, m.task.Looks s.elapsed (s.stops.channel m.task.signal.channel) m'.task step ∧
      step ≠ .idle ∧ m'.cycle = m.cycleAfter step ∧
      s.Passes (s.doPiece (.look index)) index m m' (s.lookOps index) := by
  cases found : s.background.members[index]? with
  | none => exact .inl ⟨by simp only [doPiece, found], fun _ there => by cases there⟩
  | some m =>
    have looks := Task.looks s.elapsed (s.stops.channel m.task.signal.channel) m.task
    have channel := m.task.look_channel s.elapsed (s.stops.channel m.task.signal.channel)
    have cache := s.cache_look index
    rw [doPiece_look_eq found] at cache ⊢
    change Task.Looks _ _ m.task (s.look m).1 (s.look m).2 at looks
    change (s.look m).1.signal.channel = _ at channel
    generalize (s.look m).1 = task at looks channel cache ⊢
    generalize did : (s.look m).2 = step at looks cache ⊢
    obtain ⟨kind, interval, abort⟩ := looks.keeps
    have put : ∀ (t : Session) (m' : Member), t.background = s.background →
        t.elapsed = s.elapsed → t.stops = s.stops → m'.task = task →
        Replaces s (t.putMember index m') index m m' := by
      rintro t m' background elapsed stops rfl
      exact .of_put found (congrArg _ background) (congrArg _ background) elapsed
        (congrArg _ stops) kind interval abort channel
    cases step with
    | idle =>
      refine .inl ⟨rfl, fun x there => ?_⟩
      obtain rfl := Option.some.inj there
      exact did
    | begun =>
      exact .inr ⟨m, { m with task }, _, looks, by decide, rfl, put _ _ rfl rfl rfl rfl, cache, rfl,
        rfl, rfl⟩
    | overflowed =>
      exact .inr ⟨m, { m with task }, _, looks, by decide, rfl, put _ _ rfl rfl rfl rfl, cache, rfl,
        rfl, rfl⟩
    | stopped =>
      exact .inr ⟨m, { m with task }, _, looks, by decide, rfl, put _ _ rfl rfl rfl rfl, cache, rfl,
        rfl, rfl⟩
    | cancelled =>
      exact .inr ⟨m, { m with task }, _, looks, by decide, rfl, put _ _ rfl rfl rfl rfl, cache, rfl,
        rfl, rfl⟩
    | ticked =>
      refine .inr ⟨m, ⟨task, m.cycleAfter .ticked⟩, _, looks, by decide, rfl, ?_⟩
      unfold applyLook tickWork at cache ⊢
      rw [kind] at cache ⊢
      cases worker : m.task.kind with
      | refreshWorker =>
        simp only [worker, Member.cycleAfter] at cache ⊢
        exact ⟨put _ _ rfl rfl rfl rfl, cache, rfl, rfl, rfl⟩
      | flusher =>
        simp only [worker, Member.cycleAfter] at cache ⊢
        have replaces := put s ⟨task, none⟩ rfl rfl rfl rfl
        exact ⟨{ replaces with }, cache, rfl, rfl, rfl⟩

/-- The end of a cycle leaves a task without one. If it is not gone nor to be aborted, it waits
again. -/
theorem endCycle_passes {s : Session} {index : Nat} {m : Member}
    (found : s.background.members[index]? = some m) (result : Except String Summary) :
    ∃ task, s.Passes (s.endCycle index result) index m ⟨task, none⟩ [] ∧
      (task = m.task ∧ (m.task.hasEnded || m.task.abortRequested) = true ∨
        task = m.task.cycleEnded ∧ (m.task.hasEnded || m.task.abortRequested) = false) := by
  unfold endCycle
  simp only [found]
  cases left : m.task.hasEnded || m.task.abortRequested with
  | true =>
    rw [if_pos rfl]
    exact ⟨m.task, ⟨.of_put found rfl rfl rfl rfl rfl rfl rfl rfl, ⟨_, rfl⟩, rfl, rfl, rfl⟩,
      .inl ⟨rfl, rfl⟩⟩
  | false =>
    rw [if_neg Bool.false_ne_true]
    obtain ⟨kind, interval, abort, channel⟩ : m.task.cycleEnded.kind = m.task.kind ∧
        m.task.cycleEnded.interval = m.task.interval ∧
        m.task.cycleEnded.abortRequested = m.task.abortRequested ∧
        m.task.cycleEnded.signal.channel = m.task.signal.channel := by
      unfold Task.cycleEnded
      split <;> exact ⟨rfl, rfl, rfl, rfl⟩
    refine ⟨m.task.cycleEnded, ?_, .inr ⟨rfl, rfl⟩⟩
    cases result with
    | ok summary =>
      exact ⟨.of_put found rfl rfl rfl rfl kind interval abort channel, ⟨_, rfl⟩, rfl, rfl, rfl⟩
    | error message =>
      exact ⟨.of_put found rfl rfl rfl rfl kind interval abort channel, ⟨_, rfl⟩, rfl, rfl, rfl⟩

theorem callback?_lookOps {s : Session} {index : Nat} {op : CacheOp Int}
    (among : op ∈ s.lookOps index) : op.callback? = none := by
  rw [lookOps] at among
  split at among
  · split at among
    · rw [List.mem_singleton.1 among]
      rfl
    · cases among
  · cases among

theorem Orderly.of_passes {s t : Session} (h : s.Orderly) {index : Nat} {m m' : Member}
    {ops : List (CacheOp Int)} (passes : s.Passes t index m m' ops)
    (plain : ∀ op ∈ ops, op.callback? = none) (whole : m'.Whole) : t.Orderly where
  light := by
    rw [KeepsLight, passes.sources]
    exact h.light
  stored := by
    intro pair member callback stored
    obtain ⟨taken, cache⟩ := passes.cache
    rw [cache] at member
    rw [passes.sources]
    rcases Cache.mem_applyAll member with old | ⟨op, among, new⟩
    · exact h.stored pair old callback stored
    · rw [plain op among, stored] at new
      cases new
  held := by
    rw [passes.held, passes.sources]
    exact h.held
  whole := h.whole.set_member whole passes.threads passes.members

/-- The thread of a background refresh has nothing that tasks could run on. -/
theorem Orderly.away {s : Session} (h : s.Orderly) :
    ({ s with hasRuntime := false } : Session).Orderly :=
  ⟨h.light, h.stored, h.held, h.whole⟩

/-- A background refresh that goes on comes to its end at once. -/
theorem Orderly.doPiece_thread {s : Session} (h : s.Orderly) {P : Session → Prop}
    {fits : String × Callback → Prop} (enduring : Work.Enduring P fits)
    (holds : P { s with hasRuntime := false }) (index : Nat) :
    (s.doPiece (.thread index) = s ∧
        ∀ rest, s.background.threads[index]? ≠ some (.ready rest)) ∨
      ∃ t told, s.background.threads[index]? = some (.ready Work.wholeRefresh) ∧ P t ∧
        ({ s with hasRuntime := false } : Session).finish Work.wholeRefresh = (t, .ok told) ∧
        s.doPiece (.thread index) = t.putThread s.hasRuntime index (.finished (.ok told)) := by
  simp only [doPiece]
  split
  · next rest found =>
    obtain rfl : rest = Work.wholeRefresh := by
      rcases h.whole.threads _ (List.mem_of_getElem? found) with ready | ⟨result, ended⟩
      · exact Progress.ready.inj ready
      · cases ended
    obtain ⟨kept, ⟨told, result⟩, straight⟩ := Work.keeps_wholeRefresh enduring _ holds
    refine .inr ⟨_, told, found, kept, Prod.ext rfl result, ?_⟩
    rw [resumeThread_eq, straight, result]
  · next idle => exact .inl ⟨rfl, idle⟩

/-- A cycle that goes on comes to its end at once. -/
theorem Orderly.doPiece_cycle {s : Session} (h : s.Orderly) {P : Session → Prop}
    {fits : String × Callback → Prop} (enduring : Work.Enduring P fits) (holds : P s)
    (index : Nat) :
    (s.doPiece (.cycle index) = s ∧ ∀ rest, s.cycle? index ≠ some (.ready rest)) ∨
      ∃ t told, s.cycle? index = some (.ready Work.wholeRefresh) ∧ P t ∧
        s.finish Work.wholeRefresh = (t, .ok told) ∧
        s.doPiece (.cycle index) = t.endCycle index (.ok told) := by
  simp only [doPiece]
  split
  · next rest found =>
    obtain ⟨m, member, cycle⟩ := Option.bind_eq_some_iff.1 found
    obtain rfl : rest = Work.wholeRefresh := by
      rcases h.whole.members m (List.mem_of_getElem? member) with idle | ready
      · cases cycle.symm.trans idle
      · exact Progress.ready.inj (Option.some.inj (cycle.symm.trans ready))
    obtain ⟨kept, ⟨told, result⟩, straight⟩ := Work.keeps_wholeRefresh enduring _ holds
    refine .inr ⟨_, told, found, kept, Prod.ext rfl result, ?_⟩
    rw [resumeCycle_eq, straight, result]
    rfl
  · next idle => exact .inl ⟨rfl, idle⟩

/-- What light callbacks ask for leaves a session orderly. -/
theorem enduring_orderly : Work.Enduring (fun s => s.Orderly ∧ True) fun _ => True :=
  Orderly.enduring (fun _ _ _ => trivial) (fun _ _ _ _ => trivial) fun _ _ _ _ => trivial

theorem Orderly.finish {s : Session} (h : s.Orderly) {command : Command}
    (light : command.isLight true = true) : (s.finish command.work).1.Orderly := by
  have acts : ∀ action ∈ command.actions, ∀ s : Session, action.isLight true = true →
      s.Orderly ∧ True → (s.answer (.act action)).1.Orderly ∧ True :=
    fun action _ s light holds => ⟨holds.1.answer (q := .act action) light nofun, trivial⟩
  exact (Work.keeps_work enduring_orderly light acts s ⟨h, trivial⟩).1.1

theorem Orderly.doPiece {s : Session} (h : s.Orderly) (piece : Piece) :
    (s.doPiece piece).Orderly := by
  cases piece with
  | look index =>
    rcases s.look_passes index with ⟨eq, _⟩ | ⟨m, m', step, _, _, cycle, passes⟩
    · rw [eq]
      exact h
    · have whole := h.whole.members m (List.mem_of_getElem? passes.found)
      exact h.of_passes passes (fun _ => callback?_lookOps) (whole.look cycle)
  | thread index =>
    rcases h.doPiece_thread enduring_orderly ⟨h.away, trivial⟩ index with
      ⟨eq, _⟩ | ⟨t, told, _, ⟨kept, _⟩, _, eq⟩
    · rw [eq]
      exact h
    · rw [eq]
      refine ⟨kept.light, kept.stored, kept.held, fun p member => ?_, kept.whole.members⟩
      rcases List.mem_or_eq_of_mem_set member with old | rfl
      · exact kept.whole.threads p old
      · exact .inr ⟨_, rfl⟩
  | cycle index =>
    rcases h.doPiece_cycle enduring_orderly ⟨h, trivial⟩ index with
      ⟨eq, _⟩ | ⟨t, told, _, ⟨kept, _⟩, _, eq⟩
    · rw [eq]
      exact h
    · rw [eq]
      cases found : t.background.members[index]? with
      | none =>
        simp only [endCycle, found]
        exact kept
      | some m =>
        obtain ⟨task, passes, _⟩ := endCycle_passes found (.ok told)
        exact kept.of_passes passes (fun _ member => by cases member) (.inl rfl)

end Session

/-- What happens is light if it is no command or a light one. -/
def Happening.isLight : Happening → Bool
  | .command c => c.isLight true
  | _ => true

namespace Session

theorem Orderly.happen {s : Session} (h : s.Orderly) {happening : Happening}
    (light : happening.isLight = true) : (s.happen happening).1.Orderly := by
  cases happening with
  | command command => exact h.finish light
  | piece piece => exact h.doPiece piece
  | time nanos => exact ⟨h.light, h.stored, h.held, h.whole⟩
  | reading => exact ⟨h.light, h.stored, h.held, h.whole⟩

theorem Orderly.follow {s : Session} (h : s.Orderly) {hs : List Happening}
    (light : ∀ happening ∈ hs, happening.isLight = true) : (s.follow hs).1.Orderly := by
  induction hs generalizing s with
  | nil => exact h
  | cons happening rest ih =>
    rw [List.forall_mem_cons] at light
    exact ih (h.happen light.1) light.2

end Session

end WarmCache
