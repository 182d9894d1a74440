import WarmCache.Proofs.Underway

/-!
# What the statistics tell

Each number of a snapshot is read off the history of the cache: lookups, sets that were refused and
flushed entries are effects of single operations; replacements and failures are those of the
refreshes that came to a summary, of those that panicked, and of those that are under way.

Results:
1. `Conserves.tallies`: the snapshot, whatever the history.
2. `effects_shown`: callers can tell the effects of what they do from the answers.
3. `stats_conserve_history`: both, after every run.
-/

namespace WarmCache

namespace Finished

/-- The summaries that refreshes came to. -/
def completed (book : List Finished) : List Summary :=
  book.filterMap fun line => line.result.toOption

/-- What refreshes had settled when they panicked. -/
def cutShort (book : List Finished) : List Summary :=
  book.filterMap fun line =>
    match line.result with
    | .ok _ => none
    | .error _ => some line.settled

theorem total_eq (book : List Finished) :
    total book = .sum (completed book) + .sum (cutShort book) := by
  induction book with
  | nil => rfl
  | cons line rest ih =>
    have first : total (line :: rest) = line.settled + total rest := rfl
    obtain ⟨result, settled, agrees⟩ := line
    cases result with
    | ok summary =>
      obtain rfl := agrees summary rfl
      rw [first, ih, ← Summary.add_assoc]
      rfl
    | error message =>
      rw [first, ih, ← Summary.add_assoc, Summary.add_comm settled, Summary.add_assoc]
      rfl

end Finished

namespace Session

/-- What the snapshot of the statistics tells of a history. -/
structure Tallies (effects : List Effect) (book : List Finished) (jobs : List Job)
    (t : Session) : Prop where
  /-- Lookups that found their key. -/
  hits : t.cache.stats.hits = .ofNat (effects.count .hit)
  /-- Lookups that did not. -/
  misses : t.cache.stats.misses = .ofNat (effects.count .miss)
  /-- Entries that refreshes have replaced: those that came to a summary, those that panicked, and
  those under way. -/
  refreshes : t.cache.stats.refreshes = .ofNat ((Summary.sum (Finished.completed book)).refreshed +
    (Summary.sum (Finished.cutShort book)).refreshed + (Job.total jobs).refreshed)
  /-- Callbacks that failed in them. -/
  refreshFailures : t.cache.stats.refreshFailures =
    .ofNat ((Summary.sum (Finished.completed book)).failed +
      (Summary.sum (Finished.cutShort book)).failed + (Job.total jobs).failed)
  /-- What flushes told that they took out. -/
  flushed : t.cache.stats.flushed = .ofNat (Effect.flushedIn effects)
  /-- Sets that were refused. -/
  rejected : t.cache.stats.rejected = .ofNat (effects.count .rejected)
  /-- The entries that there are. -/
  entries : t.cache.stats.totalEntries = t.cache.size
  /-- They are those that were stored under new keys, less the deleted and flushed ones. -/
  balance : (t.cache.stats.totalEntries : Int) =
    effects.count .inserted - effects.count .deleted - Effect.flushedIn effects

theorem Conserves.tallies {effects : List Effect} {book : List Finished} {jobs : List Job}
    {t : Session} (h : Conserves effects book jobs t) : Tallies effects book jobs t := by
  have settled : settledIn effects = .sum (Finished.completed book) +
      .sum (Finished.cutShort book) + Job.total jobs := by
    rw [h.settled, Finished.total_eq]
  have size := h.size
  constructor
  · exact congrArg Counters.hits h.counters
  · exact congrArg Counters.misses h.counters
  · refine (congrArg Counters.refreshes h.counters).trans ?_
    exact congrArg (fun s => UInt64.ofNat (Summary.refreshed s)) settled
  · refine (congrArg Counters.refreshFailures h.counters).trans ?_
    exact congrArg (fun s => UInt64.ofNat (Summary.failed s)) settled
  · exact congrArg Counters.flushed h.counters
  · exact congrArg Counters.rejected h.counters
  · rfl
  · show (t.cache.size : Int) = _
    omega

/-! ## Answers show effects -/

/-- What callers can tell from the answers of a session. -/
structure Shows (s : Session) : Prop where
  /-- A lookup of an entry or of an item shows whether it found its key. -/
  get : ∀ key, let q := Request.act (.store (.get key))
    (s.cache.effects (s.opsOf q) = [.hit] ∧ ∃ e, (s.answer q).2 = .entry e) ∨
      (s.cache.effects (s.opsOf q) = [.miss] ∧ (s.answer q).2 = .nothing)
  getItem : ∀ key, let q := Request.act (.store (.getItem key))
    (s.cache.effects (s.opsOf q) = [.hit] ∧ ∃ item, (s.answer q).2 = .number item) ∨
      (s.cache.effects (s.opsOf q) = [.miss] ∧ (s.answer q).2 = .nothing)
  /-- A set shows whether it was refused. If it was not, the size shows whether the key was new. -/
  set : ∀ key item settings, let q := Request.act (.set key item settings)
    (s.cache.effects (s.opsOf q) = [.inserted] ∧ (s.answer q).2 = .done ∧
        s.cache.entries.contains key = false) ∨
      (s.cache.effects (s.opsOf q) = [.overwritten] ∧ (s.answer q).2 = .done ∧
        s.cache.entries.contains key = true) ∨
      (s.cache.effects (s.opsOf q) = [.rejected] ∧
        ∃ limit, (s.answer q).2 = .refused (.capacityExceeded limit))
  delete : ∀ key, let q := Request.act (.store (.delete key))
    (s.cache.effects (s.opsOf q) = [.deleted] ∧ s.cache.entries.contains key = true) ∨
      (s.cache.effects (s.opsOf q) = [.absent] ∧ s.cache.entries.contains key = false)
  /-- A flush tells how many entries it took out. -/
  flush : let q := Request.act (.store .flush)
    ∃ n : Nat, s.cache.effects (s.opsOf q) = [.flushed n] ∧ (s.answer q).2 = .number n

theorem effects_shown (s : Session) : Shows s where
  get key := by
    intro q
    have effect : s.cache.effects (s.opsOf q) =
        [if (s.cache.get key).2.isSome then .hit else .miss] := rfl
    have answer : (s.answer q).2 =
        answerFound (s.get key).2 fun e => .entry ((s.get key).1.shownEntry e) := rfl
    rw [effect, answer, Session.get]
    rcases s.cache.get_cases key with ⟨e, _, eq⟩ | ⟨_, eq⟩
    · rw [eq]
      exact .inl ⟨rfl, _, rfl⟩
    · rw [eq]
      exact .inr ⟨rfl, rfl⟩
  getItem key := by
    intro q
    have effect : s.cache.effects (s.opsOf q) =
        [if (s.cache.get key).2.isSome then .hit else .miss] := rfl
    have answer : (s.answer q).2 =
        answerFound ((s.cache.get key).2.map Entry.item) .number := rfl
    rw [effect, answer]
    rcases s.cache.get_cases key with ⟨e, _, eq⟩ | ⟨_, eq⟩
    · rw [eq]
      exact .inl ⟨rfl, _, rfl⟩
    · rw [eq]
      exact .inr ⟨rfl, rfl⟩
  set key item settings := by
    intro q
    have effect : s.cache.effects (s.opsOf q) =
        [s.cache.effect (.set s.now key (s.build item settings).2)] := rfl
    have answer : (s.answer q).2 = .ofResult .done
        (Session.set (s.build item settings).1 key (s.build item settings).2).2 := rfl
    obtain ⟨sources, built⟩ := s.build_frame item settings
    have same : (Session.set (s.build item settings).1 key (s.build item settings).2).2 =
        (s.cache.set s.now key (s.build item settings).2).2 := by
      rw [built]
      rfl
    rw [effect, answer, same]
    simp only [Cache.effect]
    rcases s.cache.set_cases key with present | ⟨absent, room⟩ | ⟨absent, limit, hl, full⟩
    · rw [Cache.set_of_contains present, if_pos present]
      exact .inr (.inl ⟨rfl, rfl, present⟩)
    · rw [Cache.set_of_hasRoom absent room, absent]
      exact .inl ⟨rfl, rfl, rfl⟩
    · rw [Cache.set_of_full absent hl full]
      exact .inr (.inr ⟨rfl, limit, rfl⟩)
  delete key := by
    intro q
    have effect : s.cache.effects (s.opsOf q) =
        [if s.cache.entries.contains key then .deleted else .absent] := rfl
    rw [effect]
    cases s.cache.entries.contains key with
    | true => exact .inl ⟨rfl, rfl⟩
    | false => exact .inr ⟨rfl, rfl⟩
  flush := ⟨_, rfl, rfl⟩

/-! ## The whole -/

/-- A history from the session of a new cache to `t`, and what the statistics tell of it. Its jobs
are the refreshes under way. -/
def IsTallied (ttl : Span) (limit : Option Nat) (time : TimeSource) (hasRuntime : Bool)
    (t : Session) : Prop :=
  ∃ effects book jobs, History (ofCache ttl limit time hasRuntime) effects book jobs t ∧
    Job.Cover jobs t.underWay ∧ (t.underWay = [] → jobs = []) ∧ Tallies effects book jobs t

/-- The statistics conserve history. Whatever the commands of callers and of callbacks, nested
refreshes, background refreshes, cycles of workers and flush tasks do, one request after the other
and in any order, each counter is the number of what it counts, as a 64-bit word, and the entries
are those that were stored under new keys, less the deleted and the flushed ones. After every run
the jobs of the history are the refreshes under way; if there are none, all that was replaced was
replaced by refreshes that came to a summary or panicked. -/
theorem stats_conserve_history (ttl : Span) (limit : Option Nat) (time : TimeSource)
    (hasRuntime : Bool) :
    (∀ effects book jobs t, History (ofCache ttl limit time hasRuntime) effects book jobs t →
      Tallies effects book jobs t) ∧
    (∀ hs, IsTallied ttl limit time hasRuntime
      ((ofCache ttl limit time hasRuntime).follow hs).1) ∧
    (∀ moves, IsTallied ttl limit time hasRuntime
      ((ofCache ttl limit time hasRuntime).run moves).1) ∧
    ∀ s, Shows s := by
  have tallies : ∀ effects book jobs t,
      History (ofCache ttl limit time hasRuntime) effects book jobs t →
      Tallies effects book jobs t := by
    intro effects book jobs t told
    exact (told.conserves (conserves_ofCache ttl limit time hasRuntime)).tallies
  have follows : ∀ hs, IsTallied ttl limit time hasRuntime
      ((ofCache ttl limit time hasRuntime).follow hs).1 := by
    intro hs
    obtain ⟨effects, book, jobs, told, cover⟩ := history_follow ttl limit time hasRuntime hs
    refine ⟨effects, book, jobs, told, cover, fun none => ?_, tallies _ _ _ _ told⟩
    rw [none] at cover
    exact cover.eq_nil
  refine ⟨tallies, follows, fun moves => ?_, effects_shown⟩
  obtain ⟨hs, eq⟩ := (ofCache ttl limit time hasRuntime).run_follows moves
  rw [eq]
  exact follows hs

/-- The first callback sets a key, looks up two, and begins a refresh of its own, in which it fails
and the second callback panics; the second callback ends the outer refresh in the same way. A set
is refused, a key is deleted, and at last all that is left has expired. -/
theorem stats_conserve_history_nested :
    let steps : List WarmCache.Step := [.mk none [] (.failed "down")]
    let nested : WarmCache.Step := .mk none [.act (.set "c" 3 []), .act (.store (.getItem "c")),
      .act (.store (.getItem "d")), .refresh] (.item 5)
    let panics : WarmCache.Step := .mk none [] (.panicked "gone")
    let s := ofCache (.ofSecs 60) (some 3) (.manual ⟨1000, 0⟩) true
    let hs : List Happening :=
      [.command (.act (.set "a" 1 [.refresh (.mk "first" nested steps false [])])),
        .command (.act (.set "b" 2 [.refresh (.mk "second" panics [] false [])])),
        .command .refresh, .command (.act (.set "d" 4 [])),
        .command (.act (.store (.delete "b"))),
        .command (.act (.policy (.advance (.ofSecs 61)))), .command (.act (.store .flush))]
    let t := (s.follow hs).1
    t.cache.stats = ⟨⟨1, 1, 1, 1, 2, 1⟩, 0⟩ ∧
      ∃ effects book, History s effects book [] t ∧ Tallies effects book [] t := by
  intro steps nested panics s hs t
  have stats : t.cache.stats = ⟨⟨1, 1, 1, 1, 2, 1⟩, 0⟩ := by decide +kernel
  have idle : t.underWay.length = 0 := by decide +kernel
  obtain ⟨tallies, follows, _⟩ :=
    stats_conserve_history (.ofSecs 60) (some 3) (.manual ⟨1000, 0⟩) true
  obtain ⟨effects, book, jobs, told, _, none, _⟩ := follows hs
  obtain rfl := none (List.length_eq_zero_iff.1 idle)
  exact ⟨stats, effects, book, told, tallies effects book [] t told⟩

end Session

end WarmCache
