import WarmCache.Proofs.Lifetimes
import WarmCache.Proofs.Orderly

/-!
# Entries that stay warm

An entry is warm until some time of the session if it will not have expired then and its callback
always succeeds. No flush before that time removes it, and a refresh makes it last for another
lifetime.

Results:
1. `Clock.running_not_past`: what is written at one time has not expired a lifetime later, even if
   both readings are cut at the last instant there is.
2. `Warm.finish`, `Warm.doPiece`: an entry stays as warm as it is through light commands that spare
   its key and all work in the background.
3. `Warm.doPiece_cycle`, `Runs.warm_set`: a cycle makes it last for a lifetime, as does the set.
-/

namespace WarmCache

/-! ## Readings of a running clock -/

namespace Clock

variable {start : Timestamp}

theorem running_nanos_lt (ordinary : start.nanos < Span.nanosPerSec) (elapsed : Nat) :
    ((running start).now elapsed).nanos < Span.nanosPerSec :=
  Instant.add_nanos_lt ordinary

theorem toNanos_running (ordinary : start.nanos < Span.nanosPerSec) (elapsed : Nat) :
    ((running start).now elapsed).toNanos =
      min (start.toNanos + elapsed) Instant.latest.toNanos := by
  have exact' := Instant.toNanos_capped_add (d := Span.ofNanos elapsed) ordinary
  rw [Span.toNanos_ofNanos] at exact'
  exact exact'

/-- What has not expired at one time had not expired before. -/
theorem not_past_mono (ordinary : start.nanos < Span.nanosPerSec) {expires : Instant}
    {earlier later : Nat} (le : earlier ≤ later) (kept : ¬ expires < (running start).now later) :
    ¬ expires < (running start).now earlier := by
  intro past
  have one := toNanos_running ordinary earlier
  have other := toNanos_running ordinary later
  rcases Instant.lt_or_eq_or_gt ((running start).now earlier) ((running start).now later) with
    lt | eq | gt
  · exact kept (Instant.lt_trans past lt)
  · exact kept (eq ▸ past)
  · rw [Instant.lt_iff_toNanos (running_nanos_lt ordinary _) (running_nanos_lt ordinary _)] at gt
    omega

/-- What is written at one time has not expired by another, if that is no more than a lifetime
later. -/
theorem running_not_past (ordinary : start.nanos < Span.nanosPerSec) {ttl : Span}
    {written later : Nat}
    (within : later ≤ written + ttl.toNanos) :
    ¬ (((running start).now written).addUnbounded ttl).capped < (running start).now later := by
  have now := running_nanos_lt ordinary written
  have expires := Instant.add_nanos_lt (d := ttl) now
  change (((running start).now written).addUnbounded ttl).capped.nanos < _ at expires
  rw [Instant.lt_iff_toNanos expires (running_nanos_lt ordinary later),
    Instant.toNanos_capped_add now, toNanos_running ordinary, toNanos_running ordinary]
  omega

/-- From the first time on that cannot be counted, a running clock shows the last instant. -/
theorem running_eq_latest (start : Timestamp) {elapsed : Nat}
    (uncounted : Ticker.horizon ≤ elapsed) : (running start).now elapsed = Instant.latest := by
  have first := start.valid.earliest_le
  have sum := start.toInstant.le_addUnbounded_secs (Span.ofNanos elapsed)
  have past : Instant.latest.secs < (start.addUnbounded (Span.ofNanos elapsed)).secs := by
    simp only [Span.ofNanos, Span.nanosPerSec, Instant.earliest, Instant.latest,
      Ticker.horizon] at *
    omega
  exact if_pos past

end Clock

/-! ## What spares an entry -/

/-- An operation leaves the entry under the key alone: it names another key, or it is a lookup, a
flush before the entry has expired, or the settlement of a failure. -/
def CacheOp.Spares {α : Type} (key : String) (expires : Instant) : CacheOp α → Prop
  | .get _ => True
  | .flush now => ¬ expires < now
  | .set _ other _ => other ≠ key
  | .delete other => other ≠ key
  | .settle _ _ _ (.error _) => True
  | .settle _ other _ (.ok _) => other ≠ key

theorem Cache.find?_apply_spared {α : Type} {c : Cache α} (count : c.Accounted) {key : String}
    {e : Entry α} (found : c.entries.find? key = some e) {op : CacheOp α}
    (spared : op.Spares key e.expires) : (c.apply op).entries.find? key = some e := by
  cases op with
  | get other =>
    rw [apply, get_entries]
    exact found
  | flush now =>
    exact (find?_flush count.nodup_keys found now).trans (if_neg spared)
  | set now other value => exact (find?_apply_other count.nodup_keys rfl spared).trans found
  | delete other => exact (find?_apply_other count.nodup_keys rfl spared).trans found
  | settle now other callback result =>
    cases result with
    | error message => exact found
    | ok item => exact (find?_apply_other count.nodup_keys rfl spared).trans found

theorem Cache.find?_applyAll_spared {α : Type} {c : Cache α} (count : c.Accounted) {key : String}
    {e : Entry α} (found : c.entries.find? key = some e) {ops : List (CacheOp α)}
    (spared : ∀ op ∈ ops, op.Spares key e.expires) :
    (c.applyAll ops).entries.find? key = some e := by
  induction ops generalizing c with
  | nil => exact found
  | cons op rest ih =>
    rw [List.forall_mem_cons] at spared
    exact ih (count.apply op) (find?_apply_spared count found spared.1) spared.2

/-- A set writes its value if there is an entry under the key or room for one. -/
theorem Cache.find?_set_self {α : Type} {c : Cache α} {key : String}
    (fits : c.entries.contains key = true ∨ c.HasRoom) (now : Instant) (value : Value α) :
    (c.set now key value).1.entries.find? key =
      some (Entry.stamp (c.expiryFrom now) value) := by
  cases present : c.entries.contains key with
  | true =>
    rw [set_of_contains present]
    exact Keyed.find?_put_self _ _ _
  | false =>
    have room := fits.resolve_left (Bool.eq_false_iff.1 present)
    rw [set_of_hasRoom present room]
    exact Keyed.find?_put_self _ _ _

/-- The keys under which an action writes or removes an entry. -/
def Action.writes : Action → List String
  | .set key _ _ => [key]
  | .store (.delete key) => [key]
  | .store (.setMany stem first count) => (Session.numberedKeys stem first count).map Prod.fst
  | .store (.deleteMany stem first count) => (Session.numberedKeys stem first count).map Prod.fst
  | _ => []

/-- A command itself writes and removes nothing under the key. -/
def Command.spares (key : String) (command : Command) : Bool :=
  command.actions.all fun action => !action.writes.contains key

/-- What happens is no command that writes or removes something under the key. -/
def Happening.spares (key : String) : Happening → Bool
  | .command c => c.spares key
  | _ => true

namespace Session

theorem spares_opsOf {s : Session} {action : Action} {key : String}
    (spared : key ∉ action.writes) {expires : Instant} (kept : ¬ expires < s.now) :
    ∀ op ∈ s.opsOf (.act action), op.Spares key expires := by
  intro op among
  have numbered : ∀ {stem : String} {first : Int} {count : Nat} {pair : String × Int},
      key ∉ (numberedKeys stem first count).map Prod.fst →
      pair ∈ numberedKeys stem first count → pair.1 ≠ key := by
    rintro stem first count pair absent member rfl
    exact absent (List.mem_map_of_mem member)
  cases action with
  | set other item settings =>
    obtain rfl := List.mem_singleton.1 among
    exact fun same => spared (List.mem_singleton.2 same.symm)
  | store action =>
    cases action with
    | delete other =>
      obtain rfl := List.mem_singleton.1 among
      exact fun same => spared (List.mem_singleton.2 same.symm)
    | flush =>
      obtain rfl := List.mem_singleton.1 among
      exact kept
    | setMany stem first count =>
      obtain ⟨pair, member, rfl⟩ := List.mem_map.1 among
      exact numbered spared member
    | deleteMany stem first count =>
      obtain ⟨pair, member, rfl⟩ := List.mem_map.1 among
      exact numbered spared member
    | getMany stem first count =>
      obtain ⟨pair, member, rfl⟩ := List.mem_map.1 among
      trivial
    | get | getItem | showEntry | showExpiry | hold =>
      obtain rfl := List.mem_singleton.1 among
      trivial
    | _ => cases among
  | _ => cases among

/-- A light callback does nothing to the entries. -/
theorem opsOf_light {s : Session} {q : Request} (light : q.isLight false = true) :
    s.opsOf q = [] := by
  cases q with
  | act action =>
    cases action with
    | set => cases light
    | store => cases light
    | _ => rfl
  | settle => cases light
  | _ => rfl

theorem entries_endCycle (s : Session) (index : Nat) (result : Except String Summary) :
    (s.endCycle index result).cache.entries = s.cache.entries := by
  rcases s.endCycle_cases index result with eq | ⟨_, _, _, _, _, _, eq⟩
  · rw [eq]
  · rw [eq]
    rfl

/-! ## Warmth -/

/-- A call of the callback comes to an item, now and whenever it is made later. -/
def AlwaysSucceeds (s : Session) (callback : Callback) : Prop :=
  ∀ t, Proceeds s t → ∃ item, (t.finish (Work.call Work.maxDepth callback)).2 = .ok item

/-- The accounts of the cache are right, entries live for `ttl`, and the clock runs from `start`,
which is in no leap second. -/
structure Runs (ttl : Span) (start : Timestamp) (s : Session) : Prop where
  accounted : s.cache.Accounted
  policy : s.cache.policy = .ofTtl ttl
  clock : s.clock = .running start
  ordinary : start.nanos < Span.nanosPerSec

/-- The entry under the key has this callback, which always succeeds, and will not have expired at
time `bound` of the session. -/
structure Warm (ttl : Span) (start : Timestamp) (key : String) (callback : Callback) (bound : Nat)
    (s : Session) : Prop extends Runs ttl start s where
  succeeds : s.AlwaysSucceeds callback
  entry : ∃ e, s.cache.entries.find? key = some e ∧ e.refresh = some callback ∧
    ¬ e.expires < (Clock.running start).now bound

theorem runs_ofCache (ttl : Span) {start : Timestamp}
    (ordinary : start.nanos < Span.nanosPerSec) (limit : Option Nat) (hasRuntime : Bool) :
    (ofCache ttl limit (.running start) hasRuntime).Runs ttl start :=
  ⟨.new _ _, rfl, rfl, ordinary⟩

section Warm

variable {ttl : Span} {start : Timestamp} {key : String} {callback : Callback} {bound : Nat}
  {s t : Session}

theorem Runs.step (h : s.Runs ttl start) (step : Step s t) : t.Runs ttl start := by
  obtain ⟨ops, taken, eq⟩ := step.cache
  refine ⟨?_, ?_, ?_, h.ordinary⟩
  · rw [eq]
    exact (h.accounted.applyAll ops).claim taken
  · obtain ⟨_, _, _, frame⟩ := s.cache.applyAll_frame ops
    rw [eq, frame]
    exact h.policy
  · rcases step.clock with same | ticked | ⟨before, _, manual, _⟩
    · exact same.trans h.clock
    · rw [ticked, h.clock]
      rfl
    · cases h.clock.symm.trans manual

theorem Runs.now_eq (h : s.Runs ttl start) : s.now = (Clock.running start).now s.elapsed := by
  rw [Session.now, h.clock]

theorem Runs.expiryFrom_now (h : s.Runs ttl start) : s.cache.expiryFrom s.now =
    (((Clock.running start).now s.elapsed).addUnbounded ttl).capped := by
  have now := (Clock.running start).now_valid s.elapsed
  rw [h.now_eq, Cache.expiryFrom_eq_capped h.policy now.earliest_le]

theorem Runs.proceeds (h : s.Runs ttl start) (proceeds : Proceeds s t) : t.Runs ttl start := by
  induction proceeds with
  | refl => exact h
  | tail _ step ih => exact ih.step step.1

namespace Warm

/-- The entry stays warm through a step that spares it. -/
theorem step (h : s.Warm ttl start key callback bound) (step : Step s t)
    (later : s.elapsed ≤ t.elapsed) {ops : List (CacheOp Int)} {taken : Bool}
    (cache : t.cache = (s.cache.applyAll ops).claim taken)
    (spared : ∀ expires, ¬ expires < (Clock.running start).now bound →
      ∀ op ∈ ops, op.Spares key expires) : t.Warm ttl start key callback bound := by
  obtain ⟨e, found, stored, lasts⟩ := h.entry
  refine ⟨h.toRuns.step step, fun u further => h.succeeds u (.head ⟨step, later⟩ further),
    e, ?_, stored, lasts⟩
  rw [cache]
  exact Cache.find?_applyAll_spared h.accounted found (spared _ lasts)

theorem mono (h : s.Warm ttl start key callback bound) {sooner : Nat} (le : sooner ≤ bound) :
    s.Warm ttl start key callback sooner := by
  obtain ⟨e, found, stored, lasts⟩ := h.entry
  exact ⟨h.toRuns, h.succeeds, e, found, stored, Clock.not_past_mono h.ordinary le lasts⟩

theorem aside (h : s.Warm ttl start key callback bound) {q : Request}
    (light : q.isLight false = true) : (s.answer q).1.Warm ttl start key callback bound := by
  obtain ⟨taken, cache⟩ := (s.answered q).cache
  refine h.step (.request q) (Nat.le_of_eq (s.answered q).clock.1.symm) cache fun _ _ => ?_
  rw [opsOf_light light]
  exact nofun

/-- The result of a call is settled under the key. If it is an item, the entry lasts for another
lifetime. -/
theorem settle (h : s.Warm ttl start key callback bound) (item : Int) {later : Nat}
    (within : later ≤ s.elapsed + ttl.toNanos) :
    (s.answer (.settle key callback (.ok item))).1.Warm ttl start key callback later := by
  have step : Step s (s.answer (.settle key callback (.ok item))).1 := .request _
  obtain ⟨e, found, stored, _⟩ := h.entry
  obtain ⟨taken, cache⟩ := (s.answered (.settle key callback (.ok item))).cache
  have present : s.cache.entries.contains key = true := by
    rw [Keyed.contains, found]
    rfl
  have settled : (s.cache.apply (.settle s.now key callback (.ok item))).entries.find? key =
      some ⟨item, s.cache.expiryFrom s.now, some callback⟩ := by
    rw [Cache.apply, Cache.settle_ok_of_contains present]
    exact Keyed.find?_put_self _ _ _
  refine ⟨h.toRuns.step step, fun u further => h.succeeds u (.head ⟨step, ?_⟩ further),
    ⟨item, s.cache.expiryFrom s.now, some callback⟩, ?_, rfl, ?_⟩
  · exact Nat.le_of_eq (s.answered _).clock.1.symm
  · rw [cache]
    exact settled
  · rw [h.expiryFrom_now]
    exact Clock.running_not_past h.ordinary within

/-- Any result of any call under the key leaves it warm, for no more than another lifetime. -/
theorem settles (h : s.Warm ttl start key callback bound) (within : bound ≤ s.elapsed + ttl.toNanos)
    {pair : String × Callback} (fits : pair.1 = key → pair.2 = callback)
    (result : Except String Int) :
    (s.answer (.settle pair.1 pair.2 result)).1.Warm ttl start key callback bound := by
  obtain ⟨other, called⟩ := pair
  by_cases writes : other = key ∧ ∃ item, result = .ok item
  · obtain ⟨rfl, item, rfl⟩ := writes
    obtain rfl : called = callback := fits rfl
    exact h.settle item within
  · obtain ⟨taken, cache⟩ := (s.answered (.settle other called result)).cache
    refine h.step (.request _) (Nat.le_of_eq (s.answered _).clock.1.symm) cache
      fun _ _ op among => ?_
    obtain rfl := List.mem_singleton.1 among
    cases result with
    | error message => trivial
    | ok item => exact fun same => writes ⟨same, item, rfl⟩

/-- Whatever light callbacks ask for, and whatever comes of calls, an entry stays warm, for no more
than another lifetime. -/
theorem enduring (ttl : Span) (start : Timestamp) (key : String) (callback : Callback)
    {now bound : Nat} (within : bound ≤ now + ttl.toNanos) :
    Work.Enduring
      (fun s => s.Orderly ∧ s.elapsed = now ∧ s.Warm ttl start key callback bound)
      fun pair => pair.1 = key → pair.2 = callback := by
  refine Orderly.enduring (fun light _ h => ⟨?_, h.2.aside light⟩) (fun _ h pair member same => ?_)
    fun result _ h fits => ⟨?_, h.2.settles ?_ fits result⟩
  · rw [(answered _ _).clock.1, h.1]
  · obtain ⟨other, called⟩ := pair
    obtain rfl : other = key := same
    obtain ⟨e, found, stored, _⟩ := h.2.entry
    obtain ⟨e', found', stored'⟩ :=
      (Cache.mem_refreshable_iff_find? h.2.accounted.nodup_keys).1 member
    obtain rfl := Option.some.inj (found.symm.trans found')
    exact Option.some.inj (stored'.symm.trans stored)
  · rw [(answered _ _).clock.1, h.1]
  · rw [h.1]
    exact within

/-- A refresh that has yet to come to the entry makes it last for another lifetime. -/
theorem renewed {pairs : List (String × Callback)} (order : s.Orderly)
    (h : s.Warm ttl start key callback s.elapsed) (member : (key, callback) ∈ pairs)
    (among : ∀ pair ∈ pairs, pair.2.source < s.sources.length ∧ (pair.1 = key → pair.2 = callback))
    (summary : Summary) :
    (s.finish (Work.refreshRest (Work.call Work.maxDepth) pairs summary)).1.Warm ttl start key
      callback (s.elapsed + ttl.toNanos) := by
  -- on the pairs; at its own the entry is renewed, and the rest keeps it
  induction pairs generalizing s summary with
  | nil => cases member
  | cons pair rest ih =>
    obtain ⟨known, fits⟩ := among pair List.mem_cons_self
    have before := enduring ttl start key callback (Nat.le_add_right s.elapsed ttl.toNanos)
    have after := enduring ttl start key callback (Nat.le_refl (s.elapsed + ttl.toNanos))
    obtain ⟨counted, finish⟩ : ∃ counted,
        s.finish (Work.refreshRest (Work.call Work.maxDepth) (pair :: rest) summary) =
          ((s.finish (Work.call Work.maxDepth pair.2)).1.answer (.settle pair.1 pair.2
            (s.finish (Work.call Work.maxDepth pair.2)).2.result)).1.finish
            (Work.refreshRest (Work.call Work.maxDepth) rest counted) :=
      ⟨_, (Work.finish_refreshRest_light order.light known 999 rest summary).1⟩
    rw [finish]
    have called := (Work.keeps_call before.toLasting Work.maxDepth pair.2 s ⟨order, rfl, h⟩).1
    have grown := s.length_sources_le_finish (Work.call Work.maxDepth pair.2)
    have succeeds : pair = (key, callback) →
        ∃ item, (s.finish (Work.call Work.maxDepth pair.2)).2 = .ok item := by
      rintro rfl
      exact h.succeeds s .refl
    generalize s.finish (Work.call Work.maxDepth pair.2) = call at called grown succeeds ⊢
    have settled := before.settles call.2.result called (Nat.lt_of_lt_of_le known grown) fits
    have among' : ∀ other ∈ rest, other.2.source <
        (call.1.answer (.settle pair.1 pair.2 call.2.result)).1.sources.length ∧
          (other.1 = key → other.2 = callback) := by
      intro other later
      obtain ⟨known', fits'⟩ := among other (List.mem_cons_of_mem _ later)
      rw [sources_answer_settle]
      exact ⟨Nat.lt_of_lt_of_le known' grown, fits'⟩
    by_cases own : pair = (key, callback)
    · obtain ⟨item, result⟩ := succeeds own
      obtain rfl := own
      have renewed := called.2.2.settle item
        (Nat.le_of_eq (congrArg (· + ttl.toNanos) called.2.1.symm))
      rw [result] at settled among' ⊢
      exact (Work.refreshRest_keeps after 999 ⟨settled.1, settled.2.1, renewed⟩ among' _).1.2.2
    · have later : (key, callback) ∈ rest :=
        (List.mem_cons.1 member).resolve_left fun same => own same.symm
      have rest := ih settled.1 (settled.2.1 ▸ settled.2.2) later among' counted
      rw [settled.2.1] at rest
      exact rest

/-- A refresh makes a warm entry last for another lifetime. -/
theorem refresh (h : s.Warm ttl start key callback bound) (order : s.Orderly)
    (warm : s.elapsed ≤ bound) :
    (s.finish Work.wholeRefresh).1.Warm ttl start key callback (s.elapsed + ttl.toNanos) := by
  have light : Request.isLight false .snapshot = true := rfl
  have before := enduring ttl start key callback (Nat.le_add_right s.elapsed ttl.toNanos)
  have holds : s.Orderly ∧ s.elapsed = s.elapsed ∧ s.Warm ttl start key callback s.elapsed :=
    ⟨order, rfl, h.mono warm⟩
  obtain ⟨order', elapsed, warm'⟩ := before.aside light holds
  obtain ⟨e, found, stored, _⟩ := h.entry
  have member := (Cache.mem_refreshable_iff_find? h.accounted.nodup_keys).2 ⟨e, found, stored⟩
  have renewed := renewed order' (elapsed ▸ warm') member (before.snapshot holds) .empty
  rw [elapsed] at renewed
  exact renewed

/-- A session that this one comes to keeps an entry as warm as it is in a third one. -/
theorem carry (h : s.Warm ttl start key callback bound) (proceeds : Proceeds s t) {u : Session}
    {later : Nat} (warm : u.Warm ttl start key callback later)
    (entries : t.cache.entries = u.cache.entries) : t.Warm ttl start key callback later := by
  obtain ⟨e, found, stored, lasts⟩ := warm.entry
  exact ⟨h.toRuns.proceeds proceeds, fun v further => h.succeeds v (proceeds.trans further),
    e, entries ▸ found, stored, lasts⟩

theorem finish (h : s.Warm ttl start key callback bound) (order : s.Orderly)
    (warm : s.elapsed ≤ bound) (within : bound ≤ s.elapsed + ttl.toNanos)
    {command : Command} (light : command.isLight true = true)
    (spared : command.spares key = true) :
    (s.finish command.work).1.Warm ttl start key callback bound := by
  have each : ∀ action ∈ command.actions, ∀ t : Session, action.isLight true = true →
      t.Orderly ∧ t.elapsed = s.elapsed ∧ t.Warm ttl start key callback bound →
      (t.answer (.act action)).1.Orderly ∧ (t.answer (.act action)).1.elapsed = s.elapsed ∧
        (t.answer (.act action)).1.Warm ttl start key callback bound := by
    intro action among t light ⟨order, elapsed, h⟩
    have spares := List.all_eq_true.1 spared action among
    rw [Bool.not_eq_true', ← Bool.not_eq_true, List.contains_iff_mem] at spares
    have same : (t.answer (.act action)).1.elapsed = t.elapsed := (t.answered _).clock.1
    obtain ⟨taken, cache⟩ := (t.answered (.act action)).cache
    refine ⟨order.answer (q := .act action) light nofun, same.trans elapsed,
      h.step (.request _) (Nat.le_of_eq same.symm) cache fun expires lasts =>
        spares_opsOf spares ?_⟩
    rw [h.now_eq, elapsed]
    exact Clock.not_past_mono h.ordinary warm lasts
  have enduring := enduring ttl start key callback within
  exact (Work.keeps_work enduring light each s ⟨order, rfl, h⟩).1.2.2

theorem doPiece (h : s.Warm ttl start key callback bound) (order : s.Orderly)
    (warm : s.elapsed ≤ bound) (within : bound ≤ s.elapsed + ttl.toNanos)
    (piece : Piece) : (s.doPiece piece).Warm ttl start key callback bound := by
  have enduring := enduring ttl start key callback within
  have proceeds := (atOnce_doPiece s piece).proceeds
  cases piece with
  | look index =>
    obtain ⟨taken, cache⟩ := s.cache_look index
    refine h.step (.look index) (Nat.le_of_eq (atOnce_look s index).elapsed.symm) cache
      fun expires lasts op among => ?_
    rw [lookOps] at among
    split at among
    · split at among
      · obtain rfl := List.mem_singleton.1 among
        show ¬ expires < s.now
        rw [h.now_eq]
        exact Clock.not_past_mono h.ordinary warm lasts
      · cases among
    · cases among
  | thread index =>
    have away : ({ s with hasRuntime := false } : Session).Warm ttl start key callback bound :=
      h.carry (.single ⟨.runtime false, Nat.le_refl _⟩) h rfl
    rcases order.doPiece_thread enduring ⟨order.away, rfl, away⟩ index with
      ⟨eq, _⟩ | ⟨t, told, _, ⟨_, _, kept⟩, _, eq⟩
    · rw [eq]
      exact h
    · exact h.carry proceeds kept (by rw [eq]; rfl)
  | cycle index =>
    rcases order.doPiece_cycle enduring ⟨order, rfl, h⟩ index with
      ⟨eq, _⟩ | ⟨t, told, _, ⟨_, _, kept⟩, _, eq⟩
    · rw [eq]
      exact h
    · exact h.carry proceeds kept (by rw [eq, entries_endCycle])

/-- A cycle that goes on makes the entry last for another lifetime. -/
theorem doPiece_cycle (h : s.Warm ttl start key callback bound) (order : s.Orderly)
    (warm : s.elapsed ≤ bound) {index : Nat}
    (ready : s.cycle? index = some (.ready Work.wholeRefresh)) :
    (s.doPiece (.cycle index)).Warm ttl start key callback (s.elapsed + ttl.toNanos) := by
  have renewed := h.refresh order warm
  have proceeds := (atOnce_doPiece s (.cycle index)).proceeds
  rcases order.doPiece_cycle enduring_orderly ⟨order, trivial⟩ index with
    ⟨_, idle⟩ | ⟨t, told, _, _, finish, eq⟩
  · exact absurd ready (idle _)
  · rw [finish] at renewed
    exact h.carry proceeds renewed (by rw [eq, entries_endCycle])

end Warm

/-- A value that is given no expiry has none. -/
theorem expires_build (s : Session) (item : Int) {settings : List Build}
    (implicit : ∀ moment, .expires moment ∉ settings) :
    (s.build item settings).2.expires = none := by
  have each : ∀ (settings : List Build) (t : Session) (value : Value Int),
      (∀ moment, .expires moment ∉ settings) → value.expires = none →
      (settings.foldl (fun p setting => p.1.applySetting p.2 setting)
        (t, value)).2.expires = none := by
    intro settings
    induction settings with
    | nil => exact fun t value _ none => none
    | cons setting rest ih =>
      intro t value implicit none
      have later : ∀ moment, .expires moment ∉ rest :=
        fun moment member => implicit moment (List.mem_cons_of_mem _ member)
      cases setting with
      | expires moment => exact absurd List.mem_cons_self (implicit moment)
      | refresh fetcher =>
        obtain ⟨_, _, _, _, _⟩ := fetcher
        exact ih _ _ later none
      | share slot retries =>
        simp only [List.foldl_cons, applySetting]
        split
        · exact ih _ _ later none
        · exact ih _ _ later none
  exact each settings s (.ofItem item) implicit rfl

/-- A set of a key does to the entries what the cache does with the value that is built. -/
theorem entries_set (s : Session) (key : String) (item : Int) (settings : List Build) :
    (s.finish (Command.act (.set key item settings)).work).1.cache.entries =
      (s.cache.set s.now key (s.build item settings).2).1.entries := by
  obtain ⟨taken, cache⟩ := (s.answered (.act (.set key item settings))).cache
  have answered : (s.finish (Command.act (.set key item settings)).work).1 =
      (s.answer (.act (.set key item settings))).1 := by
    rw [Command.work, Command.workWith]
    rfl
  rw [answered, cache]
  rfl

/-- An entry that was set without an expiry of its own is warm for a lifetime. -/
theorem Runs.warm_set (h : s.Runs ttl start) {item : Int} {settings : List Build}
    (implicit : ∀ moment, .expires moment ∉ settings)
    (after : t = (s.finish (Command.act (.set key item settings)).work).1) {e : Entry Int}
    (found : t.cache.entries.find? key = some e) (stored : e.refresh = some callback)
    (succeeds : t.AlwaysSucceeds callback) :
    t.Warm ttl start key callback (s.elapsed + ttl.toNanos) := by
  subst after
  have passed := during_finish (Command.act (.set key item settings)).work s
  refine ⟨h.proceeds passed.atOnce.proceeds, succeeds, e, found, stored, ?_⟩
  rw [s.entries_set] at found
  have written : e = Entry.stamp (s.cache.expiryFrom s.now) (s.build item settings).2 := by
    rcases s.cache.set_cases key with present | ⟨absent, room⟩ | ⟨absent, limit, hl, full⟩
    · rw [Cache.find?_set_self (.inl present)] at found
      exact (Option.some.inj found).symm
    · rw [Cache.find?_set_self (.inr room)] at found
      exact (Option.some.inj found).symm
    · rw [Cache.set_of_full absent hl full] at found
      rw [Keyed.contains, found] at absent
      cases absent
  rw [written, Entry.stamp, s.expires_build item implicit, Option.getD_none, h.expiryFrom_now]
  exact Clock.running_not_past h.ordinary (Nat.le_refl _)

end Warm

end Session

end WarmCache
