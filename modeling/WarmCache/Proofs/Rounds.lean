import WarmCache.Proofs.Saturation

/-!
# The rounds of a refresh

A refresh calls the callbacks of its snapshot one after the other and applies what each of them
came to. A callback may have done anything to the cache before it returned, so what is applied
meets a cache of which the snapshot knows nothing.

Results:
1. `finish_refreshRest`: a refresh is its rounds, one for each pair of the snapshot.
2. `Round.applied_of_reachable`: what is applied in a round bears on one entry only.
3. `refresh_settles_snapshot`: the whole of a refresh, whatever its callbacks do, as long as none
   of them panics.
-/

namespace WarmCache

/-- One round of a refresh. The callback of a pair of the snapshot was called in session `called`
and came to `outcome`; when it had returned the session was `returned`. -/
structure Round where
  key : String
  callback : Callback
  called : Session
  returned : Session
  outcome : Outcome Int

namespace Round

/-- The pair of the snapshot that a round is about. -/
def pair (r : Round) : String × Callback := (r.key, r.callback)

/-- What a round has to apply: an item or an error. After a panic there is nothing. -/
def result? (r : Round) : Option (Except String Int) :=
  match r.outcome with
  | .ok item => some (.ok item)
  | .failed message => some (.error message)
  | .panicked _ => none

/-- The session after the outcome of a round was applied, and how it was settled. -/
def applied (r : Round) : Session × Option Settled :=
  match r.result? with
  | some result =>
    let (s, settled) := r.returned.answer (.settle r.key r.callback result)
    (s, some settled)
  | none => (r.returned, none)

/-- What applying the outcome of a round does to the cache, where entries live for `ttl`. -/
structure Applied (ttl : Span) (r : Round) : Prop where
  /-- An error changes no entry. -/
  failed : ∀ message, r.outcome = .failed message →
    r.applied.2 = some .failed ∧ r.applied.1.cache.entries = r.returned.cache.entries
  /-- An item replaces the whole entry under the key, whatever that entry is by now. -/
  replaced : ∀ item, r.outcome = .ok item → r.returned.cache.entries.contains r.key = true →
    r.applied.2 = some .replaced ∧
      r.applied.1.cache.entries.find? r.key =
        some ⟨item, (r.returned.now.addUnbounded ttl).capped, some r.callback⟩
  /-- The new expiry is the earlier of the plain sum and the last instant, unless the clock stands
  past the last instant already. -/
  capped : ¬ Instant.latest < r.returned.now →
    (r.returned.now.addUnbounded ttl).capped = .earlier (r.returned.now.addUnbounded ttl) .latest
  /-- An item whose key is gone changes nothing. -/
  discarded : ∀ item, r.outcome = .ok item → r.returned.cache.entries.contains r.key = false →
    r.applied.2 = some .discarded ∧ r.applied.1.cache.entries = r.returned.cache.entries
  /-- The entries under other keys stay. -/
  others : ∀ key, key ≠ r.key →
    r.applied.1.cache.entries.find? key = r.returned.cache.entries.find? key
  /-- No key comes or goes. -/
  keys : r.applied.1.cache.entries.keys = r.returned.cache.entries.keys
  slots : r.applied.1.cache.slots = r.returned.cache.slots
  /-- Under any other limit and with any other count of slots the same would happen. -/
  unlimited : ∀ limit slots result,
    ({ r.returned.cache with limit, slots } : Cache Int).settle r.returned.now r.key r.callback
        result =
      ({ (r.returned.cache.settle r.returned.now r.key r.callback result).1 with limit, slots },
        (r.returned.cache.settle r.returned.now r.key r.callback result).2)

end Round

namespace Cache

variable {α : Type}

/-! ## What is applied -/

theorem settle_keys (c : Cache α) (now : Instant) (key : String) (callback : Callback)
    (result : Except String α) :
    (c.settle now key callback result).1.entries.keys = c.entries.keys := by
  rcases c.settle_cases now key callback result with ⟨_, eq⟩ | ⟨present, _, _, eq⟩
  · rw [eq]
  · rw [eq]
    exact Keyed.keys_put_of_contains _ _ _ present

theorem settle_slots (c : Cache α) (now : Instant) (key : String) (callback : Callback)
    (result : Except String α) : (c.settle now key callback result).1.slots = c.slots := by
  rcases c.settle_cases now key callback result with ⟨_, eq⟩ | ⟨_, _, _, eq⟩
  · rw [eq]
  · rw [eq]

theorem find?_settle_other (c : Cache α) (now : Instant) {key other : String}
    (callback : Callback) (result : Except String α) (h : other ≠ key) :
    (c.settle now key callback result).1.entries.find? other = c.entries.find? other := by
  rcases c.settle_cases now key callback result with ⟨_, eq⟩ | ⟨_, _, _, eq⟩
  · rw [eq]
  · rw [eq]
    exact Keyed.find?_put_other _ _ h

/-- Applying an outcome asks neither for the limit nor for the count of slots. -/
theorem settle_unlimited (c : Cache α) (limit : Option Nat) (slots : Int) (now : Instant)
    (key : String) (callback : Callback) (result : Except String α) :
    ({ c with limit, slots } : Cache α).settle now key callback result =
      ({ (c.settle now key callback result).1 with limit, slots },
        (c.settle now key callback result).2) := by
  cases result with
  | error message => rfl
  | ok item =>
    cases hc : c.entries.contains key with
    | true =>
      have hc' : ({ c with limit, slots } : Cache α).entries.contains key = true := hc
      rw [settle_ok_of_contains hc, settle_ok_of_contains hc']
      rfl
    | false =>
      have hc' : ({ c with limit, slots } : Cache α).entries.contains key = false := hc
      rw [settle_ok_of_not_contains hc, settle_ok_of_not_contains hc']

/-! ## The snapshot -/

theorem keys_refreshable (c : Cache α) : (c.refreshable.map Prod.fst).Sublist c.entries.keys := by
  unfold refreshable
  induction c.entries with
  | nil => exact .slnil
  | cons head rest ih =>
    obtain ⟨key, e⟩ := head
    cases refresh : e.refresh with
    | none =>
      simp only [List.filterMap_cons, refresh, Option.map_none]
      exact ih.cons _
    | some callback =>
      simp only [List.filterMap_cons, refresh, Option.map_some, List.map_cons]
      exact ih.cons_cons _

theorem length_refreshable (c : Cache α) :
    c.refreshable.length = (c.entries.filter fun pair => pair.2.isRefreshable).length := by
  unfold refreshable
  rw [List.length_filterMap_eq_countP, List.countP_eq_length_filter]
  refine congrArg List.length (List.filter_congr fun pair _ => ?_)
  rw [Option.isSome_map]
  rfl

/-- A snapshot has a pair exactly if the entry under its key has its callback. -/
theorem mem_refreshable_iff_find? {c : Cache α} (nodup : c.entries.keys.Nodup) {key : String}
    {callback : Callback} :
    (key, callback) ∈ c.refreshable ↔
      ∃ e, c.entries.find? key = some e ∧ e.refresh = some callback := by
  rw [mem_refreshable]
  refine exists_congr fun e => and_congr_left fun _ => ?_
  exact (Keyed.find?_eq_some_iff nodup).symm

end Cache

theorem Summary.foldl_count (outcomes : List Settled) (summary : Summary) :
    outcomes.foldl Summary.count summary =
      ⟨summary.refreshed + outcomes.count .replaced, summary.failed + outcomes.count .failed,
        summary.discarded + outcomes.count .discarded⟩ := by
  induction outcomes generalizing summary with
  | nil => rfl
  | cons outcome rest ih =>
    rw [List.foldl_cons, ih]
    cases outcome <;> simp [count] <;> omega

theorem Summary.total_foldl_count (outcomes : List Settled) (summary : Summary) :
    (outcomes.foldl Summary.count summary).total = summary.total + outcomes.length := by
  induction outcomes generalizing summary with
  | nil => rfl
  | cons outcome rest ih =>
    rw [List.foldl_cons, ih, total_count, List.length_cons]
    omega

namespace Session

/-! ## Rounds -/

/-- The round of a pair that begins in session `s`. -/
def roundOf (call : Callback → Work (Outcome Int)) (s : Session) (pair : String × Callback) :
    Round :=
  let (returned, outcome) := s.finish (call pair.2)
  ⟨pair.1, pair.2, s, returned, outcome⟩

/-- The rounds of a refresh that has these pairs before it. A panic is the last of them. -/
def rounds (call : Callback → Work (Outcome Int)) :
    List (String × Callback) → Session → List Round
  | [], _ => []
  | pair :: rest, s =>
    let r := s.roundOf call pair
    match r.applied with
    | (after, some _) => r :: rounds call rest after
    | (_, none) => [r]

/-- Rounds lead from one session to another, each of them beginning where the one before it
ended. -/
def Leads : Session → List Round → Session → Prop
  | s, [], t => s = t
  | s, r :: rest, t => r.called = s ∧ Leads r.applied.1 rest t

theorem finish_bind {α β : Type} (w : Work α) (f : α → Work β) (s : Session) :
    s.finish (w.bind f) = (s.finish w).1.finish (f (s.finish w).2) := by
  induction w generalizing s with
  | done result => rfl
  | ask q next ih => exact ih _ _
  | gate name rest ih => exact ih s

/-- What is applied is what the cache makes of it at the reading of the clock. -/
theorem answer_settle (s : Session) (key : String) (callback : Callback)
    (result : Except String Int) :
    (s.answer (.settle key callback result)).1.cache =
        (s.cache.settle s.now key callback result).1 ∧
      (s.answer (.settle key callback result)).2 =
        (s.cache.settle s.now key callback result).2 := by
  cases result with
  | error message => exact ⟨rfl, rfl⟩
  | ok item => exact ⟨rfl, rfl⟩

end Session

theorem Round.applied_of_result {r : Round} {result : Except String Int}
    (h : r.result? = some result) :
    r.applied.1.cache = (r.returned.cache.settle r.returned.now r.key r.callback result).1 ∧
      r.applied.2 = some (r.returned.cache.settle r.returned.now r.key r.callback result).2 := by
  obtain ⟨cache, settled⟩ := r.returned.answer_settle r.key r.callback result
  simp only [applied, h]
  exact ⟨cache, congrArg some settled⟩

theorem Round.exists_result {r : Round} (returns : ∀ message, r.outcome ≠ .panicked message) :
    ∃ result, r.result? = some result := by
  unfold result?
  cases outcome : r.outcome with
  | ok item => exact ⟨_, rfl⟩
  | failed message => exact ⟨_, rfl⟩
  | panicked message => exact absurd outcome (returns message)

theorem Round.reaches_applied (r : Round) : Session.Reaches r.returned r.applied.1 := by
  unfold applied
  cases r.result? with
  | none => exact .refl
  | some result => exact .single (Session.Step.request (.settle r.key r.callback result))

/-- In a round of a reachable session what is applied bears on the one entry only. -/
theorem Round.applied_of_reachable {ttl : Span} {limit : Option Nat} {time : TimeSource}
    {hasRuntime : Bool} {r : Round} (h : Session.Reachable ttl limit time hasRuntime r.returned)
    (returns : ∀ message, r.outcome ≠ .panicked message) : r.Applied ttl := by
  have valid := r.returned.now_valid
  have expiry : r.returned.cache.expiryFrom r.returned.now =
      (r.returned.now.addUnbounded ttl).capped := by
    rw [Cache.expiryFrom, h.policy_eq]
    exact expiryFrom_ofTtl ttl valid.earliest_le
  obtain ⟨result, has⟩ := exists_result returns
  obtain ⟨cache, settled⟩ := applied_of_result has
  constructor
  case failed =>
    intro message outcome
    have has : r.result? = some (.error message) := by rw [result?, outcome]
    obtain ⟨cache, settled⟩ := applied_of_result has
    rw [cache]
    exact ⟨settled, Cache.settle_failed _ _ _ _ _⟩
  case replaced =>
    intro item outcome present
    have has : r.result? = some (.ok item) := by rw [result?, outcome]
    obtain ⟨cache, settled⟩ := applied_of_result has
    rw [Cache.settle_ok_of_contains present] at cache settled
    rw [cache, ← expiry]
    exact ⟨settled, Keyed.find?_put_self _ _ _⟩
  case capped => exact Instant.capped_eq_earlier valid
  case discarded =>
    intro item outcome absent
    have has : r.result? = some (.ok item) := by rw [result?, outcome]
    obtain ⟨cache, settled⟩ := applied_of_result has
    rw [Cache.settle_ok_of_not_contains absent] at cache settled
    exact ⟨settled, congrArg Cache.entries cache⟩
  case others =>
    intro key other
    rw [cache]
    exact Cache.find?_settle_other _ _ _ _ other
  case keys =>
    rw [cache]
    exact Cache.settle_keys _ _ _ _ _
  case slots =>
    rw [cache]
    exact Cache.settle_slots _ _ _ _ _
  case unlimited =>
    intro limit slots result
    exact Cache.settle_unlimited _ limit slots _ _ _ result

namespace Session

variable {call : Callback → Work (Outcome Int)}

/-- A round calls its callback once and has what came of it. -/
theorem rounds_called {pairs : List (String × Callback)} {s : Session} {r : Round}
    (h : r ∈ rounds call pairs s) :
    r.called.finish (call r.callback) = (r.returned, r.outcome) ∧ Reaches s r.returned := by
  induction pairs generalizing s with
  | nil => cases h
  | cons pair rest ih =>
    have first := (during_finish (call pair.2) s).reaches
    have after := first.trans (s.roundOf call pair).reaches_applied
    rw [rounds] at h
    generalize applied : (s.roundOf call pair).applied = result at h after
    obtain ⟨t, settled⟩ := result
    cases settled with
    | none =>
      obtain rfl := List.mem_singleton.1 h
      exact ⟨rfl, first⟩
    | some settled =>
      rcases List.mem_cons.1 h with rfl | later
      · exact ⟨rfl, first⟩
      · obtain ⟨called, reached⟩ := ih later
        exact ⟨called, after.trans reached⟩

/-- The first round of a refresh, if its callback returns, and the refresh that is left. -/
theorem finish_refreshRest_cons {pair : String × Callback} {rest : List (String × Callback)}
    {s t : Session} {settled : Settled} (h : (s.roundOf call pair).applied = (t, some settled))
    (summary : Summary) :
    s.finish (Work.refreshRest call (pair :: rest) summary) =
      t.finish (Work.refreshRest call rest (summary.count settled)) := by
  obtain ⟨key, callback⟩ := pair
  refine (finish_bind (call callback) _ s).trans ?_
  simp only [Round.applied, Round.result?, roundOf] at h
  generalize s.finish (call callback) = returned at h ⊢
  obtain ⟨after, outcome⟩ := returned
  cases outcome with
  | panicked message => cases h
  | ok item =>
    obtain ⟨rfl, same⟩ := Prod.mk.inj h
    obtain rfl := Option.some.inj same
    rfl
  | failed message =>
    obtain ⟨rfl, same⟩ := Prod.mk.inj h
    obtain rfl := Option.some.inj same
    rfl

/-- A refresh whose callbacks all return is its rounds, one for each pair, and its summary counts
how they were settled. -/
theorem finish_refreshRest {pairs : List (String × Callback)} {s : Session}
    (returns : ∀ r ∈ rounds call pairs s, ∀ message, r.outcome ≠ .panicked message)
    (summary : Summary) :
    (rounds call pairs s).map Round.pair = pairs ∧
      ∃ (t : Session) (outcomes : List Settled), Leads s (rounds call pairs s) t ∧
        (rounds call pairs s).map (fun r => r.applied.2) = outcomes.map some ∧
        s.finish (Work.refreshRest call pairs summary) =
          (t, .ok (outcomes.foldl Summary.count summary)) := by
  -- on the pairs that are left; both the session and the summary move on with every round
  induction pairs generalizing s summary with
  | nil => exact ⟨rfl, s, [], rfl, rfl, rfl⟩
  | cons pair rest ih =>
    have head : s.roundOf call pair ∈ rounds call (pair :: rest) s := by
      rw [rounds]
      split
      · exact List.mem_cons_self
      · exact List.mem_singleton_self _
    obtain ⟨result, has⟩ := Round.exists_result (returns _ head)
    obtain ⟨t, settled, applied⟩ :
        ∃ t settled, (s.roundOf call pair).applied = (t, some settled) := by
      rw [Round.applied, has]
      exact ⟨_, _, rfl⟩
    have split : rounds call (pair :: rest) s = s.roundOf call pair :: rounds call rest t := by
      rw [rounds, applied]
    rw [split] at returns ⊢
    obtain ⟨pairs, last, outcomes, leads, settlings, eq⟩ :=
      ih (fun r hr => returns r (List.mem_cons_of_mem _ hr)) (summary.count settled)
    refine ⟨?_, last, settled :: outcomes, ⟨rfl, ?_⟩, ?_, ?_⟩
    · rw [List.map_cons, pairs]
      rfl
    · rw [applied]
      exact leads
    · rw [List.map_cons, settlings, applied]
      rfl
    · rw [finish_refreshRest_cons applied, eq]
      rfl

/-- A refresh goes through the pairs of its snapshot, in whatever order they come, and through no
others. It calls the callback of each pair once, whatever has become of its entry, and applies what
comes of it to that entry only; the summary counts every pair once. Callbacks may do anything
before they return. -/
theorem refresh_settles_snapshot {ttl : Span} {limit : Option Nat} {time : TimeSource}
    {hasRuntime : Bool} {s : Session} (h : Reachable ttl limit time hasRuntime s)
    {order : List (String × Callback)} (perm : order.Perm s.cache.refreshable)
    (returns : ∀ r ∈ rounds call order (s.answer .snapshot).1,
      ∀ message, r.outcome ≠ .panicked message) :
    s.finish (Work.refresh call) =
        (s.answer .snapshot).1.finish (Work.refreshRest call s.cache.refreshable .empty) ∧
      (rounds call order (s.answer .snapshot).1).map Round.pair = order ∧
      (order.map Prod.fst).Nodup ∧
      (∀ key callback, (key, callback) ∈ order ↔
        ∃ e, s.cache.entries.find? key = some e ∧ e.refresh = some callback) ∧
      (∀ r ∈ rounds call order (s.answer .snapshot).1,
        r.called.finish (call r.callback) = (r.returned, r.outcome) ∧ r.Applied ttl) ∧
      ∃ (t : Session) (outcomes : List Settled) (summary : Summary),
        Leads (s.answer .snapshot).1 (rounds call order (s.answer .snapshot).1) t ∧
        (rounds call order (s.answer .snapshot).1).map (fun r => r.applied.2) =
          outcomes.map some ∧
        (s.answer .snapshot).1.finish (Work.refreshRest call order .empty) = (t, .ok summary) ∧
        summary =
          ⟨outcomes.count .replaced, outcomes.count .failed, outcomes.count .discarded⟩ ∧
        summary.refreshed + summary.failed + summary.discarded =
          (s.cache.entries.filter fun pair => pair.2.isRefreshable).length := by
  have nodup := h.accounted.nodup_keys
  obtain ⟨pairs, t, outcomes, leads, settlings, eq⟩ := finish_refreshRest returns .empty
  refine ⟨rfl, pairs, ?_, fun key callback => ?_, fun r hr => ?_,
    t, outcomes, _, leads, settlings, eq, ?_, ?_⟩
  · rw [(perm.map Prod.fst).nodup_iff]
    exact nodup.sublist s.cache.keys_refreshable
  · rw [perm.mem_iff, Cache.mem_refreshable_iff_find? nodup]
  · obtain ⟨called, reached⟩ := rounds_called hr
    have returned : Reachable ttl limit time hasRuntime r.returned :=
      (h.tail (.request .snapshot)).trans reached
    exact ⟨called, Round.applied_of_reachable returned (returns r hr)⟩
  · simp only [Summary.foldl_count, Summary.empty, Nat.zero_add]
  · have each : outcomes.length = order.length := by
      have settled := congrArg List.length settlings
      have paired := congrArg List.length pairs
      simp only [List.length_map] at settled paired
      omega
    rw [← s.cache.length_refreshable, ← perm.length_eq, ← each]
    exact (Summary.total_foldl_count outcomes .empty).trans (Nat.zero_add _)

/-- A refresh of a full cache. The first callback deletes the other key, sets a new one, begins a
refresh of its own, all of whose callbacks fail, and returns an item; the second returns an item
for the key that is gone. -/
theorem refresh_settles_snapshot_nested :
    let fetcher (name : String) : Fetcher := .mk name (.mk none [] (.item 5)) [] false []
    let s := ((ofCache (.ofSecs 60) (some 2) (.running ⟨⟨1000, 0⟩, by decide⟩) false).run
      [.run (.act (.set "a" 1 [.refresh (fetcher "first")])),
        .run (.act (.set "b" 2 [.refresh (fetcher "second")]))]).1
    let call : Callback → Work (Outcome Int) := fun callback =>
      if callback.source = 0 then do
        let _ ← Work.request (.act (.store (.delete "b")))
        let _ ← Work.request (.act (.set "c" 3 [.refresh (fetcher "third")]))
        let _ ← Work.refresh fun _ => return .failed "down"
        return .ok 7
      else return .ok 8
    let after := s.finish (Work.refresh call)
    (rounds call s.cache.refreshable (s.answer .snapshot).1).map Round.pair =
        [("a", ⟨0, []⟩), ("b", ⟨1, []⟩)] ∧
      after.2 = .ok ⟨1, 0, 1⟩ ∧ after.1.cache.entries.keys = ["a", "c"] ∧
      after.1.cache.entries.find? "a" = some ⟨7, ⟨1060, 0⟩, some ⟨0, []⟩⟩ := by
  intro fetcher s call after
  have reached : Reachable (.ofSecs 60) (some 2) (.running ⟨⟨1000, 0⟩, by decide⟩) false s :=
    Reachable.run .refl _
  have outcomes : (rounds call s.cache.refreshable (s.answer .snapshot).1).map Round.outcome =
      [.ok 7, .ok 8] := by decide +kernel
  have returns : ∀ r ∈ rounds call s.cache.refreshable (s.answer .snapshot).1,
      ∀ message, r.outcome ≠ .panicked message := by
    intro r hr message
    have came := List.mem_map_of_mem (f := Round.outcome) hr
    rw [outcomes, List.mem_cons, List.mem_singleton] at came
    rcases came with came | came
    · rw [came]
      exact nofun
    · rw [came]
      exact nofun
  obtain ⟨_, pairs, _⟩ :=
    refresh_settles_snapshot reached (List.Perm.refl _) returns
  refine ⟨pairs.trans ?_, ?_, ?_, ?_⟩ <;> decide +kernel

end Session

end WarmCache
