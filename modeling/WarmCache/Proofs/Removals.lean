import WarmCache.Proofs.Lifetimes

/-!
# Keys that are taken out during a refresh

A refresh knows an entry by its key alone. If the key is taken out while the refresh is under way,
what its callback fetched is discarded, no matter who took it out: the callback itself, another
one, a caller or a background task. This rests on the key staying away. A key that was set again is
taken for the one of the snapshot, and its new entry is replaced like the old one.

Results:
1. `Chronicle.absent`: a key stays away until it is set.
2. `Chronicle.clears_of_absent`: a key that is gone was deleted or flushed.
3. `removed_key_discards_fetch`: a key that is taken out and stays away discards what was fetched.
4. `key_set_again_takes_fetch`: a key that is set again does not.
-/

namespace WarmCache

namespace Cache

variable {α : Type} {c : Cache α} {key : String}

/-- A key that is not there comes in by a set that inserts it, and by nothing else. -/
theorem contains_apply_of_absent (absent : c.entries.contains key = false) {op : CacheOp α}
    (unset : ∀ now value, c.deed op ≠ ⟨.set now key value, .inserted⟩) :
    (c.apply op).entries.contains key = false := by
  rw [Keyed.contains_eq_false_iff] at absent ⊢
  cases op with
  | set now k value =>
    simp only [apply]
    rcases c.set_cases k with present | ⟨free, room⟩ | ⟨free, limit, hl, full⟩
    · rw [set_of_contains present, Keyed.keys_put_of_contains _ _ _ present]
      exact absent
    · have inserted : c.deed (.set now k value) = ⟨.set now k value, .inserted⟩ := by
        simp only [deed, effect, set_of_hasRoom free room, free, Bool.false_eq_true, if_false]
      have other : key ≠ k := by
        rintro rfl
        exact unset now value inserted
      rw [set_of_hasRoom free room, Keyed.keys_put_of_not_contains _ _ _ free]
      simp only [List.mem_append, List.mem_singleton, absent, other, or_self, not_false_eq_true]
    · rw [set_of_full free hl full]
      exact absent
  | get k =>
    simp only [apply, get_entries]
    exact absent
  | delete k =>
    simp only [apply]
    cases present : c.entries.contains k with
    | true =>
      rw [delete_of_contains present, Keyed.keys_remove]
      exact fun member => absent (List.mem_of_mem_erase member)
    | false =>
      rw [delete_of_not_contains present]
      exact absent
  | flush now =>
    exact fun member => absent ((List.filter_sublist.map Prod.fst).subset member)
  | settle now k callback result =>
    simp only [apply, settle_keys]
    exact absent

/-- An operation after which a key is gone cleared its entry. -/
theorem clears_of_gone (nodup : c.entries.keys.Nodup) {op : CacheOp α} {e : Entry α}
    (found : c.entries.find? key = some e) (gone : (c.apply op).entries.contains key = false) :
    Deed.Clears key e.expires (c.deed op) := by
  have present : key ∈ c.entries.keys := by
    rw [← Keyed.contains_iff_mem_keys, Keyed.contains, found]
    rfl
  have away := (Keyed.contains_eq_false_iff _ key).1 gone
  cases op with
  | set now k value =>
    simp only [apply] at away
    rcases c.set_cases k with there | ⟨free, room⟩ | ⟨free, limit, hl, full⟩
    · rw [set_of_contains there, Keyed.keys_put_of_contains _ _ _ there] at away
      exact absurd present away
    · rw [set_of_hasRoom free room, Keyed.keys_put_of_not_contains _ _ _ free] at away
      exact absurd (List.mem_append_left _ present) away
    · rw [set_of_full free hl full] at away
      exact absurd present away
  | get k =>
    simp only [apply, get_entries] at away
    exact absurd present away
  | delete k =>
    by_cases same : k = key
    · rw [same]
      exact .delete
    · simp only [apply, entries_delete nodup] at away
      refine absurd (List.mem_map.2 ⟨(key, e), List.mem_filter.2 ⟨Keyed.mem_of_find? found, ?_⟩,
        rfl⟩) away
      simpa using Ne.symm same
  | flush now =>
    refine .flush (Decidable.byContradiction fun fresh => ?_)
    have kept := find?_flush nodup found now
    rw [if_neg fresh] at kept
    simp only [apply, Keyed.contains, kept, Option.isSome_some, Bool.true_eq_false] at gone
  | settle now k callback result =>
    simp only [apply, settle_keys] at away
    exact absurd present away

/-! ## Operations in order -/

theorem absent_applyAll (absent : c.entries.contains key = false) {ops : List (CacheOp α)}
    (unset : ∀ now value, ⟨.set now key value, .inserted⟩ ∉ c.deeds ops) :
    (c.applyAll ops).entries.contains key = false := by
  induction ops generalizing c with
  | nil => exact absent
  | cons op rest ih =>
    have first : (c.apply op).entries.contains key = false :=
      contains_apply_of_absent absent fun now value same =>
        unset now value (same ▸ List.mem_cons_self)
    exact ih first fun now value member => unset now value (List.mem_cons_of_mem _ member)

theorem clears_of_gone_applyAll (count : c.Accounted) {ops : List (CacheOp α)}
    (present : c.entries.contains key = true)
    (gone : (c.applyAll ops).entries.contains key = false) :
    ∃ d ∈ c.deeds ops, ∃ expires, Deed.Clears key expires d := by
  -- the first operation after which the key is gone is the one
  induction ops generalizing c with
  | nil => exact absurd (present.symm.trans gone) (by decide)
  | cons op rest ih =>
    cases after : (c.apply op).entries.contains key with
    | true =>
      obtain ⟨d, member, clears⟩ := ih (count.apply op) after gone
      exact ⟨d, List.mem_cons_of_mem _ member, clears⟩
    | false =>
      obtain ⟨e, found⟩ := Option.isSome_iff_exists.1 present
      exact ⟨_, List.mem_cons_self, e.expires, clears_of_gone count.nodup_keys found after⟩

end Cache

namespace Session

section Chronicle

variable {start t : Session} {deeds : List (Deed Int)} {key : String}

/-- A key that is not there stays away until a set inserts it. -/
theorem Chronicle.absent (h : Chronicle start deeds t)
    (absent : start.cache.entries.contains key = false)
    (unset : ∀ now value, ⟨.set now key value, .inserted⟩ ∉ deeds) :
    t.cache.entries.contains key = false := by
  induction h with
  | begins => exact absent
  | @asks before t q _ ih =>
    obtain ⟨taken, cache⟩ := (t.answered q).cache
    rw [cache]
    exact Cache.absent_applyAll (ih fun now value member => unset now value
      (List.mem_append_left _ member)) fun now value member => unset now value
      (List.mem_append_right _ member)
  | @looks before t index _ ih =>
    obtain ⟨taken, cache⟩ := t.cache_look index
    rw [cache]
    exact Cache.absent_applyAll (ih fun now value member => unset now value
      (List.mem_append_left _ member)) fun now value member => unset now value
      (List.mem_append_right _ member)
  | shifts _ _ shift ih =>
    obtain ⟨taken, cache⟩ := shift.cache
    rw [cache]
    exact ih unset

/-- A key that was there and is gone was deleted, or flushed past its expiry. -/
theorem Chronicle.clears_of_absent {ttl : Span} {limit : Option Nat} {time : TimeSource}
    {hasRuntime : Bool} (h : Chronicle start deeds t)
    (reached : Reachable ttl limit time hasRuntime start)
    (present : start.cache.entries.contains key = true)
    (gone : t.cache.entries.contains key = false) :
    ∃ d ∈ deeds, ∃ expires, Deed.Clears key expires d := by
  -- on the chronicle; where the key was gone before, so was its entry cleared before
  have further : ∀ {u v : Session} {before : List (Deed Int)} {ops : List (CacheOp Int)}
      {taken : Bool}, Reaches start u → v.cache = (u.cache.applyAll ops).claim taken →
      v.cache.entries.contains key = false →
      (u.cache.entries.contains key = false → ∃ d ∈ before, ∃ expires, Deed.Clears key expires d) →
      ∃ d ∈ before ++ u.cache.deeds ops, ∃ expires, Deed.Clears key expires d := by
    intro u v before ops taken steps cache gone earlier
    have onTheWay : Reachable ttl limit time hasRuntime u := reached.trans steps
    rw [cache] at gone
    cases there : u.cache.entries.contains key with
    | false =>
      obtain ⟨d, member, clears⟩ := earlier there
      exact ⟨d, List.mem_append_left _ member, clears⟩
    | true =>
      obtain ⟨d, member, clears⟩ :=
        Cache.clears_of_gone_applyAll onTheWay.accounted there gone
      exact ⟨d, List.mem_append_right _ member, clears⟩
  induction h with
  | begins => exact absurd (present.symm.trans gone) (by decide)
  | @asks before t q earlier ih =>
    obtain ⟨taken, cache⟩ := (t.answered q).cache
    exact further earlier.reaches cache gone ih
  | @looks before t index earlier ih =>
    obtain ⟨taken, cache⟩ := t.cache_look index
    exact further earlier.reaches cache gone ih
  | shifts _ _ shift ih =>
    obtain ⟨taken, cache⟩ := shift.cache
    rw [cache] at gone
    exact ih gone

end Chronicle

/-- A key of the snapshot that is gone at some time before its item is applied was deleted or
flushed by then. If it is not set again, the item is discarded, and counted so, and the session
stays as it is; this holds whatever callers, callbacks and background tasks do meanwhile, and for a
refresh that a session makes itself as for one in the background. What decides is whether the key
is there when the item is applied: if it is, its entry is replaced, whoever set it. -/
theorem removed_key_discards_fetch {ttl : Span} {limit : Option Nat} {time : TimeSource}
    {hasRuntime : Bool} {s v u : Session} {key : String} {callback : Callback}
    {before after : List (Deed Int)} (reached : Reachable ttl limit time hasRuntime s)
    (snapshotted : (key, callback) ∈ s.cache.refreshable)
    (upTo : Chronicle (s.answer .snapshot).1 before v)
    (gone : v.cache.entries.contains key = false) (since : Chronicle v after u)
    (unset : ∀ now value, ⟨.set now key value, .inserted⟩ ∉ after) (item : Int) :
    let settle : Request := .settle key callback (.ok item)
    (∃ d ∈ before, ∃ expires, Deed.Clears key expires d) ∧
      u.cache.entries.contains key = false ∧ (u.answer settle).2 = .discarded ∧
      (u.answer settle).1 = { u with clock := u.clock.tick } ∧
      (∀ (call : Callback → Work (Outcome Int)) rest summary,
        let onward := Work.refreshRest call rest { summary with discarded := summary.discarded + 1 }
        Work.refreshRest call ((key, callback) :: rest) summary =
            (call callback).bind (Work.afterCall call key callback rest summary) ∧
          ∀ (t : Session) w,
            (t.finish w = (u, .ok item) →
              t.finish (w.bind (Work.afterCall call key callback rest summary)) =
                ({ u with clock := u.clock.tick } : Session).finish onward) ∧
            (t.advance w = (u, .finished (.ok item)) →
              t.advance (w.bind (Work.afterCall call key callback rest summary)) =
                ({ u with clock := u.clock.tick } : Session).advance onward)) ∧
      ∀ t : Session, t.cache.entries.contains key = true →
        (t.answer settle).2 = .replaced ∧
          (t.answer settle).1.cache.entries.find? key =
            some ⟨item, t.cache.expiryFrom t.now, some callback⟩ := by
  intro settle
  have begun : Reachable ttl limit time hasRuntime (s.answer .snapshot).1 :=
    reached.tail (.request .snapshot)
  have present : (s.answer .snapshot).1.cache.entries.contains key = true := by
    obtain ⟨e, found, _⟩ :=
      (Cache.mem_refreshable_iff_find? reached.accounted.nodup_keys).1 snapshotted
    show (s.cache.entries.find? key).isSome = true
    rw [found]
    rfl
  have away := since.absent gone unset
  have discards : u.answer settle = ({ u with clock := u.clock.tick }, .discarded) := by
    show (let (s, reply) := u.settleOutcome key callback (.ok item)
      ({ s with clock := s.clock.tick }, reply)) = _
    simp only [settleOutcome, Cache.settle_ok_of_not_contains away]
  refine ⟨upTo.clears_of_absent begun present gone, away, by rw [discards], by rw [discards],
    fun call rest summary => ⟨Work.refreshRest_cons call key callback rest summary, fun t w => ?_⟩,
    fun t there => ?_⟩
  · obtain ⟨_, finishes, advances⟩ :=
      t.afterCall_settles (u := u) (w := w) call key callback rest summary
    rw [discards] at finishes advances
    exact ⟨finishes, advances⟩
  · obtain ⟨cache, settled⟩ := t.answer_settle key callback (.ok item)
    rw [cache, settled, Cache.settle_ok_of_contains there]
    exact ⟨rfl, Keyed.find?_put_self _ _ _⟩

/-- In a full cache a callback deletes its own key, and another key takes the free slot. What the
callback fetches is discarded. -/
theorem removed_key_discards_fetch_own_callback :
    let delete : Action := .store (.delete "a")
    let other : Action := .set "b" 2 []
    let fetcher : Fetcher := .mk "source" (.mk none [.act delete, .act other] (.item 5)) [] false []
    let s := ((ofCache (.ofSecs 60) (some 1) (.manual ⟨1000, 0⟩) false).run
      [.run (.act (.set "a" 1 [.refresh fetcher]))]).1
    let attempt := (((s.answer .snapshot).1.answer (.attempt 0)).1)
    let v := (attempt.answer (.act delete)).1
    let note : TraceRecord := .mk "source" 1 [.nothing, .done]
    let u := ((v.answer (.act other)).1.answer (.record note)).1
    (u.answer (.settle "a" ⟨0, []⟩ (.ok 5))).2 = .discarded ∧
      (s.finish Work.wholeRefresh).2 = .ok ⟨0, 0, 1⟩ ∧
      (s.finish Work.wholeRefresh).1.cache.entries.keys = ["b"] := by
  intro delete other fetcher s attempt v note u
  have reached : Reachable (.ofSecs 60) (some 1) (.manual ⟨1000, 0⟩) false s :=
    Reachable.run .refl _
  have upTo : Chronicle (s.answer .snapshot).1 _ v :=
    (Chronicle.begins.asks (.attempt 0)).asks (.act delete)
  have since : Chronicle v _ u := (Chronicle.begins.asks (.act other)).asks (.record note)
  have refreshable : s.cache.refreshable = [("a", ⟨0, []⟩)] := by decide +kernel
  have gone : v.cache.entries.contains "a" = false := by decide +kernel
  have unset : ∀ now value, (⟨.set now "a" value, .inserted⟩ : Deed Int) ∉
      v.cache.deeds (v.opsOf (.act other)) ++ [] := by
    intro now value member
    rw [List.append_nil] at member
    have named := List.mem_singleton.1 (Cache.op_mem_of_mem_deeds member)
    have keys : some "a" = some "b" := congrArg CacheOp.key? named
    exact absurd keys (by decide)
  obtain ⟨_, _, discarded, _, goes, _⟩ := removed_key_discards_fetch reached
    (by rw [refreshable]; exact List.mem_singleton_self _) upTo gone since unset 5
  have returned : (s.answer .snapshot).1.finish (Work.call Work.maxDepth ⟨0, []⟩) = (u, .ok 5) :=
    rfl
  obtain ⟨first, rest⟩ := goes (Work.call Work.maxDepth) [] .empty
  have finished := (rest _ _).1 returned
  rw [← first] at finished
  have whole : s.finish Work.wholeRefresh =
      ({ u with clock := u.clock.tick }, .ok ⟨0, 0, 1⟩) := by
    show (s.answer .snapshot).1.finish (Work.refreshRest _ s.cache.refreshable .empty) = _
    rw [refreshable]
    exact finished
  rw [whole]
  exact ⟨discarded, rfl, by decide +kernel⟩

/-- A callback deletes its key and sets it again, with an expiry of its own and no callback. The
key was gone while the callback ran, but what it fetched takes the place of the new entry, with the
callback of the old one, and nothing is counted as discarded. -/
theorem key_set_again_takes_fetch :
    let delete : Action := .store (.delete "a")
    let again : Action := .set "a" 7 [.expires (.fixed ⟨5, 0⟩)]
    let fetcher : Fetcher := .mk "cb" (.mk none [.act delete, .act again] (.item 5)) [] false []
    let s := ((ofCache (.ofSecs 60) none (.manual ⟨0, 0⟩) false).run
      [.run (.act (.set "a" 1 [.refresh fetcher]))]).1
    let v := (((s.answer .snapshot).1.answer (.attempt 0)).1.answer (.act delete)).1
    let u := ((v.answer (.act again)).1.answer (.record (.mk "cb" 1 [.nothing, .done]))).1
    let after := s.finish Work.wholeRefresh
    s.cache.refreshable = [("a", ⟨0, []⟩)] ∧ v.cache.entries.contains "a" = false ∧
      u.cache.entries.find? "a" = some ⟨7, ⟨5, 0⟩, none⟩ ∧
      (s.answer .snapshot).1.finish (Work.call Work.maxDepth ⟨0, []⟩) = (u, .ok 5) ∧
      after.2 = .ok ⟨1, 0, 0⟩ ∧
      after.1.cache.entries.find? "a" = some ⟨5, ⟨60, 0⟩, some ⟨0, []⟩⟩ := by
  intro delete again fetcher s v u after
  refine ⟨?_, ?_, ?_, rfl, ?_, ?_⟩ <;> decide +kernel

end Session

end WarmCache
