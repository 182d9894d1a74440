import WarmCache.Proofs.FiniteMap
import WarmCache.Proofs.Keys

/-!
# Calls that name a key

Without a limit, what a call does to one key, and what it tells of the key that it names, depends
on what is under that key and on nothing else in the cache.

Results:
1. `Cache.find?_call`: what is under a key after a call.
2. `Cache.told_call`, `Cache.counters_call`: what a call tells and counts that names a key.
3. `Cache.calls_commute`: calls that name different keys may be made in either order.
-/

namespace WarmCache

/-! ## Calls -/

namespace CacheCall

variable {α : Type}

/-- The key that a call names. -/
def key? : CacheCall α → Option String
  | set key _ => some key
  | get key => some key
  | getItem key => some key
  | delete key => some key
  | _ => none

/-- What is under a key after a call at `now` that was not refused. -/
def entryAfter (policy : ExpiryPolicy) (now : Instant) (key : String) (call : CacheCall α)
    (before : Option (Entry α)) : Option (Entry α) :=
  match call with
  | set k value => if k = key then some (.stamp (policy.expiryFrom now) value) else before
  | delete k => if k = key then none else before
  | flush => before.filter fun e => !e.isExpiredAt now
  | _ => before

/-- What a call that names a key is told, where `found` is under that key, unless it is refused. -/
def toldOf (found : Option (Entry α)) : CacheCall α → CacheReply α
  | get _ => .entry found
  | getItem _ => .item (found.map Entry.item)
  | _ => .done

/-- The counters after a call that names a key, where `found` is under that key, unless it is
refused. -/
def countersAfter (found : Option (Entry α)) (counters : Counters) : CacheCall α → Counters
  | get _ => if found.isSome then counters.recordHit else counters.recordMiss
  | getItem _ => if found.isSome then counters.recordHit else counters.recordMiss
  | _ => counters

theorem countersAfter_comm (a b : CacheCall α) (found found' : Option (Entry α))
    (counters : Counters) :
    b.countersAfter found' (a.countersAfter found counters) =
      a.countersAfter found (b.countersAfter found' counters) := by
  have lookups : ∀ hit hit' : Bool,
      (if hit' then (if hit then counters.recordHit else counters.recordMiss).recordHit
        else (if hit then counters.recordHit else counters.recordMiss).recordMiss) =
      if hit then (if hit' then counters.recordHit else counters.recordMiss).recordHit
        else (if hit' then counters.recordHit else counters.recordMiss).recordMiss := by
    intro hit hit'
    cases hit <;> cases hit' <;> rfl
  cases a <;> cases b <;> first | rfl | exact lookups _ _

theorem entryAfter_other {policy : ExpiryPolicy} {now : Instant} {key k : String}
    {call : CacheCall α} (names : call.key? = some k) (ne : k ≠ key)
    (before : Option (Entry α)) : call.entryAfter policy now key before = before := by
  cases call with
  | set k' value =>
    obtain rfl := Option.some.inj names
    exact if_neg ne
  | delete k' =>
    obtain rfl := Option.some.inj names
    exact if_neg ne
  | flush => cases names
  | _ => rfl

end CacheCall

namespace Cache

variable {α : Type} {c : Cache α}

theorem set_unlimited (unlimited : c.limit = none) (now : Instant) (key : String)
    (value : Value α) :
    (c.set now key value).1.entries =
        c.entries.put key (Entry.stamp (c.policy.expiryFrom now) value) ∧
      (c.set now key value).2 = .ok () := by
  rcases c.set_cases key with present | ⟨absent, room⟩ | ⟨_, limit, hl, _⟩
  · rw [set_of_contains present]
    exact ⟨rfl, rfl⟩
  · rw [set_of_hasRoom absent room]
    exact ⟨rfl, rfl⟩
  · rw [unlimited] at hl
    cases hl

/-- What a call does to one key depends on what is under that key. -/
theorem find?_call (unlimited : c.limit = none) (nodup : c.entries.keys.Nodup) (now : Instant)
    (key : String) (call : CacheCall α) :
    (c.call now call).1.entries.find? key =
      call.entryAfter c.policy now key (c.entries.find? key) := by
  rw [call_fst]
  cases call with
  | set k value =>
    show (c.set now k value).1.entries.find? key = _
    rw [(set_unlimited unlimited now k value).1, CacheCall.entryAfter]
    by_cases mine : k = key
    · rw [mine, Keyed.find?_put_self, if_pos rfl]
    · rw [Keyed.find?_put_other _ _ (Ne.symm mine), if_neg mine]
  | get k =>
    show (c.get k).1.entries.find? key = _
    rw [get_entries]
    rfl
  | getItem k =>
    show (c.get k).1.entries.find? key = _
    rw [get_entries]
    rfl
  | delete k =>
    show (c.delete k).entries.find? key = _
    rw [entries_delete nodup, Keyed.find?_filter _ _ nodup, CacheCall.entryAfter]
    by_cases mine : key = k
    · rw [if_pos mine.symm]
      cases c.entries.find? key <;> simp [mine]
    · rw [if_neg (Ne.symm mine)]
      cases c.entries.find? key <;> simp [mine]
  | flush => exact Keyed.find?_filter _ key nodup
  | size => rfl
  | isEmpty => rfl

/-- What a call is told of a key depends on what is under that key. -/
theorem told_call (unlimited : c.limit = none) (now : Instant) {key : String}
    {call : CacheCall α} (names : call.key? = some key) :
    (c.call now call).2 = call.toldOf (c.entries.find? key) := by
  cases call with
  | set k value =>
    have accepted : c.set now k value = ((c.set now k value).1, .ok ()) :=
      Prod.ext rfl (set_unlimited unlimited now k value).2
    simp only [Cache.call]
    rw [accepted]
    rfl
  | get k =>
    obtain rfl := Option.some.inj names
    exact congrArg CacheReply.entry (c.get_snd k)
  | getItem k =>
    obtain rfl := Option.some.inj names
    exact congrArg (fun found : Option (Entry α) => CacheReply.item (found.map Entry.item))
      (c.get_snd k)
  | delete k => rfl
  | flush => cases names
  | size => cases names
  | isEmpty => cases names

theorem counters_call (unlimited : c.limit = none) (now : Instant) {key : String}
    {call : CacheCall α} (names : call.key? = some key) :
    (c.call now call).1.counters = call.countersAfter (c.entries.find? key) c.counters := by
  have looked : (c.get key).1.counters =
      if (c.entries.find? key).isSome then c.counters.recordHit else c.counters.recordMiss := by
    rcases c.get_cases key with ⟨_, found, eq⟩ | ⟨found, eq⟩
    · rw [eq, found]
      rfl
    · rw [eq, found]
      rfl
  rw [call_fst]
  cases call with
  | set k value =>
    show (c.set now k value).1.counters = c.counters
    rcases c.set_cases k with present | ⟨absent, room⟩ | ⟨_, limit, hl, _⟩
    · rw [set_of_contains present]
    · rw [set_of_hasRoom absent room]
    · rw [unlimited] at hl
      cases hl
  | get k =>
    obtain rfl := Option.some.inj names
    exact looked
  | getItem k =>
    obtain rfl := Option.some.inj names
    exact looked
  | delete k =>
    show (c.delete k).counters = c.counters
    unfold delete
    split <;> rfl
  | flush => cases names
  | size => cases names
  | isEmpty => cases names

theorem call_frame (c : Cache α) (now : Instant) (call : CacheCall α) :
    (c.call now call).1.limit = c.limit ∧ (c.call now call).1.policy = c.policy := by
  obtain ⟨_, _, _, frame⟩ := c.applyAll_frame (call.ops now)
  rw [call_fst, frame]
  exact ⟨rfl, rfl⟩

end Cache

/-- A table with distinct keys, read as a map. -/
def EntryMap.ofTable {α : Type} (table : Keyed (Entry α)) : EntryMap α where
  keys := table.keys.toFinset
  at? := table.find?
  mem_keys key := by
    rw [List.mem_toFinset, ← Keyed.contains_iff_mem_keys]
    rfl

namespace Cache

variable {α : Type} {c : Cache α}

/-- Two calls on different keys may be made in either order. They are told the same, what is under
any key comes out the same, and so do the slots, the statistics and the replies to all later
calls. -/
theorem calls_commute (unlimited : c.limit = none) (count : c.Accounted) {a b : CacheCall α}
    {x y : String} (names : a.key? = some x) (names' : b.key? = some y) (ne : x ≠ y)
    (now now' : Instant) :
    let ab := (c.call now a).1.call now' b
    let ba := (c.call now' b).1.call now a
    (c.call now a).2 = ba.2 ∧ ab.2 = (c.call now' b).2 ∧
      (∀ key, ab.1.entries.find? key = ba.1.entries.find? key) ∧
      ab.1.slots = ba.1.slots ∧ ab.1.stats = ba.1.stats ∧
      ∀ calls, ab.1.replies calls = ba.1.replies calls := by
  intro ab ba
  have kept : ∀ {d : Cache α} (at_ : Instant) (call : CacheCall α), d.Accounted →
      (d.call at_ call).1.Accounted := by
    intro d at_ call count
    rw [call_fst]
    exact count.applyAll _
  obtain ⟨limit_a, policy_a⟩ := c.call_frame now a
  obtain ⟨limit_b, policy_b⟩ := c.call_frame now' b
  obtain ⟨limit_ab, policy_ab⟩ := (c.call now a).1.call_frame now' b
  obtain ⟨limit_ba, policy_ba⟩ := (c.call now' b).1.call_frame now a
  have unlimited_a := limit_a.trans unlimited
  have unlimited_b := limit_b.trans unlimited
  have count_a := kept now a count
  have count_b := kept now' b count
  have count_ab : ab.1.Accounted := kept now' b count_a
  have count_ba : ba.1.Accounted := kept now a count_b
  have at_x : (c.call now' b).1.entries.find? x = c.entries.find? x := by
    rw [find?_call unlimited count.nodup_keys, CacheCall.entryAfter_other names' ne.symm]
  have at_y : (c.call now a).1.entries.find? y = c.entries.find? y := by
    rw [find?_call unlimited count.nodup_keys, CacheCall.entryAfter_other names ne]
  have entries : ∀ key, ab.1.entries.find? key = ba.1.entries.find? key := by
    intro key
    rw [find?_call unlimited_a count_a.nodup_keys, find?_call unlimited count.nodup_keys,
      find?_call unlimited_b count_b.nodup_keys, find?_call unlimited count.nodup_keys, policy_a,
      policy_b]
    by_cases mine : x = key
    · have others : y ≠ key := fun same => ne (mine.trans same.symm)
      rw [CacheCall.entryAfter_other names' others, CacheCall.entryAfter_other names' others]
    · rw [CacheCall.entryAfter_other names mine, CacheCall.entryAfter_other names mine]
  have counters : ab.1.counters = ba.1.counters := by
    rw [counters_call unlimited_a now' names', counters_call unlimited now names, at_y,
      counters_call unlimited_b now names, counters_call unlimited now' names', at_x]
    exact CacheCall.countersAfter_comm ..
  have reads : (EntryMap.ofTable ab.1.entries).Reads ab.1.entries :=
    ⟨count_ab.nodup_keys, fun _ => rfl⟩
  have reads' : (EntryMap.ofTable ab.1.entries).Reads ba.1.entries :=
    ⟨count_ba.nodup_keys, fun key => (entries key).symm⟩
  have length : ab.1.entries.length = ba.1.entries.length := reads.length_eq.trans
    reads'.length_eq.symm
  refine ⟨?_, ?_, entries, ?_, ?_, fun calls => ?_⟩
  · rw [told_call unlimited now names, told_call unlimited_b now names, at_x]
  · rw [told_call unlimited_a now' names', told_call unlimited now' names', at_y]
  · rw [count_ab.slots_eq, count_ba.slots_eq, length]
  · rw [stats, stats, counters, size, size, length]
  · rw [replies_of_reads count_ab reads, replies_of_reads count_ba reads']
    have policy : ab.1.policy = ba.1.policy := by rw [policy_ab, policy_a, policy_ba, policy_b]
    have limit : ab.1.limit = ba.1.limit := by rw [limit_ab, limit_a, limit_ba, limit_b]
    rw [policy, limit]

end Cache

end WarmCache
