import Mathlib.Data.Finset.Card
import WarmCache.Proofs.Slots
import WarmCache.Session.Run

/-!
# The cache as a finite map

A cache answers its callers as a plain finite map would that has no count of slots and asks for
its own size instead.

Results:
1. `EntryMap.Reads.call`: one call is answered alike, and what it leaves reads alike.
2. `Cache.replies_of_reads`: hence all calls are.
3. `EntryMap.replies_fresh`: as many new keys fit as there is room for.
4. `replies_eq_entryMap`: what follows for a new cache, with any limit and by any settings.
-/

namespace WarmCache

/-! ## Calls -/

/-- A call of a caller of the cache. -/
inductive CacheCall (α : Type) where
  | set (key : String) (value : Value α)
  | get (key : String)
  | getItem (key : String)
  | delete (key : String)
  | flush
  | size
  | isEmpty

/-- What a caller is told. -/
inductive CacheReply (α : Type) where
  | done
  | refused (e : CacheError)
  | entry (found : Option (Entry α))
  | item (found : Option α)
  | count (n : Nat)
  | flag (b : Bool)

namespace Cache

variable {α : Type}

/-- Answers a call at `now`. -/
def call (c : Cache α) (now : Instant) : CacheCall α → Cache α × CacheReply α
  | .set key value =>
    match c.set now key value with
    | (c, .ok ()) => (c, .done)
    | (c, .error e) => (c, .refused e)
  | .get key =>
    let (c, found) := c.get key
    (c, .entry found)
  | .getItem key =>
    let (c, found) := c.getItem key
    (c, .item found)
  | .delete key => (c.delete key, .done)
  | .flush =>
    let (c, removed) := c.flush now
    (c, .count removed)
  | .size => (c, .count c.size)
  | .isEmpty => (c, .flag c.isEmpty)

/-- The replies to calls in order, each with the instant that the clock shows by then. -/
def replies (c : Cache α) : List (Instant × CacheCall α) → List (CacheReply α)
  | [] => []
  | (now, call) :: rest =>
    let (c, reply) := c.call now call
    reply :: c.replies rest

end Cache

/-! ## Maps -/

/-- A plain finite map of entries: what is under each key, and the keys under which something
is. -/
structure EntryMap (α : Type) where
  keys : Finset String
  at? : String → Option (Entry α)
  mem_keys : ∀ key, key ∈ keys ↔ (at? key).isSome = true

namespace EntryMap

variable {α : Type}

/-- Nothing under any key. -/
def empty : EntryMap α := ⟨∅, fun _ => none, by simp⟩

/-- The number of keys. -/
def size (m : EntryMap α) : Nat := m.keys.card

/-- The map with an entry under a key, whatever was there. -/
def put (m : EntryMap α) (key : String) (e : Entry α) : EntryMap α where
  keys := insert key m.keys
  at? := Function.update m.at? key (some e)
  mem_keys other := by
    by_cases h : other = key <;> simp [h, m.mem_keys]

/-- The map with nothing under a key. -/
def erase (m : EntryMap α) (key : String) : EntryMap α where
  keys := m.keys.erase key
  at? := Function.update m.at? key none
  mem_keys other := by
    by_cases h : other = key <;> simp [h, m.mem_keys]

/-- The map with those entries only that pass a test. -/
def filter (m : EntryMap α) (p : Entry α → Bool) : EntryMap α where
  keys := m.keys.filter fun key => (m.at? key).any p = true
  at? key := (m.at? key).filter p
  mem_keys key := by
    rw [Finset.mem_filter, m.mem_keys]
    cases m.at? key with
    | none => simp
    | some e => cases h : p e <;> simp [Option.filter, h]

/-- Answers a call at `now`. A new key is refused if there are as many keys as the limit allows. -/
def call (m : EntryMap α) (policy : ExpiryPolicy) (limit : Option Nat) (now : Instant) :
    CacheCall α → EntryMap α × CacheReply α
  | .set key value =>
    let e : Entry α := ⟨value.item, value.expires.getD (policy.expiryFrom now), value.refresh⟩
    if key ∈ m.keys then (m.put key e, .done)
    else
      match limit with
      | none => (m.put key e, .done)
      | some l =>
        if m.size < l then (m.put key e, .done) else (m, .refused (.capacityExceeded l))
  | .get key => (m, .entry (m.at? key))
  | .getItem key => (m, .item ((m.at? key).map Entry.item))
  | .delete key => (m.erase key, .done)
  | .flush =>
    (m.filter fun e => !decide (e.expires < now),
      .count (m.filter fun e => decide (e.expires < now)).size)
  | .size => (m, .count m.size)
  | .isEmpty => (m, .flag (m.size == 0))

/-- The replies to calls in order. -/
def replies (m : EntryMap α) (policy : ExpiryPolicy) (limit : Option Nat) :
    List (Instant × CacheCall α) → List (CacheReply α)
  | [] => []
  | (now, call) :: rest =>
    let (m, reply) := m.call policy limit now call
    reply :: m.replies policy limit rest

/-! ## Tables that read as maps -/

/-- A table of distinct keys reads as a map if it has the same under every key. -/
structure Reads (m : EntryMap α) (table : Keyed (Entry α)) : Prop where
  nodup_keys : table.keys.Nodup
  find?_eq : ∀ key, table.find? key = m.at? key

namespace Reads

variable {m : EntryMap α} {table : Keyed (Entry α)}

theorem nil : Reads (empty : EntryMap α) [] := ⟨List.nodup_nil, fun _ => rfl⟩

theorem contains_iff (h : m.Reads table) (key : String) :
    table.contains key = true ↔ key ∈ m.keys := by
  rw [Keyed.contains, h.find?_eq, m.mem_keys]

theorem length_eq (h : m.Reads table) : table.length = m.size := by
  have same : table.keys.toFinset = m.keys := by
    ext key
    rw [List.mem_toFinset, ← Keyed.contains_iff_mem_keys, h.contains_iff]
  rw [size, ← same, List.toFinset_card_of_nodup h.nodup_keys, Keyed.length_keys]

theorem put (h : m.Reads table) (key : String) (e : Entry α) :
    (m.put key e).Reads (table.put key e) := by
  refine ⟨Keyed.nodup_keys_put key e h.nodup_keys, fun other => ?_⟩
  by_cases same : other = key
  · rw [same, Keyed.find?_put_self]
    exact (Function.update_self key (some e) m.at?).symm
  · rw [Keyed.find?_put_other _ _ same, h.find?_eq]
    exact (Function.update_of_ne same (some e) m.at?).symm

theorem filter (h : m.Reads table) (p : Entry α → Bool) :
    (m.filter p).Reads (table.filter fun pair => p pair.2) := by
  refine ⟨Keyed.nodup_keys_filter _ h.nodup_keys, fun key => ?_⟩
  rw [Keyed.find?_filter _ key h.nodup_keys, h.find?_eq]
  rfl

theorem remove (h : m.Reads table) (key : String) : (m.erase key).Reads (table.remove key) := by
  refine ⟨Keyed.nodup_keys_remove key h.nodup_keys, fun other => ?_⟩
  by_cases same : other = key
  · rw [same, Keyed.find?_remove_self _ _ h.nodup_keys]
    exact (Function.update_self key none m.at?).symm
  · rw [Keyed.find?_remove_other _ same, h.find?_eq]
    exact (Function.update_of_ne same none m.at?).symm

theorem of_absent (h : m.Reads table) {key : String} (absent : table.contains key = false) :
    (m.erase key).Reads table := by
  have same := h.remove key
  rw [Keyed.remove_of_not_contains absent] at same
  exact same

end Reads

end EntryMap

/-! ## Calls are answered alike -/

/-- The operations on the entries that a call comes to. -/
def CacheCall.ops {α : Type} (now : Instant) : CacheCall α → List (CacheOp α)
  | .set key value => [.set now key value]
  | .get key => [.get key]
  | .getItem key => [.get key]
  | .delete key => [.delete key]
  | .flush => [.flush now]
  | .size => []
  | .isEmpty => []

namespace Cache

variable {α : Type}

theorem call_fst (c : Cache α) (now : Instant) (call : CacheCall α) :
    (c.call now call).1 = c.applyAll (call.ops now) := by
  cases call with
  | set key value =>
    rcases c.set_cases key with present | ⟨absent, room⟩ | ⟨absent, limit, hl, full⟩
    · simp only [Cache.call, CacheCall.ops, applyAll, List.foldl, apply, set_of_contains present]
    · simp only [Cache.call, CacheCall.ops, applyAll, List.foldl, apply, set_of_hasRoom absent room]
    · simp only [Cache.call, CacheCall.ops, applyAll, List.foldl, apply,
        set_of_full absent hl full]
  | _ => rfl

/-- A set is answered as by a map, which asks for its size where the cache asks for its count. -/
theorem reads_set {c : Cache α} {m : EntryMap α} (h : c.Accounted) (reads : m.Reads c.entries)
    (now : Instant) (key : String) (value : Value α) :
    (c.call now (.set key value)).2 = (m.call c.policy c.limit now (.set key value)).2 ∧
      (m.call c.policy c.limit now (.set key value)).1.Reads
        (c.call now (.set key value)).1.entries := by
  have count : c.slots = m.size := by rw [h.slots_eq, reads.length_eq]
  have written : Entry.stamp (c.expiryFrom now) value =
    ⟨value.item, value.expires.getD (c.policy.expiryFrom now), value.refresh⟩ := rfl
  unfold Cache.call EntryMap.call
  simp only
  rcases c.set_cases key with present | ⟨absent, room⟩ | ⟨absent, l, hl, full⟩
  · rw [set_of_contains present, if_pos ((reads.contains_iff key).1 present)]
    exact ⟨rfl, reads.put key _⟩
  · have new : key ∉ m.keys := by
      rw [← reads.contains_iff, absent]
      exact Bool.false_ne_true
    rw [set_of_hasRoom absent room, if_neg new]
    cases hl : c.limit with
    | none => exact ⟨rfl, reads.put key _⟩
    | some l =>
      have free := room l hl
      have below : m.size < l := by omega
      simp only [below, if_true]
      exact ⟨trivial, reads.put key _⟩
  · have new : key ∉ m.keys := by
      rw [← reads.contains_iff, absent]
      exact Bool.false_ne_true
    have above : ¬ m.size < l := by omega
    rw [set_of_full absent hl full, if_neg new, hl]
    simp only [above, if_false]
    exact ⟨trivial, reads⟩

/-- One call of any kind is answered as by a map, and leaves what reads as the map it leaves. -/
theorem reads_call {c : Cache α} {m : EntryMap α} (h : c.Accounted) (reads : m.Reads c.entries)
    (now : Instant) (call : CacheCall α) :
    (c.call now call).2 = (m.call c.policy c.limit now call).2 ∧
      (m.call c.policy c.limit now call).1.Reads (c.call now call).1.entries := by
  cases call with
  | set key value => exact reads_set h reads now key value
  | get key =>
    refine ⟨?_, by rw [Cache.call, c.get_entries]; exact reads⟩
    exact congrArg CacheReply.entry ((c.get_snd key).trans (reads.find?_eq key))
  | getItem key =>
    refine ⟨?_, by rw [Cache.call, getItem, c.get_entries]; exact reads⟩
    have found := (c.get_snd key).trans (reads.find?_eq key)
    exact congrArg (fun e : Option (Entry α) => CacheReply.item (e.map Entry.item)) found
  | delete key =>
    refine ⟨rfl, ?_⟩
    cases hc : c.entries.contains key with
    | true =>
      rw [Cache.call, delete_of_contains hc]
      exact reads.remove key
    | false =>
      rw [Cache.call, delete_of_not_contains hc]
      exact reads.of_absent hc
  | flush =>
    refine ⟨?_, reads.filter fun e => !decide (e.expires < now)⟩
    have expired := (reads.filter fun e => decide (e.expires < now)).length_eq
    exact congrArg CacheReply.count expired
  | size => exact ⟨congrArg CacheReply.count reads.length_eq, reads⟩
  | isEmpty =>
    refine ⟨congrArg CacheReply.flag ?_, reads⟩
    rw [← reads.length_eq, isEmpty]
    cases c.entries <;> rfl

/-- Calls in any number and at any instants are answered as by a map. -/
theorem replies_of_reads {c : Cache α} {m : EntryMap α} (h : c.Accounted)
    (reads : m.Reads c.entries) (calls : List (Instant × CacheCall α)) :
    c.replies calls = m.replies c.policy c.limit calls := by
  induction calls generalizing c m with
  | nil => rfl
  | cons head rest ih =>
    obtain ⟨now, call⟩ := head
    obtain ⟨reply, after⟩ := reads_call h reads now call
    have kept : (c.call now call).1.Accounted := by
      rw [call_fst]
      exact h.applyAll _
    obtain ⟨_, _, _, frame⟩ := c.applyAll_frame (call.ops now)
    have policy : (c.call now call).1.policy = c.policy := by rw [call_fst, frame]
    have limit : (c.call now call).1.limit = c.limit := by rw [call_fst, frame]
    have later := ih kept after
    rw [policy, limit] at later
    show (c.call now call).2 :: (c.call now call).1.replies rest =
      (m.call c.policy c.limit now call).2 ::
        (m.call c.policy c.limit now call).1.replies c.policy c.limit rest
    rw [reply, later]

end Cache

/-! ## Room for new keys -/

namespace EntryMap

variable {α : Type}

theorem call_unlimited (m : EntryMap α) (policy : ExpiryPolicy) (now : Instant)
    (call : CacheCall α) (e : CacheError) : (m.call policy none now call).2 ≠ .refused e := by
  cases call with
  | set key value =>
    simp only [EntryMap.call]
    by_cases present : key ∈ m.keys
    · rw [if_pos present]
      intro same
      cases same
    · rw [if_neg present]
      intro same
      cases same
  | _ =>
    intro same
    cases same

theorem replies_unlimited (m : EntryMap α) (policy : ExpiryPolicy)
    (calls : List (Instant × CacheCall α)) :
    ∀ reply ∈ m.replies policy none calls, ∀ e, reply ≠ .refused e := by
  induction calls generalizing m with
  | nil => exact nofun
  | cons head rest ih =>
    intro reply hr e
    rcases List.mem_cons.1 hr with rfl | later
    · exact m.call_unlimited policy head.1 head.2 e
    · exact ih _ reply later e

/-- The calls that set these keys one after the other. -/
def setAll (sets : List (Instant × String × Value α)) : List (Instant × CacheCall α) :=
  sets.map fun x => (x.1, .set x.2.1 x.2.2)

/-- Of distinct new keys the first ones are taken, as many as there is room for, and all others
are refused. -/
theorem replies_fresh (m : EntryMap α) (policy : ExpiryPolicy) (l : Nat)
    {sets : List (Instant × String × Value α)} (nodup : (sets.map fun x => x.2.1).Nodup)
    (absent : ∀ x ∈ sets, x.2.1 ∉ m.keys) :
    m.replies policy (some l) (setAll sets) =
      List.replicate (min sets.length (l - m.size)) .done ++
        List.replicate (sets.length - (l - m.size)) (.refused (.capacityExceeded l)) := by
  induction sets generalizing m with
  | nil => simp only [setAll, List.map_nil, replies, List.length_nil, Nat.zero_min,
      Nat.zero_sub, List.replicate_zero, List.append_nil]
  | cons head rest ih =>
    obtain ⟨now, key, value⟩ := head
    rw [List.map_cons, List.nodup_cons] at nodup
    have new : key ∉ m.keys := absent _ List.mem_cons_self
    have later : ∀ x ∈ rest, x.2.1 ∉ m.keys := fun x hx => absent x (List.mem_cons_of_mem _ hx)
    have others : ∀ x ∈ rest, x.2.1 ≠ key := fun x hx same =>
      nodup.1 (List.mem_map.2 ⟨x, hx, same⟩)
    generalize entry : (⟨value.item, value.expires.getD (policy.expiryFrom now),
      value.refresh⟩ : Entry α) = e
    by_cases below : m.size < l
    · have taken : m.call policy (some l) now (.set key value) = (m.put key e, .done) := by
        simp only [EntryMap.call, new, below, if_false, if_true, entry]
      have grown : (m.put key e).size = m.size + 1 := Finset.card_insert_of_notMem new
      have tail := ih (m.put key e) nodup.2 fun x hx inside => by
        rcases Finset.mem_insert.1 inside with same | old
        · exact others x hx same
        · exact later x hx old
      show (m.call policy (some l) now (.set key value)).2 ::
        (m.call policy (some l) now (.set key value)).1.replies policy (some l) (setAll rest) = _
      have first : min (rest.length + 1) (l - m.size) =
        min rest.length (l - (m.size + 1)) + 1 := by omega
      have left : rest.length + 1 - (l - m.size) = rest.length - (l - (m.size + 1)) := by omega
      rw [taken, tail, grown, List.length_cons, first, left, List.replicate_succ,
        List.cons_append]
    · have refused : m.call policy (some l) now (.set key value) =
          (m, .refused (.capacityExceeded l)) := by
        simp only [EntryMap.call, new, below, if_false]
      have tail := ih m nodup.2 later
      show (m.call policy (some l) now (.set key value)).2 ::
        (m.call policy (some l) now (.set key value)).1.replies policy (some l) (setAll rest) = _
      have none : l - m.size = 0 := by omega
      rw [none, Nat.min_zero, Nat.sub_zero] at tail
      rw [refused, tail, none, Nat.min_zero, Nat.sub_zero, List.length_cons,
        List.replicate_succ, List.replicate_zero, List.nil_append, List.nil_append]

end EntryMap

/-! ## New caches -/

namespace Cache

theorem replies_new {α : Type} (policy : ExpiryPolicy) (limit : Option Nat)
    (calls : List (Instant × CacheCall α)) :
    (new policy limit : Cache α).replies calls = EntryMap.empty.replies policy limit calls :=
  replies_of_reads (.new policy limit) .nil calls

end Cache

/-- A new cache answers any calls as a plain map does, whatever its limit and lifetime and however
the clock moves. Settings with a negative limit make a cache without one, and then no set is ever
refused; with any other limit exactly that many distinct new keys fit. -/
theorem replies_eq_entryMap {α : Type} (policy : ExpiryPolicy) (limit : Option Nat)
    (calls : List (Instant × CacheCall α)) (settings : Settings) (hasRuntime : Bool) :
    (Cache.new policy limit : Cache α).replies calls =
        EntryMap.empty.replies policy limit calls ∧
      (Session.ofSettings settings hasRuntime).cache = .new (.ofTtl settings.ttl)
        (if settings.limit < 0 then none else some settings.limit.toNat) ∧
      (settings.limit < 0 → ∀ calls,
        ∀ reply ∈ (Session.ofSettings settings hasRuntime).cache.replies calls,
          ∀ e, reply ≠ .refused e) ∧
      ∀ l : Nat, settings.limit = l → ∀ sets : List (Instant × String × Value Int),
        (sets.map fun x => x.2.1).Nodup →
        (Session.ofSettings settings hasRuntime).cache.replies (EntryMap.setAll sets) =
          List.replicate (min sets.length l) .done ++
            List.replicate (sets.length - l) (.refused (.capacityExceeded l)) := by
  have built : (Session.ofSettings settings hasRuntime).cache =
    .new (.ofTtl settings.ttl) settings.capacityLimit := rfl
  refine ⟨Cache.replies_new policy limit calls, rfl, fun negative calls reply hr e => ?_,
    fun l hl sets nodup => ?_⟩
  · rw [built, settings.capacityLimit_eq_none_iff.2 negative, Cache.replies_new] at hr
    exact EntryMap.replies_unlimited _ _ calls reply hr e
  · have limited : settings.capacityLimit = some l := by
      rw [Settings.capacityLimit, hl, if_neg (Int.not_lt.2 (Int.natCast_nonneg l)),
        Int.toNat_natCast]
    rw [built, limited, Cache.replies_new]
    exact EntryMap.replies_fresh .empty _ l nodup fun _ _ => Finset.notMem_empty _

end WarmCache
