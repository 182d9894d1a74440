import Mathlib.Data.List.Perm.Subperm
import Mathlib.Data.List.Pairwise
import WarmCache.Proofs.Replacing
import WarmCache.Proofs.Turns

/-!
# The balance of slots between threads

The slots of all shards are counted together, while each shard has a lock of its own. So sets and
removals in different shards come between one another's steps, and the count of slots runs ahead
of the entries by what sets have reserved and not yet put in, and behind them by what removals
have given back and not yet taken out. Locks are what makes this add up: what a thread saw of its
shard stays so until it acts on it.

Results:
1. `Thread.Moves.keeps`: what a step does to the entries and to the slots.
2. `Sharded.Balanced.turn`, `Sharded.balanced_run`: the balance holds after every turn of every
   schedule.
3. `Sharded.Balanced.slots_nonneg`: no more slots are given back than there are entries.
-/

namespace WarmCache

variable {α : Type}

namespace Thread

/-- The shard whose lock a thread holds. -/
def holding (shardOf : String → Nat) (t : Thread α) : Option Nat :=
  match t.point with
  | .outside => none
  | _ => t.calls.head?.map fun call => call.shard shardOf

/-- A thread has reserved a slot for an entry that is not in yet. -/
def isReserving (t : Thread α) : Bool :=
  match t.point with
  | .reserved _ _ => true
  | _ => false

/-- The key of the entry whose slot a thread has given back and which is not out yet. -/
def parting? (t : Thread α) : Option String :=
  match t.point with
  | .released key => some key
  | _ => none

/-- What a thread saw of the entries is still so. -/
def Sees (shardOf : String → Nat) (entries : Keyed (Entry α)) (t : Thread α) : Prop :=
  match t.point with
  | .occupied key => t.holding shardOf = some (shardOf key) ∧ entries.contains key = true
  | .vacant => ∀ key e, t.calls.head? = some (.set key e) → entries.contains key = false
  | .reserved key e => t.calls.head? = some (.set key e) ∧ entries.contains key = false
  | .released key => t.holding shardOf = some (shardOf key) ∧ entries.contains key = true
  | _ => True

/-- A thread only looks at the shard whose lock it holds. -/
theorem Sees.frame {shardOf : String → Nat} {entries entries' : Keyed (Entry α)} {t : Thread α}
    (h : t.Sees shardOf entries)
    (same : ∀ key, t.holding shardOf = some (shardOf key) →
      entries'.contains key = entries.contains key) : t.Sees shardOf entries' := by
  obtain ⟨calls, point, removed, replies⟩ := t
  cases point with
  | occupied key => exact ⟨h.1, (same key h.1).trans h.2⟩
  | released key => exact ⟨h.1, (same key h.1).trans h.2⟩
  | vacant =>
    intro key e head
    have inside : (Thread.mk calls .vacant removed replies).holding shardOf =
        some (shardOf key) := congrArg (Option.map _) head
    exact (same key inside).trans (h key e head)
  | reserved key e =>
    have inside : (Thread.mk calls (.reserved key e) removed replies).holding shardOf =
        some (shardOf key) := congrArg (Option.map _) h.1
    exact ⟨h.1, (same key inside).trans h.2⟩
  | _ => trivial

/-- What a step of one thread does to the entries and to the slots, as the others see it. -/
structure Keeps (shardOf : String → Nat) (s s' : Shared α) (t t' : Thread α) : Prop where
  nodup_keys : s'.entries.keys.Nodup
  limit_eq : s'.limit = s.limit
  /-- Other shards stay as they are. -/
  frame : ∀ key, t.holding shardOf ≠ some (shardOf key) →
    s'.entries.contains key = s.entries.contains key
  sees : t'.Sees shardOf s'.entries
  /-- What the slots gain on the entries is what the thread reserves more or gives back less. -/
  balance : s'.slots + t'.parting?.toList.length + s.entries.length + t.isReserving.toNat =
    s.slots + t.parting?.toList.length + s'.entries.length + t'.isReserving.toNat
  slots_le : ∀ l : Nat, s.limit = some l → s.slots ≤ l → s'.slots ≤ l

/-- A step that leaves the entries and the slots alone. -/
theorem Keeps.of_same {shardOf : String → Nat} {s s' : Shared α} {t t' : Thread α}
    (nodup : s.entries.keys.Nodup) (entries : s'.entries = s.entries) (slots : s'.slots = s.slots)
    (limit : s'.limit = s.limit) (sees : t'.Sees shardOf s.entries)
    (parting : t'.parting? = t.parting?) (reserving : t'.isReserving = t.isReserving) :
    Keeps shardOf s s' t t' := by
  refine ⟨?_, limit, fun key _ => ?_, ?_, ?_, fun l _ le => ?_⟩
  · rw [entries]
    exact nodup
  · rw [entries]
  · rw [entries]
    exact sees
  · rw [entries, slots, parting, reserving]
  · rw [slots]
    exact le

end Thread

namespace Shared

theorem isLocked_iff {s : Shared α} {shard : Nat} :
    s.isLocked shard = true ↔ shard ∈ s.locks.map Prod.fst := by
  simp only [isLocked, List.any_eq_true, List.mem_map, beq_iff_eq]

theorem isLocked_lock {s : Shared α} {shard other id : Nat} :
    (s.lock shard id).isLocked other = true ↔ other = shard ∨ s.isLocked other = true := by
  simp only [isLocked_iff, lock, List.map_cons, List.mem_cons]

theorem isLocked_unlock {s : Shared α} {shard other : Nat} :
    (s.unlock shard).isLocked other = true ↔ other ≠ shard ∧ s.isLocked other = true := by
  simp only [isLocked_iff, unlock, List.mem_map, List.mem_filter, bne_iff_ne]
  constructor
  · rintro ⟨lock, ⟨present, kept⟩, rfl⟩
    exact ⟨kept, lock, present, rfl⟩
  · rintro ⟨kept, lock, present, rfl⟩
    exact ⟨lock, ⟨present, kept⟩, rfl⟩

/-- A key in one shard is as it was when an entry of another is written. -/
theorem contains_put_other {s : Shared α} {key other : String} (e : Entry α) (h : other ≠ key) :
    (s.put key e).entries.contains other = s.entries.contains other :=
  congrArg Option.isSome (Keyed.find?_put_other s.entries e h)

theorem contains_remove_other {s : Shared α} {key other : String} (h : other ≠ key) :
    (s.remove key).entries.contains other = s.entries.contains other :=
  congrArg Option.isSome (Keyed.find?_remove_other s.entries h)

theorem slots_lt_of_hasFreeSlot {s : Shared α} (h : s.hasFreeSlot = true) {l : Nat}
    (hl : s.limit = some l) : s.slots < l := by
  simpa only [hasFreeSlot, hl, decide_eq_true_eq] using h

theorem le_slots_of_not_hasFreeSlot {s : Shared α} (h : s.hasFreeSlot = false) :
    ∃ l : Nat, s.limit = some l ∧ l ≤ s.slots := by
  unfold hasFreeSlot at h
  split at h
  · next l hl => exact ⟨l, hl, Int.not_lt.1 (of_decide_eq_false h)⟩
  · cases h

end Shared

namespace Thread

variable {shardOf : String → Nat} {id : Nat} {s s' : Shared α} {t t' : Thread α}
  {call : ShardCall α} {rest : List (ShardCall α)}

theorem Keeps.of_put {key : String} (nodup : s.entries.keys.Nodup) (e : Entry α)
    (inside : t.holding shardOf = some (shardOf key)) (sees : t'.Sees shardOf (s.put key e).entries)
    (balance : t'.parting?.toList.length + s.entries.length + t.isReserving.toNat =
      t.parting?.toList.length + (s.put key e).entries.length + t'.isReserving.toNat) :
    Keeps shardOf s (s.put key e) t t' := by
  refine ⟨Keyed.nodup_keys_put key e nodup, rfl, fun other outside => ?_, sees, ?_,
    fun l _ le => le⟩
  · refine Shared.contains_put_other e ?_
    rintro rfl
    exact outside inside
  · show s.slots + _ + _ + _ = s.slots + _ + _ + _
    omega

theorem Keeps.of_remove {key : String} (nodup : s.entries.keys.Nodup)
    (inside : t.holding shardOf = some (shardOf key)) (present : s.entries.contains key = true)
    (parting : t.parting? = some key) (reserving : t'.isReserving = t.isReserving)
    (sees : t'.Sees shardOf (s.remove key).entries) (gone : t'.parting? = none) :
    Keeps shardOf s (s.remove key) t t' := by
  refine ⟨Keyed.nodup_keys_remove key nodup, rfl, fun other outside => ?_, sees, ?_,
    fun l _ le => le⟩
  · refine Shared.contains_remove_other ?_
    rintro rfl
    exact outside inside
  · have fewer : (s.remove key).entries.length + 1 = s.entries.length :=
      Keyed.length_remove_of_contains s.entries key present
    rw [parting, reserving, gone]
    show s.slots + (0 : Nat) + _ + _ = s.slots + (1 : Nat) + _ + _
    omega

/-- A step keeps the keys distinct and leaves other shards alone, and the slots gain on the
entries what the thread takes in hand. -/
theorem Moves.keeps (moves : t.Moves shardOf id s call rest s' t') (calls : t.calls = call :: rest)
    (nodup : s.entries.keys.Nodup) (seen : t.Sees shardOf s.entries) :
    t.Keeps shardOf s s' t' := by
  obtain ⟨todo, point, removed, replies⟩ := t
  obtain rfl : todo = call :: rest := calls
  cases moves with
  | enters at_point free =>
    obtain rfl : point = .outside := at_point
    exact .of_same nodup rfl rfl rfl trivial rfl rfl
  | @finds key at_point target =>
    obtain rfl : point = .entered := at_point
    obtain ⟨present, shard⟩ := ShardCall.target?_eq_some target
    exact .of_same nodup rfl rfl rfl ⟨congrArg some shard, present⟩ rfl rfl
  | misses at_point target =>
    obtain rfl : point = .entered := at_point
    refine .of_same nodup rfl rfl rfl (fun key e head => ?_) rfl rfl
    obtain rfl : call = .set key e := Option.some.inj head
    exact ShardCall.contains_of_target?_eq_none target
  | @overwrites key e at_point _ =>
    obtain rfl : point = .occupied key := at_point
    refine .of_put nodup e seen.1 trivial ?_
    have same : (s.put key e).entries.length = s.entries.length :=
      Keyed.length_put_of_contains s.entries key e seen.2
    rw [same]
    rfl
  | @releases key at_point _ =>
    obtain rfl : point = .occupied key := at_point
    refine ⟨nodup, rfl, fun _ _ => rfl, seen, ?_, fun l _ le => ?_⟩
    · show s.slots - 1 + (1 : Nat) + s.entries.length + (0 : Nat) =
        s.slots + (0 : Nat) + s.entries.length + (0 : Nat)
      omega
    · show s.slots - 1 ≤ l
      omega
  | @reserves key e at_point set free =>
    obtain rfl : point = .vacant := at_point
    have absent := seen key e (congrArg some set)
    refine ⟨nodup, rfl, fun _ _ => rfl, ⟨congrArg some set, absent⟩, ?_, fun l hl _ => ?_⟩
    · show s.slots + 1 + (0 : Nat) + s.entries.length + (0 : Nat) =
        s.slots + (0 : Nat) + s.entries.length + (1 : Nat)
      omega
    · exact Shared.slots_lt_of_hasFreeSlot free hl
  | rejects at_point _ _ =>
    obtain rfl : point = .vacant := at_point
    exact .of_same nodup rfl rfl rfl trivial rfl rfl
  | passes at_point _ =>
    obtain rfl : point = .vacant := at_point
    exact .of_same nodup rfl rfl rfl trivial rfl rfl
  | @inserts key e at_point =>
    obtain rfl : point = .reserved key e := at_point
    refine .of_put nodup e (congrArg (Option.map _) seen.1) trivial ?_
    have more : (s.put key e).entries.length = s.entries.length + 1 :=
      Keyed.length_put_of_not_contains s.entries key e seen.2
    rw [more]
    show 0 + s.entries.length + 1 = 0 + (s.entries.length + 1) + 0
    omega
  | @deletes key at_point =>
    obtain rfl : point = .released key := at_point
    exact .of_remove nodup seen.1 seen.2 rfl rfl trivial rfl
  | @flushes key shard now at_point _ =>
    obtain rfl : point = .released key := at_point
    exact .of_remove nodup seen.1 seen.2 rfl rfl trivial rfl
  | @leaves reply at_point =>
    obtain rfl : point = .leaving reply := at_point
    exact .of_same nodup rfl rfl rfl trivial rfl rfl

/-- Between the first step and the last of a call, a thread keeps the lock that it holds. -/
theorem Moves.locks (moves : t.Moves shardOf id s call rest s' t')
    (calls : t.calls = call :: rest) :
    (t.holding shardOf = none ∧ t'.holding shardOf = some (call.shard shardOf) ∧
        s.isLocked (call.shard shardOf) = false ∧ s' = s.lock (call.shard shardOf) id) ∨
      (t.holding shardOf = some (call.shard shardOf) ∧ t'.holding shardOf = none ∧
        s' = s.unlock (call.shard shardOf)) ∨
      (t'.holding shardOf = t.holding shardOf ∧ s'.locks = s.locks) := by
  obtain ⟨todo, point, removed, replies⟩ := t
  obtain rfl : todo = call :: rest := calls
  cases moves with
  | enters at_point free =>
    obtain rfl : point = .outside := at_point
    exact .inl ⟨rfl, rfl, free, rfl⟩
  | @leaves reply at_point =>
    obtain rfl : point = .leaving reply := at_point
    exact .inr (.inl ⟨rfl, rfl, rfl⟩)
  | finds at_point _ | misses at_point _ | overwrites at_point _ | releases at_point _
  | reserves at_point _ _ | rejects at_point _ _ | passes at_point _ | inserts at_point
  | deletes at_point | flushes at_point _ =>
    obtain rfl : point = _ := at_point
    exact .inr (.inr ⟨rfl, rfl⟩)

end Thread

namespace Sharded

/-- How many slots sets have reserved and not yet filled. -/
def reserving (c : Sharded α) : Nat := c.threads.countP Thread.isReserving

/-- How many slots were given back by deletes and flushes that have not yet removed the entry. -/
def releasing (c : Sharded α) : Nat := (c.threads.filterMap Thread.parting?).length

/-- The locks are those that threads hold, and no two threads hold the same. -/
structure Locked (shardOf : String → Nat) (c : Sharded α) : Prop where
  isLocked_iff : ∀ shard, c.shared.isLocked shard = true ↔
    ∃ (i : Nat) (t : Thread α), c.threads[i]? = some t ∧ t.holding shardOf = some shard
  unique : ∀ (i j : Nat) (t u : Thread α) (shard : Nat), c.threads[i]? = some t →
    c.threads[j]? = some u → t.holding shardOf = some shard → u.holding shardOf = some shard →
    i = j

/-- The count of slots agrees with the entries and with what the threads have in hand. -/
structure Balanced (shardOf : String → Nat) (c : Sharded α) : Prop where
  locked : c.Locked shardOf
  nodup_keys : c.shared.entries.keys.Nodup
  sees : ∀ t ∈ c.threads, t.Sees shardOf c.shared.entries
  slots_eq : c.shared.slots + c.releasing = c.shared.entries.length + c.reserving
  slots_le : ∀ l : Nat, c.shared.limit = some l → c.shared.slots ≤ l

/-! ## Locks -/

namespace Locked

variable {shardOf : String → Nat} {c : Sharded α} {id : Nat} {t t' : Thread α} {s' : Shared α}

theorem of_same (h : c.Locked shardOf) (found : c.threads[id]? = some t)
    (locks : s'.locks = c.shared.locks) (holding : t'.holding shardOf = t.holding shardOf) :
    Locked shardOf ⟨s', c.threads.set id t'⟩ := by
  have before : ∀ {i : Nat} {u : Thread α} {shard : Nat},
      (c.threads.set id t')[i]? = some u → u.holding shardOf = some shard →
      ∃ v, c.threads[i]? = some v ∧ v.holding shardOf = some shard := by
    intro i u shard fu hu
    rcases (getElem?_set_eq_some_iff found).1 fu with ⟨rfl, rfl⟩ | ⟨_, fu⟩
    · exact ⟨t, found, holding ▸ hu⟩
    · exact ⟨u, fu, hu⟩
  refine ⟨fun shard => ?_, fun i j u v shard fu fv hu hv => ?_⟩
  · have same : s'.isLocked shard = c.shared.isLocked shard := by
      rw [Shared.isLocked, locks, Shared.isLocked]
    rw [same, h.isLocked_iff]
    constructor
    · rintro ⟨i, u, fu, hu⟩
      by_cases mine : i = id
      · subst mine
        rw [found, Option.some.injEq] at fu
        exact ⟨i, t', (getElem?_set_eq_some_iff found).2 (.inl ⟨rfl, rfl⟩), by
          rw [holding, fu, hu]⟩
      · exact ⟨i, u, (getElem?_set_eq_some_iff found).2 (.inr ⟨mine, fu⟩), hu⟩
    · rintro ⟨i, u, fu, hu⟩
      obtain ⟨v, fv, hv⟩ := before fu hu
      exact ⟨i, v, fv, hv⟩
  · obtain ⟨u', fu', hu'⟩ := before fu hu
    obtain ⟨v', fv', hv'⟩ := before fv hv
    exact h.unique i j u' v' shard fu' fv' hu' hv'

/-- A thread takes a lock that nobody holds. -/
theorem enter (h : c.Locked shardOf) (found : c.threads[id]? = some t) {shard : Nat}
    (outside : t.holding shardOf = none) (inside : t'.holding shardOf = some shard)
    (free : c.shared.isLocked shard = false) :
    Locked shardOf ⟨c.shared.lock shard id, c.threads.set id t'⟩ := by
  have nobody : ∀ {i : Nat} {u : Thread α}, c.threads[i]? = some u →
      u.holding shardOf ≠ some shard := by
    intro i u fu hu
    rw [(h.isLocked_iff shard).2 ⟨i, u, fu, hu⟩] at free
    cases free
  refine ⟨fun other => ?_, fun i j u v other fu fv hu hv => ?_⟩
  · rw [Shared.isLocked_lock, h.isLocked_iff]
    constructor
    · rintro (rfl | ⟨i, u, fu, hu⟩)
      · exact ⟨id, t', (getElem?_set_eq_some_iff found).2 (.inl ⟨rfl, rfl⟩), inside⟩
      · have others : i ≠ id := by
          rintro rfl
          rw [found, Option.some.injEq] at fu
          rw [← fu, outside] at hu
          cases hu
        exact ⟨i, u, (getElem?_set_eq_some_iff found).2 (.inr ⟨others, fu⟩), hu⟩
    · rintro ⟨i, u, fu, hu⟩
      rcases (getElem?_set_eq_some_iff found).1 fu with ⟨_, rfl⟩ | ⟨_, old⟩
      · rw [inside, Option.some.injEq] at hu
        exact .inl hu.symm
      · exact .inr ⟨i, u, old, hu⟩
  · rcases (getElem?_set_eq_some_iff found).1 fu with ⟨mine, rfl⟩ | ⟨_, oldu⟩ <;>
      rcases (getElem?_set_eq_some_iff found).1 fv with ⟨same, rfl⟩ | ⟨_, oldv⟩
    · exact mine.trans same.symm
    · rw [inside] at hu
      exact absurd (hv.trans hu.symm) (nobody oldv)
    · rw [inside] at hv
      exact absurd (hu.trans hv.symm) (nobody oldu)
    · exact h.unique i j u v other oldu oldv hu hv

/-- A thread gives back the lock that it holds. -/
theorem leave (h : c.Locked shardOf) (found : c.threads[id]? = some t) {shard : Nat}
    (inside : t.holding shardOf = some shard) (outside : t'.holding shardOf = none) :
    Locked shardOf ⟨c.shared.unlock shard, c.threads.set id t'⟩ := by
  have others : ∀ {i : Nat} {u : Thread α} {other : Nat},
      (c.threads.set id t')[i]? = some u → u.holding shardOf = some other →
      i ≠ id ∧ c.threads[i]? = some u := by
    intro i u other fu hu
    rcases (getElem?_set_eq_some_iff found).1 fu with ⟨_, rfl⟩ | kept
    · rw [outside] at hu
      cases hu
    · exact kept
  refine ⟨fun other => ?_, fun i j u v other fu fv hu hv => ?_⟩
  · rw [Shared.isLocked_unlock, h.isLocked_iff]
    constructor
    · rintro ⟨distinct, i, u, fu, hu⟩
      have different : i ≠ id := by
        rintro rfl
        rw [found, Option.some.injEq] at fu
        rw [← fu, inside, Option.some.injEq] at hu
        exact distinct hu.symm
      exact ⟨i, u, (getElem?_set_eq_some_iff found).2 (.inr ⟨different, fu⟩), hu⟩
    · rintro ⟨i, u, fu, hu⟩
      obtain ⟨different, old⟩ := others fu hu
      refine ⟨?_, i, u, old, hu⟩
      rintro rfl
      exact different (h.unique i id u t other old found hu inside)
  · exact h.unique i j u v other (others fu hu).2 (others fv hv).2 hu hv

end Locked

/-! ## The balance is kept -/

namespace Balanced

variable {shardOf : String → Nat} {c : Sharded α} {id : Nat} {t t' : Thread α} {s' : Shared α}

theorem start (shardOf : String → Nat) (limit : Option Nat)
    (programs : List (List (ShardCall α))) : (start limit programs).Balanced shardOf := by
  have fresh : ∀ t ∈ (Sharded.start limit programs).threads, ∃ calls, t = Thread.ofCalls calls := by
    intro t ht
    obtain ⟨calls, _, rfl⟩ := List.mem_map.1 ht
    exact ⟨calls, rfl⟩
  have nobody : ∀ {i : Nat} {t : Thread α} {shard : Nat},
      (Sharded.start limit programs).threads[i]? = some t → t.holding shardOf ≠ some shard := by
    intro i t shard found
    obtain ⟨calls, rfl⟩ := fresh t (List.mem_of_getElem? found)
    exact nofun
  have none : (Sharded.start limit programs).reserving = 0 :=
    List.countP_eq_zero.2 fun t ht => by
      obtain ⟨calls, rfl⟩ := fresh t ht
      exact Bool.false_ne_true
  have no_one : (Sharded.start limit programs).releasing = 0 := by
    refine List.length_eq_zero_iff.2 (List.filterMap_eq_nil_iff.2 fun t ht => ?_)
    obtain ⟨calls, rfl⟩ := fresh t ht
    rfl
  refine ⟨⟨fun shard => ⟨nofun, ?_⟩, fun i j t u shard ft _ ht => absurd ht (nobody ft)⟩,
    List.nodup_nil, fun t ht => ?_, ?_, fun l _ => Int.natCast_nonneg l⟩
  · rintro ⟨i, t, found, holds⟩
    exact absurd holds (nobody found)
  · obtain ⟨calls, rfl⟩ := fresh t ht
    trivial
  · rw [none, no_one]
    rfl

theorem set (h : c.Balanced shardOf) (found : c.threads[id]? = some t)
    (locked : Locked shardOf ⟨s', c.threads.set id t'⟩)
    (keeps : t.Keeps shardOf c.shared s' t') : Balanced shardOf ⟨s', c.threads.set id t'⟩ := by
  refine ⟨locked, keeps.nodup_keys, fun u hu => ?_, ?_, fun l hl => ?_⟩
  · obtain ⟨i, fu⟩ := List.getElem?_of_mem hu
    rcases (getElem?_set_eq_some_iff found).1 fu with ⟨_, rfl⟩ | ⟨other, fu⟩
    · exact keeps.sees
    · refine (h.sees u (List.mem_of_getElem? fu)).frame fun key hu => keeps.frame key fun ht => ?_
      exact other (h.locked.unique i id u t _ fu found hu ht)
  · have reserved := countP_set_add Thread.isReserving found t'
    have released := length_filterMap_set_add Thread.parting? found t'
    have before := h.slots_eq
    have step := keeps.balance
    simp only [reserving, releasing] at before ⊢
    omega
  · have same : c.shared.limit = some l := keeps.limit_eq.symm.trans hl
    exact keeps.slots_le l same (h.slots_le l same)

theorem turn (h : c.Balanced shardOf) (id : Nat) : (c.turn shardOf id).Balanced shardOf := by
  rcases turn_cases shardOf c id with same | ⟨t, call, rest, s', t', found, calls, moves, after⟩
  · rw [same]
    exact h
  · rw [after]
    refine h.set found ?_
      (moves.keeps calls h.nodup_keys (h.sees t (List.mem_of_getElem? found)))
    rcases moves.locks calls with
      ⟨outside, inside, free, rfl⟩ | ⟨inside, outside, rfl⟩ | ⟨holding, locks⟩
    · exact h.locked.enter found outside inside free
    · exact h.locked.leave found inside outside
    · exact h.locked.of_same found locks holding

/-- A thread that removes an entry holds the lock of its shard, and the entry is still there. -/
theorem parting (h : c.Balanced shardOf) {t : Thread α} (ht : t ∈ c.threads) {key : String}
    (parts : t.parting? = some key) :
    t.holding shardOf = some (shardOf key) ∧ c.shared.entries.contains key = true := by
  have seen := h.sees t ht
  unfold Thread.parting? at parts
  split at parts
  · next k point =>
    obtain rfl := Option.some.inj parts
    unfold Thread.Sees at seen
    rw [point] at seen
    exact seen
  · cases parts

/-- The entries whose slots were given back are distinct, since each lies in a shard that one
thread has locked. So there are enough entries for them, and the count stays at or above zero. -/
theorem slots_nonneg (h : c.Balanced shardOf) : 0 ≤ c.shared.slots := by
  have distinct : (c.threads.filterMap Thread.parting?).Nodup := by
    refine (List.pairwise_filterMap ..).2 (List.pairwise_iff_getElem.2 ?_)
    intro i j hi hj lt k hk k' hk' same
    subst same
    have first := (h.parting (List.getElem_mem hi) hk).1
    have second := (h.parting (List.getElem_mem hj) hk').1
    have eq := h.locked.unique i j _ _ _ (List.getElem?_eq_getElem hi)
      (List.getElem?_eq_getElem hj) first second
    exact Nat.ne_of_lt lt eq
  have present : c.threads.filterMap Thread.parting? ⊆ c.shared.entries.keys := by
    intro key hk
    obtain ⟨t, ht, parts⟩ := List.mem_filterMap.1 hk
    exact (Keyed.contains_iff_mem_keys _ _).1 (h.parting ht parts).2
  have enough : c.releasing ≤ c.shared.entries.length := by
    rw [← Keyed.length_keys]
    exact (List.Nodup.subperm distinct present).length_le
  have balance := h.slots_eq
  omega

end Balanced

theorem balanced_run {shardOf : String → Nat} {c : Sharded α} (h : c.Balanced shardOf)
    (schedule : List Nat) : (c.run shardOf schedule).Balanced shardOf := by
  induction schedule generalizing c with
  | nil => exact h
  | cons id rest ih => exact ih (h.turn id)

end Sharded

end WarmCache
