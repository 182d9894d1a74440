import WarmCache.Proofs.Balance

/-!
# Which sets are rejected

A set is rejected by the step at which it reserves its slot, and by the count of slots alone. The
count may be at the limit while there are fewer entries: slots of sets under way count too. With
a single key in use that cannot be, since its lock keeps all other sets out.

Results:
1. `Thread.Moves.rejections_cases`: the one step that rejects.
2. `Sharded.OneKey.run`: threads that use one key are never rejected.
3. `Sharded.slots_balance`: the balance of slots, the limit, rejections, and a cache at rest.
-/

namespace WarmCache

variable {α : Type}

/-- A call names no key but this one. -/
def ShardCall.Names (key : String) : ShardCall α → Prop
  | .set k _ => k = key
  | .delete k => k = key
  | .flush _ _ => True
  | .replace k _ => k = key

namespace Thread

/-- How many sets of a thread were rejected so far. -/
def rejections (t : Thread α) : Nat :=
  t.replies.count .rejected +
    match t.point with
    | .leaving .rejected => 1
    | _ => 0

theorem rejections_leaving (calls : List (ShardCall α)) {reply : ShardReply} (removed : Nat)
    (replies : List ShardReply) (h : reply ≠ .rejected) :
    rejections ⟨calls, .leaving reply, removed, replies⟩ = replies.count .rejected := by
  unfold rejections
  split
  · next point =>
    cases point
    exact absurd rfl h
  · rfl

variable {shardOf : String → Nat} {id : Nat} {s s' : Shared α} {t t' : Thread α}
  {call : ShardCall α} {rest : List (ShardCall α)}

/-- Only the reservation of a slot rejects, and only when no slot is free. Then it is counted. -/
theorem Moves.rejections_cases (moves : t.Moves shardOf id s call rest s' t') :
    (t'.rejections = t.rejections ∧ s'.rejected = s.rejected) ∨
      (t.point = .vacant ∧ s.hasFreeSlot = false ∧ (∃ key e, call = .set key e) ∧
        t'.rejections = t.rejections + 1 ∧ s'.rejected = s.rejected + 1) := by
  obtain ⟨todo, point, removed, replies⟩ := t
  cases moves with
  | @rejects key e at_point set full =>
    obtain rfl : point = .vacant := at_point
    exact .inr ⟨rfl, full, ⟨key, e, set⟩, rfl, rfl⟩
  | overwrites at_point _ =>
    obtain rfl : point = _ := at_point
    exact .inl ⟨rejections_leaving _ _ _ call.overReply_ne_rejected, rfl⟩
  | passes at_point idle =>
    obtain rfl : point = _ := at_point
    exact .inl ⟨rejections_leaving _ _ _ (ShardCall.idleReply?_ne_rejected idle), rfl⟩
  | @leaves reply at_point =>
    obtain rfl : point = .leaving reply := at_point
    refine .inl ⟨?_, rfl⟩
    by_cases rejected : reply = .rejected
    · subst rejected
      show (ShardReply.rejected :: replies).count .rejected = replies.count .rejected + 1
      exact List.count_cons_self
    · rw [rejections_leaving _ _ _ rejected]
      show (reply :: replies).count .rejected = replies.count .rejected
      exact List.count_cons_of_ne rejected
  | enters at_point _ | finds at_point _ | misses at_point _ | releases at_point _
  | reserves at_point _ _ | inserts at_point | deletes at_point | flushes at_point _ =>
    obtain rfl : point = _ := at_point
    exact .inl ⟨rfl, rfl⟩

/-- A step brings in no key but the one that its call names. -/
theorem Moves.key_of_contains {key k : String} (moves : t.Moves shardOf id s call rest s' t')
    (calls : t.calls = call :: rest) (seen : t.Sees shardOf s.entries)
    (named : call.Names key) (present : s'.entries.contains k = true) :
    s.entries.contains k = true ∨ k = key := by
  obtain ⟨todo, point, removed, replies⟩ := t
  have removal : ∀ {gone : String}, (s.entries.remove gone).contains k = true →
      s.entries.contains k = true := by
    intro gone
    rw [Keyed.contains_iff_mem_keys, Keyed.contains_iff_mem_keys, Keyed.keys_remove]
    exact List.mem_of_mem_erase
  cases moves with
  | @overwrites there e at_point _ =>
    obtain rfl : point = .occupied there := at_point
    by_cases same : k = there
    · subst same
      exact .inl seen.2
    · exact .inl ((Shared.contains_put_other e same).symm.trans present)
  | @inserts new e at_point =>
    obtain rfl : point = .reserved new e := at_point
    by_cases same : k = new
    · obtain rfl : todo = call :: rest := calls
      obtain rfl : call = .set new e := Option.some.inj seen.1
      exact .inr (same.trans named)
    · exact .inl ((Shared.contains_put_other e same).symm.trans present)
  | deletes _ => exact .inl (removal present)
  | flushes _ _ => exact .inl (removal present)
  | enters _ _ | finds _ _ | misses _ _ | releases _ _ | reserves _ _ _ | rejects _ _ _
  | passes _ _ | leaves _ => exact .inl present

theorem Moves.limit_eq (moves : t.Moves shardOf id s call rest s' t') : s'.limit = s.limit := by
  cases moves <;> rfl

/-- A thread goes on with the calls that it has. -/
theorem Moves.calls_subset (moves : t.Moves shardOf id s call rest s' t')
    (calls : t.calls = call :: rest) : t'.calls ⊆ t.calls := by
  cases moves with
  | leaves _ =>
    rw [calls]
    exact List.subset_cons_self call rest
  | _ => exact List.Subset.refl _

/-- Whether a thread is in no call. -/
def isOutside (t : Thread α) : Bool :=
  match t.point with
  | .outside => true
  | _ => false

theorem isOutside_iff {t : Thread α} : t.isOutside = true ↔ t.point = .outside := by
  unfold isOutside
  cases t.point <;> simp

end Thread

namespace Sharded

variable {shardOf : String → Nat} {c : Sharded α}

theorem limit_run (shardOf : String → Nat) (c : Sharded α) (schedule : List Nat) :
    (c.run shardOf schedule).shared.limit = c.shared.limit := by
  induction schedule generalizing c with
  | nil => rfl
  | cons id later ih =>
    refine (ih (c.turn shardOf id)).trans ?_
    rcases turn_cases shardOf c id with same | ⟨t, call, rest, s', t', _, _, moves, after⟩
    · rw [same]
    · rw [after]
      exact moves.limit_eq

/-- A turn that rejects a set is that of the thread which asks for a slot, and all are taken. -/
theorem Balanced.rejects (h : c.Balanced shardOf) {id j : Nat} {t t' : Thread α}
    (before : c.threads[j]? = some t) (after : (c.turn shardOf id).threads[j]? = some t')
    (more : t.rejections < t'.rejections) :
    j = id ∧ t.point = .vacant ∧ (∃ key e, t.calls.head? = some (.set key e)) ∧
      ∃ l : Nat, c.shared.limit = some l ∧ c.shared.slots = l := by
  rcases turn_cases shardOf c id with same | ⟨u, call, rest, s', u', found, calls, moves, turned⟩
  · rw [same, before, Option.some.injEq] at after
    rw [after] at more
    exact absurd more (Nat.lt_irrefl _)
  · rw [turned] at after
    rcases (getElem?_set_eq_some_iff found).1 after with ⟨mine, rfl⟩ | ⟨_, old⟩
    · rw [mine, found, Option.some.injEq] at before
      subst before
      rcases moves.rejections_cases with ⟨same, _⟩ | ⟨point, full, ⟨key, e, rfl⟩, _⟩
      · rw [same] at more
        exact absurd more (Nat.lt_irrefl _)
      · obtain ⟨l, hl, le⟩ := Shared.le_slots_of_not_hasFreeSlot full
        refine ⟨mine, point, ⟨key, e, ?_⟩, l, hl, Int.le_antisymm (h.slots_le l hl) le⟩
        rw [calls]
        rfl
    · rw [before, Option.some.injEq] at old
      rw [old] at more
      exact absurd more (Nat.lt_irrefl _)

/-! ## One key -/

/-- Threads that use one key, none of which was rejected. -/
structure OneKey (key : String) (c : Sharded α) : Prop where
  keys : ∀ k, c.shared.entries.contains k = true → k = key
  names : ∀ t ∈ c.threads, ∀ call ∈ t.calls, call.Names key
  accepted : ∀ t ∈ c.threads, t.rejections = 0

theorem isReserving_iff {t : Thread α} :
    t.isReserving = true ↔ ∃ key e, t.point = .reserved key e := by
  unfold Thread.isReserving
  split
  · next key e point => exact ⟨fun _ => ⟨key, e, point⟩, fun _ => rfl⟩
  · next other => exact ⟨nofun, fun ⟨key, e, point⟩ => absurd point (other key e)⟩

namespace OneKey

variable {key : String}

theorem start (limit : Option Nat) {programs : List (List (ShardCall α))}
    (names : ∀ calls ∈ programs, ∀ call ∈ calls, call.Names key) :
    OneKey key (start limit programs) := by
  refine ⟨nofun, fun t ht call hc => ?_, fun t ht => ?_⟩ <;>
    obtain ⟨calls, present, rfl⟩ := List.mem_map.1 ht
  · exact names calls present call hc
  · rfl

/-- A thread that asks for a slot for the key has the lock, so no other has a slot reserved, and
no entry is there: all slots are free. -/
theorem slots_nonpos (h : OneKey key c) (balanced : c.Balanced shardOf) {id : Nat}
    {t : Thread α} {k : String} {e : Entry α} {rest : List (ShardCall α)}
    (found : c.threads[id]? = some t) (calls : t.calls = .set k e :: rest)
    (vacant : t.point = .vacant) : c.shared.slots ≤ 0 := by
  have ht := List.mem_of_getElem? found
  obtain rfl : k = key := h.names t ht (.set k e) (calls ▸ List.mem_cons_self)
  have inside : t.holding shardOf = some (shardOf k) := by
    unfold Thread.holding
    rw [vacant, calls]
    rfl
  have absent : c.shared.entries.contains k = false := by
    have seen := balanced.sees t ht
    unfold Thread.Sees at seen
    rw [vacant] at seen
    exact seen k e (calls ▸ rfl)
  have empty : c.shared.entries.length = 0 := by
    refine List.length_eq_zero_iff.2 (Keyed.eq_nil_of_contains fun other => ?_)
    refine Bool.eq_false_iff.2 fun present => ?_
    rw [h.keys other present, absent] at present
    cases present
  have none : c.reserving = 0 := by
    refine List.countP_eq_zero.2 fun u hu reserving => ?_
    obtain ⟨k', e', point⟩ := isReserving_iff.1 reserving
    have seen := balanced.sees u hu
    unfold Thread.Sees at seen
    rw [point] at seen
    have first := List.mem_of_mem_head? seen.1
    have same : k' = k := h.names u hu _ first
    have other : u.holding shardOf = some (shardOf k) := by
      unfold Thread.holding
      rw [point, seen.1, ← same]
      rfl
    -- two threads with the lock of the key are one thread, which is at one point
    obtain ⟨j, fu⟩ := List.getElem?_of_mem hu
    have eq := balanced.locked.unique id j t u _ found fu inside other
    rw [← eq, found, Option.some.injEq] at fu
    rw [← fu, vacant] at point
    cases point
  have balance := balanced.slots_eq
  omega

theorem turn (h : OneKey key c) (balanced : c.Balanced shardOf)
    (room : ∀ l, c.shared.limit = some l → 1 ≤ l) (id : Nat) :
    OneKey key (c.turn shardOf id) := by
  rcases turn_cases shardOf c id with same | ⟨t, call, rest, s', t', found, calls, moves, after⟩
  · rw [same]
    exact h
  · rw [after]
    have ht := List.mem_of_getElem? found
    have each : ∀ u ∈ c.threads.set id t', u = t' ∨ u ∈ c.threads := fun u hu =>
      (List.mem_or_eq_of_mem_set hu).symm
    have named := h.names t ht call (calls ▸ List.mem_cons_self)
    refine ⟨fun k present => ?_, fun u hu other hc => ?_, fun u hu => ?_⟩
    · rcases moves.key_of_contains calls (balanced.sees t ht) named present with old | new
      · exact h.keys k old
      · exact new
    · rcases each u hu with rfl | old
      · exact h.names t ht other (moves.calls_subset calls hc)
      · exact h.names u old other hc
    · rcases each u hu with rfl | old
      · rcases moves.rejections_cases with ⟨same, _⟩ | ⟨vacant, full, ⟨k, e, rfl⟩, _⟩
        · rw [same]
          exact h.accepted t ht
        · have free := h.slots_nonpos balanced found calls vacant
          obtain ⟨l, hl, le⟩ := Shared.le_slots_of_not_hasFreeSlot full
          have one := room l hl
          omega
      · exact h.accepted u old

theorem run (h : OneKey key c) (balanced : c.Balanced shardOf)
    (room : ∀ l, c.shared.limit = some l → 1 ≤ l) (schedule : List Nat) :
    OneKey key (c.run shardOf schedule) := by
  induction schedule generalizing c with
  | nil => exact h
  | cons id later ih =>
    have limit : (c.turn shardOf id).shared.limit = c.shared.limit :=
      limit_run shardOf c [id]
    exact ih (h.turn balanced room id) (balanced.turn id) (limit ▸ room)

end OneKey

/-! ## Any number of threads under any schedule -/

theorem reserving_eq_zero (h : ∀ t ∈ c.threads, t.point = .outside) : c.reserving = 0 :=
  List.countP_eq_zero.2 fun t ht reserving => by
    obtain ⟨key, e, point⟩ := isReserving_iff.1 reserving
    cases (h t ht).symm.trans point

theorem releasing_eq_zero (h : ∀ t ∈ c.threads, t.point = .outside) : c.releasing = 0 := by
  refine List.length_eq_zero_iff.2 (List.filterMap_eq_nil_iff.2 fun t ht => ?_)
  unfold Thread.parting?
  rw [h t ht]

/-- Whatever the threads call, however the keys are divided into shards and whichever thread is
next, at every point the slots are the entries, with those that sets have reserved and without
those that removals have given back. They never are below zero or above the limit. A turn rejects
a set only if all slots are taken when it asks for one. While no call is in progress the cache is
as long as the count of slots says. Threads that all use one key are never rejected, if the limit
allows for one entry. -/
theorem slots_balance (shardOf : String → Nat) (limit : Option Nat)
    (programs : List (List (ShardCall α))) (schedule : List Nat) :
    let c := (start limit programs).run shardOf schedule
    c.shared.slots = c.shared.entries.length + c.reserving - c.releasing ∧
      0 ≤ c.shared.slots ∧
      (∀ l : Nat, limit = some l → c.shared.slots ≤ l) ∧
      (∀ (id j : Nat) (t t' : Thread α), c.threads[j]? = some t →
        (c.turn shardOf id).threads[j]? = some t' → t.rejections < t'.rejections →
        j = id ∧ t.point = .vacant ∧ (∃ key e, t.calls.head? = some (.set key e)) ∧
          ∃ l : Nat, limit = some l ∧ c.shared.slots = l) ∧
      ((∀ t ∈ c.threads, t.point = .outside) →
        (c.shared.entries.length : Int) = c.shared.slots ∧
          ∀ l : Nat, limit = some l → c.shared.entries.length ≤ l) ∧
      (∀ key, (∀ calls ∈ programs, ∀ call ∈ calls, call.Names key) →
        (∀ l : Nat, limit = some l → 1 ≤ l) → ∀ t ∈ c.threads, t.rejections = 0) := by
  intro c
  have balanced : c.Balanced shardOf :=
    balanced_run (Balanced.start shardOf limit programs) schedule
  have same : c.shared.limit = limit := limit_run shardOf (start limit programs) schedule
  have balance := balanced.slots_eq
  refine ⟨by omega, balanced.slots_nonneg, fun l hl => balanced.slots_le l (same.trans hl),
    fun id j t t' before after more => ?_, fun rest => ?_, fun key names room => ?_⟩
  · rw [← same]
    exact balanced.rejects before after more
  · rw [reserving_eq_zero rest, releasing_eq_zero rest] at balance
    refine ⟨by omega, fun l hl => ?_⟩
    have le := balanced.slots_le l (same.trans hl)
    omega
  · exact ((OneKey.start limit names).run (Balanced.start shardOf limit programs) room
      schedule).accepted

/-- A cache for one entry. The second thread is rejected while no entry is there yet, since the
first has the only slot. With one key for both, the second waits for the first and is not. -/
theorem slots_balance_race :
    let e : Entry Int := ⟨0, .latest, none⟩
    let shardOf : String → Nat := fun key => if key = "a" then 0 else 1
    let c := (start (some 1) [[.set "a" e], [.set "b" e]]).run shardOf [0, 1, 0, 1, 0]
    let d := (start (some 1) [[.set "a" e, .delete "a"], [.set "a" e]]).run shardOf
      [0, 1, 0, 1, 0, 1, 0, 1, 0, 1, 1, 1, 1, 1, 1, 0, 0, 0, 0, 0]
    (c.shared.entries.length = 0 ∧ c.reserving = 1 ∧
      (c.turn shardOf 1).threads.map Thread.rejections = [0, 1] ∧
      ∃ l : Nat, some 1 = some l ∧ c.shared.slots = l) ∧
      (∀ t ∈ d.threads, t.rejections = 0) ∧ (d.shared.entries.length : Int) = d.shared.slots := by
  intro e shardOf c d
  have before : c.threads.map Thread.rejections = [0, 0] := by decide +kernel
  have after : (c.turn shardOf 1).threads.map Thread.rejections = [0, 1] := by decide +kernel
  have first : (c.threads[1]?).map Thread.rejections = some 0 := by
    rw [← List.getElem?_map, before]
    rfl
  have second : ((c.turn shardOf 1).threads[1]?).map Thread.rejections = some 1 := by
    rw [← List.getElem?_map, after]
    rfl
  obtain ⟨t, found, zero⟩ := Option.map_eq_some_iff.1 first
  obtain ⟨t', found', one⟩ := Option.map_eq_some_iff.1 second
  have rest : ∀ t ∈ d.threads, t.point = .outside := by
    have outside : d.threads.all Thread.isOutside = true := by decide +kernel
    exact fun t ht => Thread.isOutside_iff.1 (List.all_eq_true.1 outside t ht)
  have names : ∀ calls ∈ [[ShardCall.set "a" e, .delete "a"], [.set "a" e]],
      ∀ call ∈ calls, call.Names "a" := by
    simp [ShardCall.Names]
  obtain ⟨_, _, _, rejects, _, _⟩ :=
    slots_balance shardOf (some 1) [[.set "a" e], [.set "b" e]] [0, 1, 0, 1, 0]
  obtain ⟨_, _, _, _, atRest, oneKey⟩ :=
    slots_balance shardOf (some 1) [[.set "a" e, .delete "a"], [.set "a" e]]
      [0, 1, 0, 1, 0, 1, 0, 1, 0, 1, 1, 1, 1, 1, 1, 0, 0, 0, 0, 0]
  refine ⟨⟨by decide +kernel, by decide +kernel, after, ?_⟩, ?_, ?_⟩
  · refine (rejects 1 1 t t' found found' ?_).2.2.2
    rw [zero, one]
    exact Nat.zero_lt_one
  · exact oneKey "a" names fun l hl => Nat.le_of_eq (Option.some.inj hl)
  · simp only [d]
    exact (atRest rest).1

end Sharded

end WarmCache
