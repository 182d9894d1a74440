import WarmCache.Proofs.Tallies

/-!
# Threads that race for slots

Several threads write to one cache, and which of them comes first is open. If each of them sets
keys that no other has, slots are taken and never given back. If all of them set and delete one
key, whoever has set it has a delete before it. And where there is no room at all, nothing is ever
stored.

Results:
1. `Thread.Moves.contends`, `Sharded.Contest.run`: threads that set keys of their own.
2. `Thread.Moves.owes`, `Sharded.Relay.run`: threads that set and delete one key.
3. `Sharded.Relay.entries_eq_nil`: in the end that key is gone.
4. `Sharded.Barren.run`: a cache without room stays empty.
-/

namespace WarmCache

variable {α : Type}

namespace Race

/-- The calls of threads each of which sets keys of its own. -/
def ownKeys (keyOf : Nat → Nat → String) (entryOf : Nat → Nat → Entry α) (threads each : Nat) :
    List (List (ShardCall α)) :=
  (List.range threads).map fun t => (List.range each).map fun i => .set (keyOf t i) (entryOf t i)

/-- The calls that set a key to each of these entries and delete it each time. -/
def setAndDelete (key : String) (entries : List (Entry α)) : List (ShardCall α) :=
  entries.flatMap fun e => [.set key e, .delete key]

/-- The calls of threads all of which set and delete one key. -/
def oneKey (key : String) (entryOf : Nat → Nat → Entry α) (threads each : Nat) :
    List (List (ShardCall α)) :=
  (List.range threads).map fun t => setAndDelete key ((List.range each).map (entryOf t))

end Race

/-- The key that a set names. -/
def ShardCall.setKey? : ShardCall α → Option String
  | set key _ => some key
  | _ => none

theorem ShardCall.eq_set_of_isSet {call : ShardCall α} (h : call.isSet = true) :
    ∃ key e, call = .set key e := by
  cases call with
  | set key e => exact ⟨key, e, rfl⟩
  | _ => cases h

/-- A call sets this key or deletes it. -/
def ShardCall.IsAbout (key : String) : ShardCall α → Prop
  | set k _ => k = key
  | delete k => k = key
  | flush _ _ => False
  | replace _ _ => False

/-- Such a call meets the entry under its key, or none. -/
theorem ShardCall.target?_eq {key : String} {call : ShardCall α} (about : call.IsAbout key)
    (shardOf : String → Nat) (entries : Keyed (Entry α)) :
    call.target? shardOf entries = if entries.contains key then some key else none := by
  cases call with
  | set k e =>
    obtain rfl := about
    rfl
  | delete k =>
    obtain rfl := about
    rfl
  | flush shard now => exact about.elim
  | replace k e => exact about.elim

namespace Thread

/-- The keys of the sets that have not come to a reply. -/
def pendingKeys (t : Thread α) : List String := t.unanswered.filterMap ShardCall.setKey?

/-- A set that is stored counts from its reply on, before and after the lock is given back. -/
theorem stored_cons (calls rest : List (ShardCall α)) (removed left : Nat) (reply : ShardReply)
    (replies : List ShardReply) :
    stored ⟨rest, .outside, left, reply :: replies⟩ =
      stored ⟨calls, .leaving reply, removed, replies⟩ := by
  cases reply <;> simp [stored]

/-- A thread has met no entry in its way. -/
def IsClear (t : Thread α) : Prop := ∀ key, t.point ≠ .occupied key ∧ t.point ≠ .released key

/-- What a step of a thread does that sets keys of its own. -/
structure Contends (s s' : Shared α) (t t' : Thread α) : Prop where
  clear : t'.IsClear
  /-- A pending key comes into the entries or is given up. -/
  keys : (t'.pendingKeys ++ s'.entries.keys).Subperm (t.pendingKeys ++ s.entries.keys)
  stored : t'.stored + s.entries.length = t.stored + s'.entries.length
  slots_le : s.slots ≤ s'.slots

/-- A step between the beginning of a call and its reply. -/
theorem Contends.of_same {s s' : Shared α} {t t' : Thread α} (clear : t'.IsClear)
    (entries : s'.entries = s.entries) (pending : t'.pendingKeys = t.pendingKeys)
    (stored : t'.stored = t.stored) (slots : s.slots ≤ s'.slots) : Contends s s' t t' := by
  refine ⟨clear, ?_, ?_, slots⟩
  · rw [entries, pending]
  · rw [entries, stored]

variable {shardOf : String → Nat} {id : Nat} {s s' : Shared α} {t t' : Thread α}
  {call : ShardCall α} {rest : List (ShardCall α)}

theorem Moves.contends (moves : t.Moves shardOf id s call rest s' t')
    (calls : t.calls = call :: rest) (set : call.isSet = true) (seen : t.Sees shardOf s.entries)
    (clear : t.IsClear) (absent : ∀ key ∈ t.pendingKeys, s.entries.contains key = false) :
    Contends s s' t t' := by
  obtain ⟨k, e, rfl⟩ := ShardCall.eq_set_of_isSet set
  obtain ⟨todo, point, removed, replies⟩ := t
  obtain rfl : todo = .set k e :: rest := calls
  cases moves with
  | @enters at_point free =>
    obtain rfl : point = .outside := at_point
    exact .of_same (fun _ => ⟨nofun, nofun⟩) rfl rfl rfl (Int.le_refl _)
  | @finds key at_point target =>
    obtain rfl : point = .entered := at_point
    have fresh : s.entries.contains k = false := absent k List.mem_cons_self
    have about : (ShardCall.set k e).IsAbout k := rfl
    rw [ShardCall.target?_eq about, fresh] at target
    cases target
  | misses at_point _ =>
    obtain rfl : point = .entered := at_point
    exact .of_same (fun _ => ⟨nofun, nofun⟩) rfl rfl rfl (Int.le_refl _)
  | @overwrites key e' at_point _ => exact absurd at_point (clear key).1
  | @releases key at_point _ => exact absurd at_point (clear key).1
  | reserves at_point _ _ =>
    obtain rfl : point = .vacant := at_point
    exact .of_same (fun _ => ⟨nofun, nofun⟩) rfl rfl rfl (Int.le_add_one (Int.le_refl _))
  | rejects at_point _ _ =>
    obtain rfl : point = .vacant := at_point
    exact ⟨fun _ => ⟨nofun, nofun⟩, (List.sublist_cons_self k _).subperm, rfl, Int.le_refl _⟩
  | passes _ idle => cases idle
  | @inserts key e' at_point =>
    obtain rfl : point = .reserved key e' := at_point
    obtain ⟨rfl, rfl⟩ := ShardCall.set.inj (Option.some.inj seen.1)
    have fresh : s.entries.contains k = false := absent k List.mem_cons_self
    refine ⟨fun _ => ⟨nofun, nofun⟩, List.Perm.subperm ?_, ?_, Int.le_refl _⟩
    · show (_ ++ (s.entries.put k e).keys).Perm _
      rw [Keyed.keys_put_of_not_contains _ _ _ fresh, ← List.append_assoc]
      exact List.perm_append_singleton _ _
    · show replies.count .stored + 1 + s.entries.length =
        replies.count .stored + 0 + (s.entries.put k e).length
      rw [Keyed.length_put_of_not_contains _ _ _ fresh]
      omega
  | @deletes key at_point => exact absurd at_point (clear key).2
  | @flushes key shard now at_point _ => exact absurd at_point (clear key).2
  | @leaves reply at_point =>
    obtain rfl : point = .leaving reply := at_point
    exact .of_same (fun _ => ⟨nofun, nofun⟩) rfl rfl (stored_cons ..) (Int.le_refl _)

end Thread

namespace Sharded

variable {shardOf : String → Nat} {c : Sharded α}

/-! ## Keys of their own -/

/-- Threads that set keys of their own: the keys that are pending or in are distinct, every set
that was stored is an entry, and when one was rejected all slots were taken for good. -/
structure Contest (c : Sharded α) : Prop where
  sets : ∀ t ∈ c.threads, ∀ call ∈ t.calls, call.isSet = true
  clear : ∀ t ∈ c.threads, t.IsClear
  apart : (c.threads.flatMap Thread.pendingKeys ++ c.shared.entries.keys).Nodup
  stored : c.total Thread.stored = c.shared.entries.length
  full : c.total Thread.rejections = 0 ∨
    ∃ l : Nat, c.shared.limit = some l ∧ (l : Int) ≤ c.shared.slots

namespace Contest

/-- A pending key is not in. -/
theorem absent (h : c.Contest) {t : Thread α} (ht : t ∈ c.threads) {key : String}
    (pending : key ∈ t.pendingKeys) : c.shared.entries.contains key = false := by
  rw [Keyed.contains_eq_false_iff]
  intro present
  exact (List.nodup_append.1 h.apart).2.2 key (List.mem_flatMap.2 ⟨t, ht, pending⟩) key present rfl

theorem turn (h : c.Contest) (balanced : c.Balanced shardOf) (id : Nat) :
    (c.turn shardOf id).Contest := by
  rcases turn_cases shardOf c id with same | ⟨t, call, rest, s', t', found, calls, moves, after⟩
  · rw [same]
    exact h
  · have ht := List.mem_of_getElem? found
    have step := moves.contends calls (h.sets t ht call (calls ▸ List.mem_cons_self))
      (balanced.sees t ht) (h.clear t ht) fun key => h.absent ht
    have stored := total_set found s' t' Thread.stored
    have rejected := total_set found s' t' Thread.rejections
    rw [after]
    refine ⟨forall_mem_set h.sets fun other hc => h.sets t ht other (moves.calls_subset calls hc),
      forall_mem_set h.clear step.clear, ?_, ?_, ?_⟩
    · obtain ⟨others, before, replaced⟩ := exists_others found
      have last : ∀ {u : Thread α} {threads : List (Thread α)} (keys : List String),
          threads.Perm (u :: others) → (threads.flatMap Thread.pendingKeys ++ keys).Perm
            (others.flatMap Thread.pendingKeys ++ (u.pendingKeys ++ keys)) := by
        intro u threads keys perm
        rw [← List.append_assoc]
        exact ((perm.flatMap_right _).trans List.perm_append_comm).append_right keys
      have kept := (List.subperm_append_left (others.flatMap Thread.pendingKeys)).2 step.keys
      have old := (last c.shared.entries.keys before).nodup_iff.1 h.apart
      obtain ⟨keys, same, fewer⟩ := kept
      exact (last s'.entries.keys (replaced t')).nodup_iff.2 (same.nodup_iff.1 (old.sublist fewer))
    · have kept := h.stored
      have one := step.stored
      show (Sharded.mk s' (c.threads.set id t')).total Thread.stored = s'.entries.length
      omega
    · have limit : s'.limit = c.shared.limit := moves.limit_eq
      have slots := step.slots_le
      rcases moves.rejections_cases with ⟨same, _⟩ | ⟨_, full, _⟩
      · rcases h.full with none | ⟨l, hl, le⟩
        · exact .inl (by omega)
        · exact .inr ⟨l, limit.trans hl, Int.le_trans le slots⟩
      · obtain ⟨l, hl, le⟩ := Shared.le_slots_of_not_hasFreeSlot full
        exact .inr ⟨l, limit.trans hl, Int.le_trans le slots⟩

theorem run (h : c.Contest) (balanced : c.Balanced shardOf) (schedule : List Nat) :
    (c.run shardOf schedule).Contest := by
  induction schedule generalizing c with
  | nil => exact h
  | cons id later ih => exact ih (h.turn balanced id) (balanced.turn id)

theorem start (limit : Option Nat) {programs : List (List (ShardCall α))}
    (sets : ∀ calls ∈ programs, ∀ call ∈ calls, call.isSet = true)
    (apart : (programs.flatten.filterMap ShardCall.setKey?).Nodup) :
    (start limit programs).Contest := by
  have fresh : ∀ t ∈ (Sharded.start limit programs).threads,
      ∃ calls ∈ programs, t = .ofCalls calls := by
    intro t ht
    obtain ⟨calls, member, rfl⟩ := List.mem_map.1 ht
    exact ⟨calls, member, rfl⟩
  refine ⟨fun t ht => ?_, fun t ht => ?_, ?_, total_eq_zero fun t ht => ?_,
    .inl (total_eq_zero fun t ht => ?_)⟩
  · obtain ⟨calls, member, rfl⟩ := fresh t ht
    exact sets calls member
  · obtain ⟨calls, _, rfl⟩ := fresh t ht
    exact fun _ => ⟨nofun, nofun⟩
  · have pending : (Sharded.start limit programs).threads.flatMap Thread.pendingKeys =
        programs.flatten.filterMap ShardCall.setKey? := by
      rw [List.filterMap_flatten, List.flatMap_def]
      exact congrArg List.flatten List.map_map
    rw [pending]
    exact (List.append_nil _).symm ▸ apart
  · obtain ⟨calls, _, rfl⟩ := fresh t ht
    rfl
  · obtain ⟨calls, _, rfl⟩ := fresh t ht
    rfl

end Contest

end Sharded

/-! ## One key for all -/

namespace Thread

/-- A thread sets the key and deletes it in turn, and is anywhere in between. -/
def Relays (key : String) (t : Thread α) : Prop :=
  ∃ entries, t.calls = Race.setAndDelete key entries ∨
    t.calls = .delete key :: Race.setAndDelete key entries

/-- The calls of a thread that have not yet looked for their entry. -/
def ahead (t : Thread α) : List (ShardCall α) :=
  match t.point with
  | .vacant => t.calls.tail
  | .leaving _ => t.calls.tail
  | _ => t.calls

variable {shardOf : String → Nat} {id : Nat} {s s' : Shared α} {t t' : Thread α}
  {call : ShardCall α} {rest : List (ShardCall α)} {key : String}

/-- The first call of a thread is a delete, or a set with a delete right behind it. -/
theorem Relays.cases (h : t.Relays key) (calls : t.calls = call :: rest) :
    call.IsAbout key ∧ (call.isSet = true → .delete key ∈ rest) ∧
      ∀ point removed replies, Relays key ⟨rest, point, removed, replies⟩ := by
  obtain ⟨entries, shape | shape⟩ := h
  · rw [calls] at shape
    cases entries with
    | nil => cases shape
    | cons e later =>
      obtain ⟨rfl, rfl⟩ := List.cons.inj shape
      exact ⟨rfl, fun _ => List.mem_cons_self, fun _ _ _ => ⟨later, .inr rfl⟩⟩
  · rw [calls] at shape
    obtain ⟨rfl, rfl⟩ := List.cons.inj shape
    exact ⟨rfl, nofun, fun _ _ _ => ⟨entries, .inl rfl⟩⟩

theorem Moves.relays (moves : t.Moves shardOf id s call rest s' t')
    (calls : t.calls = call :: rest) (h : t.Relays key) : t'.Relays key := by
  cases moves with
  | leaves _ => exact (h.cases calls).2.2 _ _ _
  | _ => exact h

/-- Whoever puts the key in has a delete ahead. -/
theorem Moves.owes (moves : t.Moves shardOf id s call rest s' t') (calls : t.calls = call :: rest)
    (relays : t.Relays key) (seen : t.Sees shardOf s.entries) (nodup : s.entries.keys.Nodup)
    (keys : ∀ k, s.entries.contains k = true → k = key)
    (present : s'.entries.contains key = true) :
    .delete key ∈ t'.ahead ∨
      s.entries.contains key = true ∧ (.delete key ∈ t.ahead → .delete key ∈ t'.ahead) := by
  obtain ⟨about, behind, _⟩ := relays.cases calls
  obtain ⟨todo, point, removed, replies⟩ := t
  obtain rfl : todo = call :: rest := calls
  cases moves with
  | misses at_point target =>
    have absent : s.entries.contains key = false := by
      rw [ShardCall.target?_eq about] at target
      split at target
      · cases target
      · next absent => exact Bool.eq_false_iff.2 absent
    rw [absent] at present
    cases present
  | @overwrites k e at_point writes =>
    refine .inl (behind ?_)
    cases call with
    | set k' e' => rfl
    | delete k' => exact writes.elim
    | flush shard now => exact about.elim
    | replace k' e' => exact about.elim
  | reserves at_point set _ =>
    obtain rfl : point = .vacant := at_point
    exact .inr ⟨present, List.mem_cons_of_mem _⟩
  | @inserts k e at_point =>
    obtain rfl : point = .reserved k e := at_point
    obtain rfl : call = .set k e := Option.some.inj seen.1
    exact .inl (behind rfl)
  | @deletes k at_point =>
    obtain rfl : point = .released k := at_point
    obtain rfl := keys k seen.2
    have gone : (s.remove k).entries.contains k = false :=
      congrArg Option.isSome (Keyed.find?_remove_self s.entries k nodup)
    rw [gone] at present
    cases present
  | @flushes k shard now at_point flush =>
    rw [flush] at about
    exact about.elim
  | enters at_point _ | finds at_point _ | releases at_point _ | rejects at_point _ _
  | passes at_point _ | leaves at_point =>
    obtain rfl : point = _ := at_point
    exact .inr ⟨present, fun ahead => ahead⟩

end Thread

namespace Sharded

variable {shardOf : String → Nat} {c : Sharded α} {key : String}

/-- Threads that set and delete one key. As long as it is there, one of them has a delete ahead. -/
structure Relay (key : String) (c : Sharded α) : Prop where
  relays : ∀ t ∈ c.threads, t.Relays key
  keys : ∀ k, c.shared.entries.contains k = true → k = key
  owed : c.shared.entries.contains key = true → ∃ t ∈ c.threads, .delete key ∈ t.ahead

namespace Relay

theorem start (key : String) (limit : Option Nat) (entryOf : Nat → Nat → Entry α)
    (threads each : Nat) : Relay key (start limit (Race.oneKey key entryOf threads each)) := by
  refine ⟨fun t ht => ?_, nofun, nofun⟩
  obtain ⟨calls, member, rfl⟩ := List.mem_map.1 ht
  obtain ⟨number, _, rfl⟩ := List.mem_map.1 member
  exact ⟨_, .inl rfl⟩

theorem turn (h : Relay key c) (balanced : c.Balanced shardOf) (id : Nat) :
    Relay key (c.turn shardOf id) := by
  rcases turn_cases shardOf c id with same | ⟨t, call, rest, s', t', found, calls, moves, after⟩
  · rw [same]
    exact h
  · have ht := List.mem_of_getElem? found
    have seen := balanced.sees t ht
    have about := ((h.relays t ht).cases calls).1
    have named : call.Names key := by
      cases call with
      | set k e => exact about
      | delete k => exact about
      | flush shard now => trivial
      | replace k e => exact about.elim
    rw [after]
    refine ⟨forall_mem_set h.relays (moves.relays calls (h.relays t ht)), fun k present => ?_,
      fun present => ?_⟩
    · exact (moves.key_of_contains calls seen named present).elim (h.keys k) fun same => same
    · have mine : t' ∈ c.threads.set id t' :=
        List.mem_set (List.getElem?_eq_some_iff.1 found).1 t'
      rcases moves.owes calls (h.relays t ht) seen balanced.nodup_keys h.keys present with
        owes | ⟨before, kept⟩
      · exact ⟨t', mine, owes⟩
      · obtain ⟨u, hu, owes⟩ := h.owed before
        obtain ⟨j, fu⟩ := List.getElem?_of_mem hu
        by_cases same : j = id
        · rw [same, found, Option.some.injEq] at fu
          exact ⟨t', mine, kept (fu ▸ owes)⟩
        · exact ⟨u, List.mem_of_getElem? ((getElem?_set_eq_some_iff found).2 (.inr ⟨same, fu⟩)),
            owes⟩

theorem run (h : Relay key c) (balanced : c.Balanced shardOf) (schedule : List Nat) :
    Relay key (c.run shardOf schedule) := by
  induction schedule generalizing c with
  | nil => exact h
  | cons id later ih => exact ih (h.turn balanced id) (balanced.turn id)

/-- When nobody has a delete ahead any more, the key is gone. -/
theorem entries_eq_nil (h : Relay key c) (done : c.isDone = true) : c.shared.entries = [] := by
  have absent : c.shared.entries.contains key = false := by
    refine Bool.eq_false_iff.2 fun present => ?_
    obtain ⟨t, ht, owes⟩ := h.owed present
    unfold Thread.ahead at owes
    rw [calls_of_isDone done t ht] at owes
    split at owes <;> cases owes
  refine Keyed.eq_nil_of_contains fun k => Bool.eq_false_iff.2 fun present => ?_
  rw [h.keys k present, absent] at present
  cases present

end Relay

end Sharded

/-! ## No room -/

namespace Thread

/-- A thread has stored nothing and is about to store nothing. -/
structure Barren (t : Thread α) : Prop where
  stored : t.stored = 0
  clear : t.IsClear
  unreserved : ∀ key e, t.point ≠ .reserved key e

variable {shardOf : String → Nat} {id : Nat} {s s' : Shared α} {t t' : Thread α}
  {call : ShardCall α} {rest : List (ShardCall α)}

/-- Where there is no free slot and no entry there never will be one. -/
theorem Moves.barren (moves : t.Moves shardOf id s call rest s' t') (h : t.Barren)
    (empty : s.entries = []) (full : s.hasFreeSlot = false) :
    t'.Barren ∧ s'.entries = [] := by
  obtain ⟨todo, point, removed, replies⟩ := t
  obtain ⟨stored, clear, unreserved⟩ := h
  cases moves with
  | @finds key at_point target =>
    obtain ⟨present, _⟩ := ShardCall.target?_eq_some target
    rw [empty] at present
    cases present
  | @overwrites key e at_point _ => exact absurd at_point (clear key).1
  | @releases key at_point _ => exact absurd at_point (clear key).1
  | reserves _ _ free =>
    rw [full] at free
    cases free
  | @inserts key e at_point => exact absurd at_point (unreserved key e)
  | @deletes key at_point => exact absurd at_point (clear key).2
  | @flushes key shard now at_point _ => exact absurd at_point (clear key).2
  | @passes reply at_point idle =>
    obtain rfl : point = .vacant := at_point
    refine ⟨⟨?_, fun _ => ⟨nofun, nofun⟩, nofun⟩, empty⟩
    cases call with
    | set k e => cases idle
    | _ =>
      obtain rfl := Option.some.inj idle
      exact stored
  | @leaves reply at_point =>
    obtain rfl : point = .leaving reply := at_point
    exact ⟨⟨(stored_cons ..).trans stored, fun _ => ⟨nofun, nofun⟩, nofun⟩, empty⟩
  | enters at_point _ | misses at_point _ | rejects at_point _ _ =>
    obtain rfl : point = _ := at_point
    exact ⟨⟨stored, fun _ => ⟨nofun, nofun⟩, nofun⟩, empty⟩

end Thread

namespace Sharded

variable {shardOf : String → Nat} {c : Sharded α}

/-- A cache without room for a single entry, and threads that have stored nothing in it. -/
structure Barren (c : Sharded α) : Prop where
  limit_eq : c.shared.limit = some 0
  entries_eq : c.shared.entries = []
  threads : ∀ t ∈ c.threads, t.Barren

namespace Barren

theorem start (programs : List (List (ShardCall α))) : (start (some 0) programs).Barren := by
  refine ⟨rfl, rfl, fun t ht => ?_⟩
  obtain ⟨calls, _, rfl⟩ := List.mem_map.1 ht
  exact ⟨rfl, fun _ => ⟨nofun, nofun⟩, nofun⟩

theorem turn (h : c.Barren) (balanced : c.Balanced shardOf) (id : Nat) :
    (c.turn shardOf id).Barren := by
  rcases turn_cases shardOf c id with same | ⟨t, call, rest, s', t', found, calls, moves, after⟩
  · rw [same]
    exact h
  · have full : c.shared.hasFreeSlot = false := by
      refine Bool.eq_false_iff.2 fun free => ?_
      have below := Shared.slots_lt_of_hasFreeSlot free h.limit_eq
      have above := balanced.slots_nonneg
      omega
    have step := moves.barren (h.threads t (List.mem_of_getElem? found)) h.entries_eq full
    rw [after]
    exact ⟨moves.limit_eq.trans h.limit_eq, step.2, forall_mem_set h.threads step.1⟩

theorem run (h : c.Barren) (balanced : c.Balanced shardOf) (schedule : List Nat) :
    (c.run shardOf schedule).Barren := by
  induction schedule generalizing c with
  | nil => exact h
  | cons id later ih => exact ih (h.turn balanced id) (balanced.turn id)

end Barren

end Sharded

end WarmCache
