import WarmCache.Shards
import WarmCache.Proofs.Keys

/-!
# What a turn of a thread does

A thread makes one step at each of its turns, or none if it has no calls left or waits for a lock.
`Thread.Moves` lists the steps with what each of them takes for granted.

Results:
1. `Thread.moves_of_step?`: the list is complete.
2. `Sharded.turn_cases`: a turn leaves all as it was, or it is one of these steps.
-/

namespace WarmCache

variable {α : Type}

namespace ShardCall

/-- A call writes this entry over the one under its key, if there is one. -/
def Writes (e : Entry α) : ShardCall α → Prop
  | set _ entry => entry = e
  | replace _ entry => entry = e
  | delete _ => False
  | flush _ _ => False

/-- A call takes out the entry that it finds. -/
def Removes : ShardCall α → Prop
  | delete _ => True
  | flush _ _ => True
  | set _ _ => False
  | replace _ _ => False

/-- What a call comes to that has overwritten an entry. -/
def overReply : ShardCall α → ShardReply
  | set _ _ => .stored
  | _ => .settled .replaced

/-- What a call comes to that finds no entry and has no need of a slot. A flush has removed so
many before. -/
def idleReply? (removed : Nat) : ShardCall α → Option ShardReply
  | set _ _ => none
  | delete _ => some .deleted
  | flush _ _ => some (.flushed removed)
  | replace _ _ => some (.settled .discarded)

theorem overReply_ne_rejected (call : ShardCall α) : call.overReply ≠ .rejected := by
  cases call <;> exact nofun

theorem idleReply?_ne_rejected {call : ShardCall α} {removed : Nat} {reply : ShardReply}
    (h : call.idleReply? removed = some reply) : reply ≠ .rejected := by
  rintro rfl
  cases call <;> cases h

/-- A key that a call finds is there and lies in the shard of the call. -/
theorem target?_eq_some {shardOf : String → Nat} {entries : Keyed (Entry α)} {key : String}
    {call : ShardCall α} (h : call.target? shardOf entries = some key) :
    entries.contains key = true ∧ call.shard shardOf = shardOf key := by
  have named : ∀ k, (if entries.contains k then some k else none) = some key →
      entries.contains key = true ∧ k = key := by
    intro k hk
    split at hk
    · next present =>
      rw [← Option.some.inj hk]
      exact ⟨present, rfl⟩
    · cases hk
  cases call with
  | set k entry =>
    obtain ⟨present, rfl⟩ := named k h
    exact ⟨present, rfl⟩
  | delete k =>
    obtain ⟨present, rfl⟩ := named k h
    exact ⟨present, rfl⟩
  | replace k entry =>
    obtain ⟨present, rfl⟩ := named k h
    exact ⟨present, rfl⟩
  | flush shard now =>
    obtain ⟨pair, found, rfl⟩ := Option.map_eq_some_iff.1 h
    have expired := List.find?_some found
    simp only [Bool.and_eq_true, beq_iff_eq] at expired
    refine ⟨(Keyed.contains_iff_mem_keys _ _).2 ?_, expired.1.symm⟩
    exact List.mem_map_of_mem (List.mem_of_find?_eq_some found)

theorem contains_of_target?_eq_none {shardOf : String → Nat} {entries : Keyed (Entry α)}
    {key : String} {e : Entry α} (h : (set key e).target? shardOf entries = none) :
    entries.contains key = false := by
  simp only [target?] at h
  split at h
  · cases h
  · next absent => exact Bool.eq_false_iff.2 absent

end ShardCall

namespace Thread

/-- What one step of thread number `id` makes of what is shared and of the thread `t` itself,
whose first call is `call`. -/
inductive Moves (shardOf : String → Nat) (id : Nat) (s : Shared α) (t : Thread α)
    (call : ShardCall α) (rest : List (ShardCall α)) : Shared α → Thread α → Prop
  | enters : t.point = .outside → s.isLocked (call.shard shardOf) = false →
      Moves shardOf id s t call rest (s.lock (call.shard shardOf) id) { t with point := .entered }
  | finds {key : String} : t.point = .entered → call.target? shardOf s.entries = some key →
      Moves shardOf id s t call rest s { t with point := .occupied key }
  | misses : t.point = .entered → call.target? shardOf s.entries = none →
      Moves shardOf id s t call rest s { t with point := .vacant }
  | overwrites {key : String} {e : Entry α} : t.point = .occupied key → call.Writes e →
      Moves shardOf id s t call rest (s.put key e) { t with point := .leaving call.overReply }
  | releases {key : String} : t.point = .occupied key → call.Removes →
      Moves shardOf id s t call rest { s with slots := s.slots - 1 }
        { t with point := .released key }
  | reserves {key : String} {e : Entry α} : t.point = .vacant → call = .set key e →
      s.hasFreeSlot = true →
      Moves shardOf id s t call rest { s with slots := s.slots + 1 }
        { t with point := .reserved key e }
  | rejects {key : String} {e : Entry α} : t.point = .vacant → call = .set key e →
      s.hasFreeSlot = false →
      Moves shardOf id s t call rest { s with rejected := s.rejected + 1 }
        { t with point := .leaving .rejected }
  /-- There is nothing to remove or to replace. -/
  | passes {reply : ShardReply} : t.point = .vacant → call.idleReply? t.removed = some reply →
      Moves shardOf id s t call rest s { t with point := .leaving reply }
  | inserts {key : String} {e : Entry α} : t.point = .reserved key e →
      Moves shardOf id s t call rest (s.put key e) { t with point := .leaving .stored }
  | deletes {key : String} : t.point = .released key →
      Moves shardOf id s t call rest (s.remove key) { t with point := .leaving .deleted }
  /-- A flush removes an entry and looks for the next. -/
  | flushes {key : String} {shard : Nat} {now : Instant} : t.point = .released key →
      call = .flush shard now →
      Moves shardOf id s t call rest (s.remove key)
        { t with point := .entered, removed := t.removed + 1 }
  | leaves {reply : ShardReply} : t.point = .leaving reply →
      Moves shardOf id s t call rest (s.unlock (call.shard shardOf))
        ⟨rest, .outside, 0, reply :: t.replies⟩

theorem moves_of_occupied {shardOf : String → Nat} {id : Nat} {s : Shared α} {t : Thread α}
    {key : String} (point : t.point = .occupied key) (call : ShardCall α)
    (rest : List (ShardCall α)) :
    Moves shardOf id s t call rest (t.stepOccupied s key call).1
      (t.stepOccupied s key call).2 := by
  cases call with
  | set k e => exact .overwrites point rfl
  | replace k e => exact .overwrites point rfl
  | delete k => exact .releases point trivial
  | flush shard now => exact .releases point trivial

theorem moves_of_vacant {shardOf : String → Nat} {id : Nat} {s : Shared α} {t : Thread α}
    (point : t.point = .vacant) (call : ShardCall α) (rest : List (ShardCall α)) :
    Moves shardOf id s t call rest (t.stepVacant s call).1 (t.stepVacant s call).2 := by
  cases call with
  | set k e =>
    cases free : s.hasFreeSlot with
    | true =>
      simp only [stepVacant, free, if_true]
      exact .reserves point rfl free
    | false =>
      simp only [stepVacant, free, Bool.false_eq_true, if_false]
      exact .rejects point rfl free
  | replace k e => exact .passes point rfl
  | delete k => exact .passes point rfl
  | flush shard now => exact .passes point rfl

theorem moves_of_released {shardOf : String → Nat} {id : Nat} {s : Shared α} {t : Thread α}
    {key : String} (point : t.point = .released key) (call : ShardCall α)
    (rest : List (ShardCall α)) :
    Moves shardOf id s t call rest (t.stepReleased s key call).1
      (t.stepReleased s key call).2 := by
  cases call with
  | flush shard now => exact .flushes point rfl
  | _ => exact .deletes point

theorem moves_of_step? {shardOf : String → Nat} {id : Nat} {s : Shared α} {t : Thread α}
    {after : Shared α × Thread α} (h : t.step? shardOf id s = some after) :
    ∃ call rest, t.calls = call :: rest ∧ Moves shardOf id s t call rest after.1 after.2 := by
  obtain ⟨calls, point, removed, replies⟩ := t
  cases calls with
  | nil => cases h
  | cons call rest =>
    refine ⟨call, rest, rfl, ?_⟩
    cases point with
    | outside =>
      simp only [step?] at h
      split at h
      · cases h
      · next free =>
        obtain rfl := Option.some.inj h
        exact .enters rfl (Bool.eq_false_iff.2 free)
    | entered =>
      simp only [step?] at h
      split at h
      · next key target =>
        obtain rfl := Option.some.inj h
        exact .finds rfl target
      · next target =>
        obtain rfl := Option.some.inj h
        exact .misses rfl target
    | occupied key =>
      obtain rfl := Option.some.inj h
      exact moves_of_occupied rfl call rest
    | vacant =>
      obtain rfl := Option.some.inj h
      exact moves_of_vacant rfl call rest
    | reserved key e =>
      obtain rfl := Option.some.inj h
      exact .inserts rfl
    | released key =>
      obtain rfl := Option.some.inj h
      exact moves_of_released rfl call rest
    | leaving reply =>
      obtain rfl := Option.some.inj h
      exact .leaves rfl

end Thread

namespace Sharded

/-- A turn leaves all as it was, or it is a step of the thread whose turn it is. -/
theorem turn_cases (shardOf : String → Nat) (c : Sharded α) (id : Nat) :
    c.turn shardOf id = c ∨
      ∃ t call rest s' t', c.threads[id]? = some t ∧ t.calls = call :: rest ∧
        t.Moves shardOf id c.shared call rest s' t' ∧
        c.turn shardOf id = ⟨s', c.threads.set id t'⟩ := by
  unfold turn
  cases step : c.threads[id]?.bind fun t => t.step? shardOf id c.shared with
  | none => exact .inl rfl
  | some after =>
    obtain ⟨s', t'⟩ := after
    obtain ⟨t, found, stepped⟩ := Option.bind_eq_some_iff.1 step
    obtain ⟨call, rest, calls, moves⟩ := Thread.moves_of_step? stepped
    exact .inr ⟨t, call, rest, s', t', found, calls, moves, rfl⟩

end Sharded

end WarmCache
