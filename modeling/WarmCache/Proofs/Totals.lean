import Mathlib.Algebra.Group.Nat.Defs
import Mathlib.Data.List.Nodup
import Mathlib.Data.List.ProdSigma
import WarmCache.Proofs.Contests

/-!
# The totals of a race

Threads that set keys of their own store as many as there is room for. Threads that set and delete
one key are all rejected if there is no room and none of them otherwise, and leave nothing behind.
This is so under every schedule that comes to its end, and every schedule can be brought to it.

Results:
1. `Sharded.IsEnd.counts`: in the end every set is stored or rejected, and rejections are counted.
2. `Sharded.comesToEnd`: rounds in which every thread has a turn bring a schedule to its end.
3. `Sharded.IsEnd.ownKeys`, `Sharded.IsEnd.oneKey`: what was stored and what is left.
4. `Sharded.totals_independent`: the totals, for every schedule.
5. `Race.totals_distinctKeys`, `Race.totals_sharedKey`: the totals that a race reports.
-/

namespace WarmCache

variable {α : Type}

namespace Sharded

variable {shardOf : String → Nat} {c : Sharded α}

/-! ## At the end -/

/-- A thread whose calls are all made is at rest. -/
theorem Orderly.outside (h : c.Orderly shardOf) (done : c.isDone = true) :
    ∀ t ∈ c.threads, t.point = .outside :=
  fun t ht => (h.sound t ht).idle (calls_of_isDone done t ht)

/-- Then the entries take all slots that are taken. -/
theorem Orderly.slots_eq (h : c.Orderly shardOf) (done : c.isDone = true) :
    c.shared.slots = c.shared.entries.length := by
  have balance := h.balanced.slots_eq
  rw [reserving_eq_zero (h.outside done), releasing_eq_zero (h.outside done)] at balance
  omega

theorem total_congr {f g : Thread α → Nat} (same : ∀ t ∈ c.threads, f t = g t) :
    c.total f = c.total g := by
  unfold total
  generalize c.threads = threads at same
  induction threads with
  | nil => rfl
  | cons t rest ih =>
    rw [List.foldr_cons, List.foldr_cons, same t List.mem_cons_self,
      ih fun u hu => same u (List.mem_cons_of_mem t hu)]

/-- How often the threads had this reply. -/
def replied (c : Sharded α) (reply : ShardReply) : Nat := c.total fun t => t.replies.count reply

/-- Every set has been stored or rejected, and its thread has the reply. -/
theorem Orderly.counts (h : c.Orderly shardOf) (done : c.isDone = true) :
    c.total Thread.stored = c.replied .stored ∧
      c.total Thread.rejections = c.replied .rejected ∧
      c.total Thread.sets = c.replied .stored + c.replied .rejected := by
  have at_rest : ∀ t ∈ c.threads, t.calls = [] ∧ t.point = .outside :=
    fun t ht => ⟨calls_of_isDone done t ht, h.outside done t ht⟩
  unfold replied
  rw [← total_add]
  refine ⟨total_congr fun t ht => ?_, total_congr fun t ht => ?_, total_congr fun t ht => ?_⟩
  all_goals
    obtain ⟨calls, point⟩ := at_rest t ht
    simp only [Thread.stored, Thread.rejections, Thread.sets, Thread.unanswered, calls, point,
      List.countP_nil, Nat.add_zero]

/-- The threads have made all their calls, whichever came first. -/
def IsEnd (shardOf : String → Nat) (limit : Option Nat) (programs : List (List (ShardCall α)))
    (c : Sharded α) : Prop :=
  ∃ schedule : List Nat, (start limit programs).run shardOf schedule = c ∧ c.isDone = true

/-- However the threads began, they come to their ends, if from then on every thread has a turn
in each of as many rounds as their calls may take steps. -/
def ComesToEnd (shardOf : String → Nat) (limit : Option Nat)
    (programs : List (List (ShardCall α))) : Prop :=
  ∀ (schedule : List Nat) (rounds : List (List Nat)),
    (∀ round ∈ rounds, ∀ id < programs.length, id ∈ round) →
    Race.stepsOfCall * programs.flatten.length ≤ rounds.length →
    ((start limit programs).run shardOf (schedule ++ rounds.flatten)).isDone = true

variable {limit : Option Nat} {programs : List (List (ShardCall α))}

theorem IsEnd.orderly (h : IsEnd shardOf limit programs c) : c.Orderly shardOf := by
  obtain ⟨schedule, rfl, _⟩ := h
  exact (Orderly.start shardOf limit programs).run schedule

theorem IsEnd.limit_eq (h : IsEnd shardOf limit programs c) : c.shared.limit = limit := by
  obtain ⟨schedule, rfl, _⟩ := h
  exact limit_run shardOf (start limit programs) schedule

/-- At the end all sets are stored or rejected, and rejections have been counted. -/
theorem IsEnd.counts (h : IsEnd shardOf limit programs c) :
    c.replied .stored + c.replied .rejected = programs.flatten.countP ShardCall.isSet ∧
      c.shared.rejected = .ofNat (c.replied .rejected) := by
  obtain ⟨_, rejected, sets⟩ := h.orderly.counts h.choose_spec.2
  obtain ⟨schedule, rfl, done⟩ := h
  have tallied := (Tallied.start limit programs).run (Orderly.start shardOf limit programs) schedule
  exact ⟨sets.symm.trans tallied.sets_eq, rejected ▸ tallied.rejected_eq⟩

/-! ## Every schedule can be brought to its end -/

theorem run_of_isDone (done : c.isDone = true) (schedule : List Nat) :
    c.run shardOf schedule = c := by
  induction schedule with
  | nil => rfl
  | cons id later ih =>
    have still : ¬ c.Able shardOf id := by
      rintro ⟨after, step⟩
      obtain ⟨t, found, stepped⟩ := Option.bind_eq_some_iff.1 step
      obtain ⟨call, rest, calls, _⟩ := Thread.moves_of_step? stepped
      rw [calls_of_isDone done t (List.mem_of_getElem? found)] at calls
      cases calls
    exact (congrArg (fun d : Sharded α => d.run shardOf later) (turn_of_not_able still)).trans ih

/-- Rounds in which every thread has one turn are a schedule. -/
theorem runRounds_eq_run (shardOf : String → Nat) (rounds : Nat) (c : Sharded α) :
    c.runRounds shardOf rounds =
      c.run shardOf (List.replicate rounds (List.range c.threads.length)).flatten := by
  induction rounds generalizing c with
  | zero => rfl
  | succ rounds ih =>
    rw [runRounds]
    split
    · next done => exact (run_of_isDone done _).symm
    · rw [ih, length_run, List.replicate_succ, List.flatten_cons, run_append]

theorem total_start_stepsLeft (limit : Option Nat) (programs : List (List (ShardCall α))) :
    (start limit programs).total Thread.stepsLeft =
      Race.stepsOfCall * programs.flatten.length := by
  unfold total start
  induction programs with
  | nil => rfl
  | cons calls rest ih =>
    have one : (Thread.ofCalls calls).stepsLeft = Race.stepsOfCall * calls.length := by
      cases calls <;> rfl
    rw [List.map_cons, List.foldr_cons, ih, one, List.flatten_cons, List.length_append,
      Nat.mul_add]

theorem Bounded.start (limit : Option Nat) {programs : List (List (ShardCall α))}
    (bounded : ∀ call ∈ programs.flatten, call.isFlush = false) :
    (start limit programs).Bounded := by
  intro t ht call hc
  obtain ⟨calls, member, rfl⟩ := List.mem_map.1 ht
  exact bounded call (List.mem_flatten_of_mem member hc)

theorem comesToEnd (shardOf : String → Nat) (limit : Option Nat)
    {programs : List (List (ShardCall α))}
    (bounded : ∀ call ∈ programs.flatten, call.isFlush = false) :
    ComesToEnd shardOf limit programs := by
  intro schedule rounds fair enough
  have orderly := Orderly.start shardOf limit programs
  have begun := Bounded.start limit bounded
  rw [run_append]
  refine isDone_rounds (orderly.run schedule) (begun.run shardOf schedule)
    (fun round hr id inside => fair round hr id ?_) ?_
  · rw [length_run] at inside
    exact Nat.lt_of_lt_of_eq inside (List.length_map _)
  · refine Nat.le_trans ?_ enough
    rw [← total_start_stepsLeft limit]
    exact total_run_le begun schedule

/-! ## The totals -/

/-- The sets of threads with keys of their own. -/
theorem flatten_ownKeys (keyOf : Nat → Nat → String) (entryOf : Nat → Nat → Entry α)
    (threads each : Nat) :
    (Race.ownKeys keyOf entryOf threads each).flatten =
      (List.range threads ×ˢ List.range each).map fun p =>
        .set (keyOf p.1 p.2) (entryOf p.1 p.2) := by
  simp only [Race.ownKeys, SProd.sprod, List.product, List.flatMap_def, List.map_flatten,
    List.map_map, Function.comp_def]

theorem isSet_ownKeys (keyOf : Nat → Nat → String) (entryOf : Nat → Nat → Entry α)
    (threads each : Nat) :
    ∀ call ∈ (Race.ownKeys keyOf entryOf threads each).flatten, call.isSet = true := by
  rw [flatten_ownKeys]
  intro call hc
  obtain ⟨p, _, rfl⟩ := List.mem_map.1 hc
  rfl

theorem length_ownKeys (keyOf : Nat → Nat → String) (entryOf : Nat → Nat → Entry α)
    (threads each : Nat) :
    (Race.ownKeys keyOf entryOf threads each).flatten.length = threads * each := by
  rw [flatten_ownKeys, List.length_map, List.length_product, List.length_range, List.length_range]

/-- Distinct keys are pending before the threads begin. -/
theorem nodup_ownKeys {keyOf : Nat → Nat → String} (entryOf : Nat → Nat → Entry α)
    {threads each : Nat} (distinct : ∀ t < threads, ∀ i < each, ∀ u < threads, ∀ j < each,
      keyOf t i = keyOf u j → t = u ∧ i = j) :
    ((Race.ownKeys keyOf entryOf threads each).flatten.filterMap ShardCall.setKey?).Nodup := by
  have keys : (Race.ownKeys keyOf entryOf threads each).flatten.filterMap ShardCall.setKey? =
      (List.range threads ×ˢ List.range each).map fun p => keyOf p.1 p.2 := by
    rw [flatten_ownKeys, List.filterMap_map, ← List.filterMap_eq_map]
    rfl
  rw [keys]
  refine List.Nodup.map_on (fun p hp q hq same => ?_) (List.nodup_range.product List.nodup_range)
  obtain ⟨thread, round⟩ := List.mem_product.1 hp
  obtain ⟨thread', round'⟩ := List.mem_product.1 hq
  obtain ⟨first, second⟩ := distinct p.1 (List.mem_range.1 thread) p.2 (List.mem_range.1 round)
    q.1 (List.mem_range.1 thread') q.2 (List.mem_range.1 round') same
  exact Prod.ext first second

theorem mem_oneKey {key : String} {entryOf : Nat → Nat → Entry α} {threads each : Nat}
    {call : ShardCall α} (h : call ∈ (Race.oneKey key entryOf threads each).flatten) :
    (∃ e, call = .set key e) ∨ call = .delete key := by
  obtain ⟨calls, member, hc⟩ := List.mem_flatten.1 h
  obtain ⟨t, _, rfl⟩ := List.mem_map.1 member
  obtain ⟨e, _, pair⟩ := List.mem_flatMap.1 hc
  rcases List.mem_cons.1 pair with rfl | last
  · exact .inl ⟨e, rfl⟩
  · exact .inr (List.mem_singleton.1 last)

theorem countP_oneKey (key : String) (entryOf : Nat → Nat → Entry α) (threads each : Nat) :
    (Race.oneKey key entryOf threads each).flatten.countP ShardCall.isSet = threads * each := by
  have one : ∀ entries : List (Entry α),
      (Race.setAndDelete key entries).countP ShardCall.isSet = entries.length := by
    intro entries
    induction entries with
    | nil => rfl
    | cons e later ih =>
      have pair : Race.setAndDelete key (e :: later) =
          .set key e :: .delete key :: Race.setAndDelete key later := rfl
      rw [pair, List.countP_cons_of_pos rfl, List.countP_cons_of_neg Bool.false_ne_true, ih,
        List.length_cons]
  simp [Race.oneKey, List.countP_flatten, Function.comp_def, one]

theorem comesToEnd_ownKeys (shardOf : String → Nat) (limit : Option Nat)
    (keyOf : Nat → Nat → String) (entryOf : Nat → Nat → Entry α) (threads each : Nat) :
    ComesToEnd shardOf limit (Race.ownKeys keyOf entryOf threads each) := by
  refine comesToEnd shardOf limit fun call hc => ?_
  obtain ⟨k, e, rfl⟩ := ShardCall.eq_set_of_isSet (isSet_ownKeys _ _ _ _ call hc)
  rfl

theorem comesToEnd_oneKey (shardOf : String → Nat) (limit : Option Nat) (key : String)
    (entryOf : Nat → Nat → Entry α) (threads each : Nat) :
    ComesToEnd shardOf limit (Race.oneKey key entryOf threads each) := by
  refine comesToEnd shardOf limit fun call hc => ?_
  rcases mem_oneKey hc with ⟨e, rfl⟩ | rfl
  · rfl
  · rfl

/-- So many sets of keys of their own go well as there is room for. -/
theorem IsEnd.ownKeys {keyOf : Nat → Nat → String} {entryOf : Nat → Nat → Entry α}
    {threads each : Nat} (distinct : ∀ t < threads, ∀ i < each, ∀ u < threads, ∀ j < each,
      keyOf t i = keyOf u j → t = u ∧ i = j)
    (h : IsEnd shardOf limit (Race.ownKeys keyOf entryOf threads each) c) :
    c.replied .stored = limit.elim (threads * each) (min (threads * each)) ∧
      c.replied .stored + c.replied .rejected = threads * each ∧
      c.shared.entries.length = c.replied .stored ∧
      c.shared.rejected = .ofNat (c.replied .rejected) := by
  have sets := isSet_ownKeys keyOf entryOf threads each
  have orderly := h.orderly
  have same := h.limit_eq
  obtain ⟨all, counted⟩ := h.counts
  rw [List.countP_eq_length.2 sets, length_ownKeys] at all
  obtain ⟨schedule, at_end, done⟩ := h
  have contest : c.Contest := by
    rw [← at_end]
    refine Contest.run (.start limit (fun calls member call hc => ?_) ?_)
      (.start shardOf limit _) schedule
    · exact sets call (List.mem_flatten_of_mem member hc)
    · exact nodup_ownKeys entryOf distinct
  obtain ⟨stored, rejected, _⟩ := orderly.counts done
  have entries := contest.stored
  have slots := orderly.slots_eq done
  refine ⟨?_, all, entries.symm.trans stored, counted⟩
  cases limit with
  | none =>
    show c.replied .stored = threads * each
    rcases contest.full with none | ⟨l, hl, _⟩
    · omega
    · rw [same] at hl
      cases hl
  | some l =>
    show c.replied .stored = min (threads * each) l
    have le := orderly.balanced.slots_le l same
    rcases contest.full with none | ⟨l', hl, ge⟩
    · omega
    · obtain rfl : l = l' := Option.some.inj (same.symm.trans hl)
      omega

/-- Sets and deletes of one key are never rejected, unless there is no room at all. -/
theorem IsEnd.oneKey {key : String} {entryOf : Nat → Nat → Entry α} {threads each : Nat}
    (h : IsEnd shardOf limit (Race.oneKey key entryOf threads each) c) :
    c.replied .stored = (if limit = some 0 then 0 else threads * each) ∧
      c.replied .rejected = (if limit = some 0 then threads * each else 0) ∧
      c.shared.entries = [] ∧ c.shared.slots = 0 := by
  have balanced := Balanced.start shardOf limit (Race.oneKey key entryOf threads each)
  have orderly := h.orderly
  have all := h.counts.1
  rw [countP_oneKey] at all
  obtain ⟨schedule, rfl, done⟩ := h
  obtain ⟨stored, rejected, _⟩ := orderly.counts done
  have empty := ((Relay.start key limit entryOf threads each).run balanced schedule).entries_eq_nil
    done
  have slots := orderly.slots_eq done
  rw [empty] at slots
  split
  · next none =>
    subst none
    have barren := (Barren.start (Race.oneKey key entryOf threads each)).run balanced schedule
    have nothing := total_eq_zero fun t ht => (barren.threads t ht).stored
    exact ⟨by omega, by omega, empty, slots⟩
  · next room =>
    have names : ∀ calls ∈ Race.oneKey key entryOf threads each, ∀ call ∈ calls,
        call.Names key := by
      intro calls member call hc
      rcases mem_oneKey (List.mem_flatten_of_mem member hc) with ⟨e, rfl⟩ | rfl
      · rfl
      · rfl
    have one : ∀ l, limit = some l → 1 ≤ l := by
      rintro l rfl
      exact Nat.one_le_iff_ne_zero.2 fun zero => room (congrArg some zero)
    have accepted := total_eq_zero ((OneKey.start limit names).run balanced one schedule).accepted
    exact ⟨by omega, by omega, empty, slots⟩

/-- Under every schedule that is carried to its end, as many sets go well as there is room for if
the threads set keys of their own; the others are rejected and counted, and the cache is as long
as the number of those that went well. If all threads set and delete one key, every set goes well,
or none does if there is no room, and nothing is left. From whatever point, rounds in which every
thread has a turn carry a schedule to its end. -/
theorem totals_independent (shardOf : String → Nat) (limit : Option Nat)
    (keyOf : Nat → Nat → String) (entryOf : Nat → Nat → Entry α) (threads each : Nat)
    (distinct : ∀ t < threads, ∀ i < each, ∀ u < threads, ∀ j < each,
      keyOf t i = keyOf u j → t = u ∧ i = j) (key : String) :
    (∀ c, IsEnd shardOf limit (Race.ownKeys keyOf entryOf threads each) c →
        c.replied .stored = limit.elim (threads * each) (min (threads * each)) ∧
          c.replied .stored + c.replied .rejected = threads * each ∧
          c.shared.entries.length = c.replied .stored ∧
          c.shared.rejected = .ofNat (c.replied .rejected)) ∧
      ComesToEnd shardOf limit (Race.ownKeys keyOf entryOf threads each) ∧
      (∀ c, IsEnd shardOf limit (Race.oneKey key entryOf threads each) c →
        c.replied .stored = (if limit = some 0 then 0 else threads * each) ∧
          c.replied .rejected = (if limit = some 0 then threads * each else 0) ∧
          c.shared.entries = [] ∧ c.shared.slots = 0) ∧
      ComesToEnd shardOf limit (Race.oneKey key entryOf threads each) := by
  exact ⟨fun c => IsEnd.ownKeys distinct,
    comesToEnd_ownKeys shardOf limit keyOf entryOf threads each, fun c => IsEnd.oneKey,
    comesToEnd_oneKey shardOf limit key entryOf threads each⟩

end Sharded

namespace Race

/-- The key that a thread sets in a round. -/
def key (thread round : Nat) : String := toString thread ++ "-" ++ toString round

theorem key_injective {t i u j : Nat} (same : key t i = key u j) : t = u ∧ i = j := by
  have digits : ∀ n : Nat, '-' ∉ Nat.toDigits 10 n := fun n member =>
    absurd (Nat.isDigit_of_mem_toDigits (by decide) (by decide) member) (by decide)
  have read : ∀ {m n : Nat}, Nat.toDigits 10 m = Nat.toDigits 10 n → m = n := by
    intro m n equal
    calc
      m = Nat.ofDigitChars 10 (Nat.toDigits 10 m) 0 := Nat.ofDigitChars_ten_toDigits.symm
      _ = Nat.ofDigitChars 10 (Nat.toDigits 10 n) 0 := by rw [equal]
      _ = n := Nat.ofDigitChars_ten_toDigits
  have lists : Nat.toDigits 10 t ++ '-' :: Nat.toDigits 10 i =
      Nat.toDigits 10 u ++ '-' :: Nat.toDigits 10 j := by
    have lists := congrArg String.toList same
    simp only [key, String.toList_append, List.append_assoc, Nat.toString_eq_repr,
      Nat.toList_repr] at lists
    exact lists
  obtain ⟨first, _, second⟩ := (List.append_cons_inj_of_notMem (digits t) (digits i)).1 lists
  exact ⟨read first, read second⟩

end Race

namespace Sharded

/-- Two threads, the second of which comes first, in a cache with one slot. -/
theorem totals_independent_second_first :
    let shardOf : String → Nat := fun key => if key = "0-0" then 0 else 1
    let c := (start (some 1) (Race.ownKeys Race.key (fun _ _ => Race.entry) 2 1)).run shardOf
      [1, 0, 1, 0, 1, 0, 1, 0, 1, 0]
    c.isDone = true ∧ c.shared.entries.keys = ["1-0"] ∧ c.replied .stored = 1 ∧
      c.shared.entries.length = 1 := by
  intro shardOf c
  have done : c.isDone = true := by decide +kernel
  obtain ⟨ends, _⟩ := totals_independent shardOf (some 1) Race.key (fun _ _ => Race.entry) 2 1
    (fun _ _ _ _ _ _ _ _ => Race.key_injective) "shared"
  obtain ⟨stored, _, length, _⟩ := ends c ⟨_, rfl, done⟩
  exact ⟨done, by decide +kernel, stored, length.trans stored⟩

end Sharded

/-! ## The race in rounds -/

namespace Race

/-- A race reports the totals of an end. -/
theorem totals_of_comesToEnd {limit : Option Nat} {mode : Mode} {threads each : Nat}
    (comes : Sharded.ComesToEnd shardOf limit (programs mode threads each)) :
    ∃ c, totals limit mode threads each = totalsOf c ∧
      Sharded.IsEnd shardOf limit (programs mode threads each) c := by
  have length : ∀ programs : List (List (ShardCall Int)),
      programs.foldr (fun calls n => calls.length + n) 0 = programs.flatten.length := by
    intro programs
    induction programs with
    | nil => rfl
    | cons calls rest ih => rw [List.foldr_cons, ih, List.flatten_cons, List.length_append]
  refine ⟨_, rfl, ?_⟩
  rw [Sharded.runRounds_eq_run, length]
  refine ⟨_, rfl, comes [] _ (fun round hr id inside => ?_) ?_⟩
  · rw [List.eq_of_mem_replicate hr]
    exact List.mem_range.2 (Nat.lt_of_lt_of_eq inside (List.length_map _).symm)
  · exact Nat.le_of_eq List.length_replicate.symm

theorem totalsOf_eq (c : Sharded Int) :
    totalsOf c = ⟨c.replied .stored, c.replied .rejected, c.shared.entries.length,
      c.shared.rejected.toNat⟩ := rfl

/-- In a race for slots as many sets go well as there are slots. -/
theorem totals_distinctKeys (limit : Option Nat) (threads each : Nat) :
    let stored := limit.elim (threads * each) (min (threads * each))
    totals limit .distinctKeys threads each =
      ⟨stored, threads * each - stored, stored, (threads * each - stored) % 2 ^ 64⟩ := by
  intro stored
  have comes : Sharded.ComesToEnd shardOf limit (programs .distinctKeys threads each) :=
    Sharded.comesToEnd_ownKeys shardOf limit key (fun _ _ => entry) threads each
  obtain ⟨c, same, at_end⟩ := totals_of_comesToEnd comes
  have own : Sharded.IsEnd shardOf limit (ownKeys key (fun _ _ => entry) threads each) c := at_end
  obtain ⟨ok, all, length, counted⟩ := own.ownKeys fun _ _ _ _ _ _ _ _ => key_injective
  have others : c.replied .rejected = threads * each - stored := by omega
  rw [same, totalsOf_eq, counted, length, ok, others, UInt64.toNat_ofNat']

theorem programs_sharedKey (threads each : Nat) :
    programs .sharedKey threads each = oneKey "shared" (fun _ _ => entry) threads each := by
  have round : calls .sharedKey each =
      fun _ => setAndDelete "shared" ((List.range each).map fun _ => entry) := by
    funext thread
    simp only [calls, setAndDelete, List.flatMap_def, List.map_const', List.length_range,
      List.map_replicate]
  rw [programs, round]
  rfl

/-- In a race for one key every set goes well, or none does if there is no slot. -/
theorem totals_sharedKey (limit : Option Nat) (threads each : Nat) :
    totals limit .sharedKey threads each =
      if limit = some 0 then ⟨0, threads * each, 0, threads * each % 2 ^ 64⟩
      else ⟨threads * each, 0, 0, 0⟩ := by
  have comes : Sharded.ComesToEnd shardOf limit (programs .sharedKey threads each) := by
    rw [programs_sharedKey]
    exact Sharded.comesToEnd_oneKey shardOf limit "shared" (fun _ _ => entry) threads each
  obtain ⟨c, same, at_end⟩ := totals_of_comesToEnd comes
  rw [programs_sharedKey] at at_end
  obtain ⟨ok, rejected, empty, _⟩ := at_end.oneKey
  rw [same, totalsOf_eq, at_end.counts.2, ok, rejected, empty, UInt64.toNat_ofNat']
  split <;> rfl

end Race

end WarmCache
