import Mathlib.Data.List.Perm.Basic
import Mathlib.Data.List.Perm.Subperm
import WarmCache.Proofs.Rejections
import WarmCache.Race

/-!
# What threads have done and have yet to do

A set is answered when it has stored its entry or was rejected, and every set that was not is
still before its thread. So the sets of a thread are its answers and what is left, after every
turn of every schedule. A call that is not a flush takes a bounded number of steps, and locks
never bring all threads to a halt, so the calls of all threads come to their ends.

Results:
1. `Thread.Moves.sets_eq`: a set is stored, rejected or left.
2. `Sharded.Tallied.run`: so it is under every schedule, and the counter of rejections is right.
3. `Sharded.exists_able`: as long as there are calls, some thread can make a step.
4. `Sharded.isDone_rounds`: after enough rounds in which every thread has a turn all calls are made.
-/

namespace WarmCache

variable {α : Type}

namespace ShardCall

/-- Whether a call is a set. -/
def isSet : ShardCall α → Bool
  | set _ _ => true
  | _ => false

/-- Whether a call is a flush. -/
def isFlush : ShardCall α → Bool
  | flush _ _ => true
  | _ => false

end ShardCall

/-- Whether a reply is one to a set. -/
def ShardReply.isOfSet : ShardReply → Bool
  | stored => true
  | rejected => true
  | _ => false

theorem ShardCall.isOfSet_idleReply? {call : ShardCall α} {removed : Nat} {reply : ShardReply}
    (h : call.idleReply? removed = some reply) : reply.isOfSet = call.isSet := by
  cases call with
  | set key e => cases h
  | _ =>
    obtain rfl := Option.some.inj h
    rfl

namespace Thread

/-- How many sets of a thread have stored their entries so far. -/
def stored (t : Thread α) : Nat :=
  t.replies.count .stored +
    match t.point with
    | .leaving .stored => 1
    | _ => 0

/-- The calls of a thread that have not come to a reply. -/
def unanswered (t : Thread α) : List (ShardCall α) :=
  match t.point with
  | .leaving _ => t.calls.tail
  | _ => t.calls

/-- How many sets a thread has made or has before it. -/
def sets (t : Thread α) : Nat :=
  t.stored + t.rejections + t.unanswered.countP ShardCall.isSet

/-- The steps that a thread has before it, at most, if none of its calls is a flush. -/
def stepsLeft (t : Thread α) : Nat :=
  match t.calls with
  | [] => 0
  | _ :: rest =>
    Race.stepsOfCall * rest.length +
      match t.point with
      | .outside => 5
      | .entered => 4
      | .occupied _ => 3
      | .vacant => 3
      | .reserved _ _ => 2
      | .released _ => 2
      | .leaving _ => 1

/-- A thread without calls is in no call, and one that gave back a slot is in a call that
removes. -/
structure Sound (t : Thread α) : Prop where
  idle : t.calls = [] → t.point = .outside
  removes : ∀ key, t.point = .released key → ∀ call ∈ t.calls.head?, call.Removes

/-- Until a call is answered its sets are told by the replies and the calls. -/
theorem sets_within (calls : List (ShardCall α)) {point : Point α} (removed : Nat)
    (replies : List ShardReply) (within : ∀ reply, point ≠ .leaving reply) :
    sets ⟨calls, point, removed, replies⟩ =
      replies.count .stored + replies.count .rejected + calls.countP ShardCall.isSet := by
  cases point with
  | leaving reply => exact absurd rfl (within reply)
  | _ => rfl

/-- A reply counts for a set exactly if the call was one. -/
theorem sets_leaving {call : ShardCall α} {reply : ShardReply} (h : reply.isOfSet = call.isSet)
    (rest : List (ShardCall α)) (removed : Nat) (replies : List ShardReply) :
    sets ⟨call :: rest, .leaving reply, removed, replies⟩ =
      replies.count .stored + replies.count .rejected + (call :: rest).countP ShardCall.isSet := by
  have more : (call :: rest).countP ShardCall.isSet =
      rest.countP ShardCall.isSet + reply.isOfSet.toNat := by
    rw [List.countP_cons, ← h]
    cases reply.isOfSet <;> rfl
  rw [more]
  cases reply <;> simp only [sets, stored, rejections, unanswered, ShardReply.isOfSet,
    List.tail_cons, Bool.toNat_true, Bool.toNat_false] <;> omega

variable {shardOf : String → Nat} {id : Nat} {s s' : Shared α} {t t' : Thread α}
  {call : ShardCall α} {rest : List (ShardCall α)}

theorem Moves.sound (moves : t.Moves shardOf id s call rest s' t')
    (calls : t.calls = call :: rest) (sound : t.Sound) : t'.Sound := by
  obtain ⟨todo, point, removed, replies⟩ := t
  obtain rfl : todo = call :: rest := calls
  cases moves with
  | @releases key _ removes =>
    refine ⟨nofun, fun _ _ other head => ?_⟩
    obtain rfl : call = other := Option.some.inj head
    exact removes
  | leaves _ => exact ⟨fun _ => rfl, nofun⟩
  | _ => exact ⟨nofun, nofun⟩

/-- A set is stored or rejected when it is answered, and not before. -/
theorem Moves.sets_eq (moves : t.Moves shardOf id s call rest s' t')
    (calls : t.calls = call :: rest) (seen : t.Sees shardOf s.entries) (sound : t.Sound) :
    t'.sets = t.sets := by
  obtain ⟨todo, point, removed, replies⟩ := t
  obtain rfl : todo = call :: rest := calls
  have answered : ∀ {before : Point α} {reply : ShardReply},
      (∀ reply, before ≠ .leaving reply) → reply.isOfSet = call.isSet →
      sets ⟨call :: rest, .leaving reply, removed, replies⟩ =
        sets ⟨call :: rest, before, removed, replies⟩ := by
    intro before reply within ofSet
    rw [sets_leaving ofSet, sets_within _ _ _ within]
  cases moves with
  | @overwrites key e at_point writes =>
    obtain rfl : point = .occupied key := at_point
    refine answered nofun ?_
    cases call with
    | set k e' => rfl
    | replace k e' => rfl
    | delete k => exact writes.elim
    | flush shard now => exact writes.elim
  | @rejects key e at_point set _ =>
    obtain rfl : point = .vacant := at_point
    refine answered nofun ?_
    rw [set]
    rfl
  | passes at_point idle =>
    obtain rfl : point = .vacant := at_point
    exact answered nofun (ShardCall.isOfSet_idleReply? idle)
  | @inserts key e at_point =>
    obtain rfl : point = .reserved key e := at_point
    obtain rfl : call = .set key e := Option.some.inj seen.1
    exact answered nofun rfl
  | @deletes key at_point =>
    obtain rfl : point = .released key := at_point
    have removes := sound.removes key rfl call rfl
    refine answered nofun ?_
    cases call with
    | set k e' => exact removes.elim
    | replace k e' => exact removes.elim
    | delete k => rfl
    | flush shard now => rfl
  | @leaves reply at_point =>
    obtain rfl : point = .leaving reply := at_point
    cases reply <;> simp [sets, stored, rejections, unanswered]
  | enters at_point _ | finds at_point _ | misses at_point _ | releases at_point _
  | reserves at_point _ _ | flushes at_point _ =>
    obtain rfl : point = _ := at_point
    rfl

/-- Every step of a call other than a flush is one of the few that it takes. -/
theorem Moves.stepsLeft_lt (moves : t.Moves shardOf id s call rest s' t')
    (calls : t.calls = call :: rest) (bounded : call.isFlush = false) :
    t'.stepsLeft < t.stepsLeft := by
  obtain ⟨todo, point, removed, replies⟩ := t
  obtain rfl : todo = call :: rest := calls
  cases moves with
  | @flushes key shard now at_point flush =>
    rw [flush] at bounded
    cases bounded
  | @leaves reply at_point =>
    obtain rfl : point = .leaving reply := at_point
    cases rest with
    | nil => exact Nat.zero_lt_one
    | cons next later =>
      simp only [stepsLeft, Race.stepsOfCall, List.length_cons]
      omega
  | enters at_point _ | finds at_point _ | misses at_point _ | overwrites at_point _
  | releases at_point _ | reserves at_point _ _ | rejects at_point _ _ | passes at_point _
  | inserts at_point | deletes at_point =>
    obtain rfl : point = _ := at_point
    simp only [stepsLeft]
    omega

/-- A thread in a call waits for nothing. -/
theorem exists_step_of_inside (shardOf : String → Nat) (id : Nat) (s : Shared α) {t : Thread α}
    (some : t.calls ≠ []) (inside : t.point ≠ .outside) :
    ∃ after, t.step? shardOf id s = Option.some after := by
  obtain ⟨calls, point, removed, replies⟩ := t
  cases calls with
  | nil => exact absurd rfl some
  | cons call rest =>
    cases point with
    | outside => exact absurd rfl inside
    | entered =>
      cases target : call.target? shardOf s.entries with
      | none => exact ⟨_, by simp only [step?, target]; rfl⟩
      | some key => exact ⟨_, by simp only [step?, target]; rfl⟩
    | _ => exact ⟨_, rfl⟩

/-- A thread outside begins its next call as soon as the lock is free. -/
theorem exists_step_of_free (id : Nat) {t : Thread α} (outside : t.point = .outside)
    (some : t.calls ≠ []) (free : ∀ call ∈ t.calls, s.isLocked (call.shard shardOf) = false) :
    ∃ after, t.step? shardOf id s = Option.some after := by
  obtain ⟨calls, point, removed, replies⟩ := t
  obtain rfl : point = .outside := outside
  cases calls with
  | nil => exact absurd rfl some
  | cons call rest =>
    have unlocked := free call List.mem_cons_self
    exact ⟨_, by simp only [step?, unlocked, Bool.false_eq_true, if_false]; rfl⟩

end Thread

namespace Sharded

variable {shardOf : String → Nat} {c : Sharded α}

/-- A number that each thread has, over all threads. -/
def total (c : Sharded α) (f : Thread α → Nat) : Nat := c.threads.foldr (fun t n => f t + n) 0

theorem total_set {id : Nat} {t : Thread α} (found : c.threads[id]? = some t) (s' : Shared α)
    (t' : Thread α) (f : Thread α → Nat) :
    (Sharded.mk s' (c.threads.set id t')).total f + f t = c.total f + f t' :=
  foldr_add_set f found t'

theorem total_eq_zero {f : Thread α → Nat} (none : ∀ t ∈ c.threads, f t = 0) : c.total f = 0 := by
  unfold total
  generalize c.threads = threads at none
  induction threads with
  | nil => rfl
  | cons t rest ih =>
    rw [List.foldr_cons, none t List.mem_cons_self, Nat.zero_add]
    exact ih fun u hu => none u (List.mem_cons_of_mem t hu)

theorem total_add (c : Sharded α) (f g : Thread α → Nat) :
    c.total (fun t => f t + g t) = c.total f + c.total g := by
  unfold total
  induction c.threads with
  | nil => rfl
  | cons t rest ih =>
    simp only [List.foldr_cons, ih]
    omega

/-- What holds of every thread before a turn and of the one that made a step holds of all after
it. -/
theorem forall_mem_set {id : Nat} {t' : Thread α} {P : Thread α → Prop}
    (all : ∀ t ∈ c.threads, P t) (one : P t') : ∀ t ∈ c.threads.set id t', P t := by
  intro t ht
  rcases List.mem_or_eq_of_mem_set ht with old | rfl
  · exact all t old
  · exact one

/-- The slots are in balance and every thread is sound. -/
structure Orderly (shardOf : String → Nat) (c : Sharded α) : Prop where
  balanced : c.Balanced shardOf
  sound : ∀ t ∈ c.threads, t.Sound

namespace Orderly

theorem start (shardOf : String → Nat) (limit : Option Nat)
    (programs : List (List (ShardCall α))) : Orderly shardOf (start limit programs) := by
  refine ⟨.start shardOf limit programs, fun t ht => ?_⟩
  obtain ⟨calls, _, rfl⟩ := List.mem_map.1 ht
  exact ⟨fun _ => rfl, nofun⟩

theorem turn (h : c.Orderly shardOf) (id : Nat) : (c.turn shardOf id).Orderly shardOf := by
  refine ⟨h.balanced.turn id, ?_⟩
  rcases turn_cases shardOf c id with same | ⟨t, call, rest, s', t', found, calls, moves, after⟩
  · rw [same]
    exact h.sound
  · rw [after]
    exact forall_mem_set h.sound (moves.sound calls (h.sound t (List.mem_of_getElem? found)))

theorem run (h : c.Orderly shardOf) (schedule : List Nat) :
    (c.run shardOf schedule).Orderly shardOf := by
  induction schedule generalizing c with
  | nil => exact h
  | cons id later ih => exact ih (h.turn id)

end Orderly

/-! ## Sets and their answers -/

/-- Threads that make so many sets altogether, whose rejections are counted right. -/
structure Tallied (sets : Nat) (c : Sharded α) : Prop where
  sets_eq : c.total Thread.sets = sets
  rejected_eq : c.shared.rejected = .ofNat (c.total Thread.rejections)

namespace Tallied

variable {sets : Nat}

theorem start (limit : Option Nat) (programs : List (List (ShardCall α))) :
    Tallied (programs.flatten.countP ShardCall.isSet) (start limit programs) := by
  constructor
  · unfold total Sharded.start
    induction programs with
    | nil => rfl
    | cons calls rest ih =>
      rw [List.flatten_cons, List.countP_append, ← ih]
      exact congrArg (· + _) (Nat.zero_add _)
  · have none : (Sharded.start limit programs).total Thread.rejections = 0 := by
      refine total_eq_zero fun t ht => ?_
      obtain ⟨calls, _, rfl⟩ := List.mem_map.1 ht
      rfl
    rw [none]
    rfl

theorem turn (h : Tallied sets c) (orderly : c.Orderly shardOf) (id : Nat) :
    Tallied sets (c.turn shardOf id) := by
  rcases turn_cases shardOf c id with same | ⟨t, call, rest, s', t', found, calls, moves, after⟩
  · rw [same]
    exact h
  · have ht := List.mem_of_getElem? found
    have sets := moves.sets_eq calls (orderly.balanced.sees t ht) (orderly.sound t ht)
    have all := total_set found s' t' Thread.sets
    have some := total_set found s' t' Thread.rejections
    rw [after]
    constructor
    · rw [← h.sets_eq]
      omega
    · rcases moves.rejections_cases with ⟨same, kept⟩ | ⟨_, _, _, more, counted⟩
      · have equal : (Sharded.mk s' (c.threads.set id t')).total Thread.rejections =
            c.total Thread.rejections := by omega
        rw [equal, ← h.rejected_eq]
        exact kept
      · have one : (Sharded.mk s' (c.threads.set id t')).total Thread.rejections =
            c.total Thread.rejections + 1 := by omega
        rw [one, UInt64.ofNat_add, ← h.rejected_eq]
        exact counted

theorem run (h : Tallied sets c) (orderly : c.Orderly shardOf) (schedule : List Nat) :
    Tallied sets (c.run shardOf schedule) := by
  induction schedule generalizing c with
  | nil => exact h
  | cons id later ih => exact ih (h.turn orderly id) (orderly.turn id)

end Tallied

/-! ## Calls come to their ends -/

/-- No thread has a flush before it, which may take as many steps as there are entries. -/
def Bounded (c : Sharded α) : Prop := ∀ t ∈ c.threads, ∀ call ∈ t.calls, call.isFlush = false

/-- Thread number `id` can make a step. -/
def Able (shardOf : String → Nat) (c : Sharded α) (id : Nat) : Prop :=
  ∃ after, c.threads[id]?.bind (fun t => t.step? shardOf id c.shared) = some after

theorem length_turn (shardOf : String → Nat) (c : Sharded α) (id : Nat) :
    (c.turn shardOf id).threads.length = c.threads.length := by
  rcases turn_cases shardOf c id with same | ⟨_, _, _, _, _, _, _, _, after⟩
  · rw [same]
  · rw [after, List.length_set]

theorem Bounded.turn (h : c.Bounded) (shardOf : String → Nat) (id : Nat) :
    (c.turn shardOf id).Bounded := by
  rcases turn_cases shardOf c id with same | ⟨t, call, rest, s', t', found, calls, moves, after⟩
  · rw [same]
    exact h
  · rw [after]
    exact forall_mem_set h fun other hc =>
      h t (List.mem_of_getElem? found) other (moves.calls_subset calls hc)

theorem turn_of_not_able {id : Nat} (h : ¬ c.Able shardOf id) : c.turn shardOf id = c := by
  unfold turn
  split
  · next shared t step => exact absurd ⟨_, step⟩ h
  · rfl

/-- Whoever can make a step makes one at its turn. -/
theorem total_turn_lt {id : Nat} (bounded : c.Bounded) (able : c.Able shardOf id) :
    (c.turn shardOf id).total Thread.stepsLeft < c.total Thread.stepsLeft := by
  obtain ⟨⟨s', t'⟩, step⟩ := able
  have after : c.turn shardOf id = ⟨s', c.threads.set id t'⟩ := by
    simp only [turn, step]
  obtain ⟨t, found, stepped⟩ := Option.bind_eq_some_iff.1 step
  obtain ⟨call, rest, calls, moves⟩ := Thread.moves_of_step? stepped
  have less : t'.stepsLeft < t.stepsLeft := moves.stepsLeft_lt calls
    (bounded t (List.mem_of_getElem? found) call (calls ▸ List.mem_cons_self))
  have all := total_set found s' t' Thread.stepsLeft
  rw [after]
  omega

theorem total_turn_le (bounded : c.Bounded) (id : Nat) :
    (c.turn shardOf id).total Thread.stepsLeft ≤ c.total Thread.stepsLeft := by
  by_cases able : c.Able shardOf id
  · exact Nat.le_of_lt (total_turn_lt bounded able)
  · exact Nat.le_of_eq (congrArg (total · Thread.stepsLeft) (turn_of_not_able able))

theorem total_run_le (bounded : c.Bounded) (schedule : List Nat) :
    (c.run shardOf schedule).total Thread.stepsLeft ≤ c.total Thread.stepsLeft := by
  induction schedule generalizing c with
  | nil => exact Nat.le_refl _
  | cons id later ih =>
    exact Nat.le_trans (ih (bounded.turn shardOf id)) (total_turn_le bounded id)

/-- A thread in a call can always go on; and if all are outside, no lock is held. -/
theorem exists_able (orderly : c.Orderly shardOf) (calls : c.isDone = false) :
    ∃ id, id < c.threads.length ∧ c.Able shardOf id := by
  have able : ∀ {id : Nat} {t : Thread α} {after : Shared α × Thread α},
      c.threads[id]? = some t → t.step? shardOf id c.shared = some after →
      ∃ id, id < c.threads.length ∧ c.Able shardOf id := by
    intro id t after found step
    refine ⟨id, (List.getElem?_eq_some_iff.1 found).1, after, ?_⟩
    rw [found]
    exact step
  by_cases inside : ∃ t ∈ c.threads, t.point ≠ .outside
  · obtain ⟨t, ht, inside⟩ := inside
    obtain ⟨id, found⟩ := List.getElem?_of_mem ht
    obtain ⟨after, step⟩ := Thread.exists_step_of_inside shardOf id c.shared
      (fun none => inside ((orderly.sound t ht).idle none)) inside
    exact able found step
  · have outside : ∀ t ∈ c.threads, t.point = .outside := by
      intro t ht
      by_contra other
      exact inside ⟨t, ht, other⟩
    have free : ∀ shard, c.shared.isLocked shard = false := by
      intro shard
      refine Bool.eq_false_iff.2 fun locked => ?_
      obtain ⟨i, t, found, holds⟩ := (orderly.balanced.locked.isLocked_iff shard).1 locked
      unfold Thread.holding at holds
      rw [outside t (List.mem_of_getElem? found)] at holds
      cases holds
    obtain ⟨t, ht, some⟩ := List.all_eq_false.1 calls
    obtain ⟨id, found⟩ := List.getElem?_of_mem ht
    obtain ⟨after, step⟩ := Thread.exists_step_of_free id (outside t ht)
      (fun none => some (List.isEmpty_iff.2 none)) fun call _ => free (call.shard shardOf)
    exact able found step

/-- Whoever can make a step at the beginning of a round makes one in it, or another did. -/
theorem total_round_lt {id : Nat} {round : List Nat} (bounded : c.Bounded)
    (able : c.Able shardOf id) (member : id ∈ round) :
    (c.run shardOf round).total Thread.stepsLeft < c.total Thread.stepsLeft := by
  induction round with
  | nil => cases member
  | cons j later ih =>
    by_cases first : c.Able shardOf j
    · exact Nat.lt_of_le_of_lt (total_run_le (bounded.turn shardOf j) later)
        (total_turn_lt bounded first)
    · have other : id ≠ j := fun same => first (same ▸ able)
      have same : c.run shardOf (j :: later) = c.run shardOf later :=
        congrArg (fun d : Sharded α => d.run shardOf later) (turn_of_not_able first)
      rw [same]
      exact ih ((List.mem_cons.1 member).resolve_left other)

theorem length_run (shardOf : String → Nat) (c : Sharded α) (schedule : List Nat) :
    (c.run shardOf schedule).threads.length = c.threads.length := by
  induction schedule generalizing c with
  | nil => rfl
  | cons id later ih => exact (ih (c.turn shardOf id)).trans (length_turn shardOf c id)

theorem Bounded.run (h : c.Bounded) (shardOf : String → Nat) (schedule : List Nat) :
    (c.run shardOf schedule).Bounded := by
  induction schedule generalizing c with
  | nil => exact h
  | cons id later ih => exact ih (h.turn shardOf id)

theorem run_append (shardOf : String → Nat) (c : Sharded α) (first more : List Nat) :
    c.run shardOf (first ++ more) = (c.run shardOf first).run shardOf more :=
  List.foldl_append

theorem calls_of_isDone (h : c.isDone = true) : ∀ t ∈ c.threads, t.calls = [] :=
  fun t ht => List.isEmpty_iff.1 (List.all_eq_true.1 h t ht)

theorem total_eq_zero_of_isDone (h : c.isDone = true) : c.total Thread.stepsLeft = 0 := by
  refine total_eq_zero fun t ht => ?_
  unfold Thread.stepsLeft
  rw [calls_of_isDone h t ht]

/-- As many rounds as there are steps to be made bring all calls to their ends, if every thread
has a turn in each of them. -/
theorem isDone_rounds (orderly : c.Orderly shardOf) (bounded : c.Bounded)
    {rounds : List (List Nat)} (fair : ∀ round ∈ rounds, ∀ id < c.threads.length, id ∈ round)
    (enough : c.total Thread.stepsLeft ≤ rounds.length) :
    (c.run shardOf rounds.flatten).isDone = true := by
  -- on the rounds; each leaves fewer steps than there were, unless there were none
  induction rounds generalizing c with
  | nil =>
    by_contra calls
    obtain ⟨id, _, able⟩ := exists_able orderly (Bool.eq_false_iff.2 calls)
    have less := total_turn_lt bounded able
    exact absurd enough (Nat.not_le.2 (Nat.lt_of_le_of_lt (Nat.zero_le _) less))
  | cons round later ih =>
    rw [List.flatten_cons, run_append]
    refine ih (orderly.run round) (bounded.run shardOf round) (fun next hn id inside => ?_) ?_
    · rw [length_run] at inside
      exact fair next (List.mem_cons_of_mem _ hn) id inside
    · cases done : c.isDone with
      | true =>
        have none := total_eq_zero_of_isDone done
        have le : (c.run shardOf round).total Thread.stepsLeft ≤ c.total Thread.stepsLeft :=
          total_run_le bounded round
        omega
      | false =>
        obtain ⟨id, inside, able⟩ := exists_able orderly done
        have less := total_round_lt bounded able (fair round List.mem_cons_self id inside)
        rw [List.length_cons] at enough
        omega

end Sharded

end WarmCache
