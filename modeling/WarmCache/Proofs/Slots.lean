import WarmCache.Cache
import WarmCache.Proofs.Keys
import Mathlib.Data.List.Basic
import Mathlib.Data.List.Perm.Basic

/-!
# The count of slots

The slots of a cache are counted apart from its entries. Four kinds of operation touch the count:
a set of a new key takes a slot, a delete gives one back, a flush gives back one for each entry
that it takes out, and all others leave the count alone. `Cache.Accounted` says that the count is
right: it is the number of keys, no key stands twice, and the limit is kept.

Results:
1. `Accounted.apply`, `Accounted.applyAll`: every operation, hence every run of them, keeps the
   count right.
2. `flush_eq_flushOver`: a flush is a loop of deletes, in any order of the entries.
3. `Accounted.flushOver`: the count is right after every turn of that loop, so no slot is given
   back that was not taken.
-/

namespace WarmCache

/-- One operation on the entries of a cache, with the reading of the clock that it takes. -/
inductive CacheOp (α : Type) where
  | set (now : Instant) (key : String) (value : Value α)
  | get (key : String)
  | delete (key : String)
  | flush (now : Instant)
  /-- Applies what a refresh callback came to. -/
  | settle (now : Instant) (key : String) (callback : Callback) (result : Except String α)

namespace Cache

variable {α : Type}

/-- The cache after an operation. -/
def apply (c : Cache α) : CacheOp α → Cache α
  | .set now key value => (c.set now key value).1
  | .get key => (c.get key).1
  | .delete key => c.delete key
  | .flush now => (c.flush now).1
  | .settle now key callback result => (c.settle now key callback result).1

/-- The cache after operations in order. -/
def applyAll (c : Cache α) (ops : List (CacheOp α)) : Cache α := ops.foldl apply c

/-- The cache with its worker flag set to `taken`. -/
def claim (c : Cache α) (taken : Bool) : Cache α := { c with workerRunning := taken }

/-- The count of slots is right: keys are distinct, each takes one slot, and the limit is kept. -/
structure Accounted (c : Cache α) : Prop where
  nodup_keys : c.entries.keys.Nodup
  slots_eq : c.slots = c.entries.length
  slots_le : ∀ limit : Nat, c.limit = some limit → c.slots ≤ limit

/-! ## What one operation does -/

/-- There is a free slot: the cache has no limit, or the count is below it. -/
def HasRoom (c : Cache α) : Prop := ∀ limit : Nat, c.limit = some limit → c.slots < limit

theorem reserveSlot_of_hasRoom {c : Cache α} (h : c.HasRoom) :
    c.reserveSlot = some { c with slots := c.slots + 1 } := by
  unfold reserveSlot
  cases hl : c.limit with
  | none => rfl
  | some limit =>
    have free := h limit hl
    simp only [Int.not_le.2 free, if_false]

theorem reserveSlot_of_full {c : Cache α} {limit : Nat} (hl : c.limit = some limit)
    (full : limit ≤ c.slots) : c.reserveSlot = none := by
  simp only [reserveSlot, hl, full, if_true]

theorem hasRoom_or_full (c : Cache α) :
    c.HasRoom ∨ ∃ limit : Nat, c.limit = some limit ∧ limit ≤ c.slots := by
  cases hl : c.limit with
  | none => exact .inl fun _ h => nomatch hl.symm.trans h
  | some limit =>
    rcases Int.lt_or_le c.slots limit with free | full
    · refine .inl fun other h => ?_
      cases hl.symm.trans h
      exact free
    · exact .inr ⟨limit, rfl, full⟩

theorem set_of_contains {c : Cache α} {key : String} (present : c.entries.contains key = true)
    (now : Instant) (value : Value α) :
    c.set now key value =
      ({ c with entries := c.entries.put key (Entry.stamp (c.expiryFrom now) value) },
        .ok ()) := by
  simp only [set, present, if_true]

theorem set_of_hasRoom {c : Cache α} {key : String} (absent : c.entries.contains key = false)
    (room : c.HasRoom) (now : Instant) (value : Value α) :
    c.set now key value =
      ({ c with
          entries := c.entries.put key (Entry.stamp (c.expiryFrom now) value)
          slots := c.slots + 1 }, .ok ()) := by
  simp only [set, absent, Bool.false_eq_true, if_false, reserveSlot_of_hasRoom room]

theorem set_of_full {c : Cache α} {key : String} (absent : c.entries.contains key = false)
    {limit : Nat} (hl : c.limit = some limit) (full : limit ≤ c.slots) (now : Instant)
    (value : Value α) :
    c.set now key value =
      ({ c with counters := c.counters.recordRejected }, .error (.capacityExceeded limit)) := by
  simp only [set, absent, Bool.false_eq_true, if_false, reserveSlot_of_full hl full, hl,
    Option.getD_some]

/-- The three things that a set can do: overwrite, insert into a free slot, or refuse. -/
theorem set_cases (c : Cache α) (key : String) :
    c.entries.contains key = true ∨ (c.entries.contains key = false ∧ c.HasRoom) ∨
      (c.entries.contains key = false ∧ ∃ limit : Nat, c.limit = some limit ∧ limit ≤ c.slots) := by
  cases hc : c.entries.contains key with
  | true => exact .inl rfl
  | false =>
    rcases c.hasRoom_or_full with room | full
    · exact .inr (.inl ⟨rfl, room⟩)
    · exact .inr (.inr ⟨rfl, full⟩)

/-- A look-up changes nothing but the counters of look-ups. -/
theorem get_cases (c : Cache α) (key : String) :
    (∃ e, c.entries.find? key = some e ∧
      c.get key = ({ c with counters := c.counters.recordHit }, some e)) ∨
    (c.entries.find? key = none ∧
      c.get key = ({ c with counters := c.counters.recordMiss }, none)) := by
  cases found : c.entries.find? key with
  | none => exact .inr ⟨rfl, by simp only [get, found]⟩
  | some e => exact .inl ⟨e, rfl, by simp only [get, found]⟩

theorem get_snd (c : Cache α) (key : String) : (c.get key).2 = c.entries.find? key := by
  rcases c.get_cases key with ⟨_, found, eq⟩ | ⟨found, eq⟩
  · rw [eq, found]
  · rw [eq, found]

theorem get_entries (c : Cache α) (key : String) : (c.get key).1.entries = c.entries := by
  rcases c.get_cases key with ⟨_, _, eq⟩ | ⟨_, eq⟩
  · rw [eq]
  · rw [eq]

theorem delete_of_contains {c : Cache α} {key : String} (h : c.entries.contains key = true) :
    c.delete key = { c with entries := c.entries.remove key, slots := c.slots - 1 } := by
  simp only [delete, h, if_true]

theorem delete_of_not_contains {c : Cache α} {key : String}
    (h : c.entries.contains key = false) : c.delete key = c := by
  simp only [delete, h, Bool.false_eq_true, if_false]

theorem settle_ok_of_contains {c : Cache α} {key : String} (h : c.entries.contains key = true)
    (now : Instant) (callback : Callback) (item : α) :
    c.settle now key callback (.ok item) =
      ({ c with
          entries := c.entries.put key ⟨item, c.expiryFrom now, some callback⟩
          counters := c.counters.recordRefresh }, .replaced) := by
  simp only [settle, h, if_true]

theorem settle_ok_of_not_contains {c : Cache α} {key : String}
    (h : c.entries.contains key = false) (now : Instant) (callback : Callback) (item : α) :
    c.settle now key callback (.ok item) = (c, .discarded) := by
  simp only [settle, h, Bool.false_eq_true, if_false]

/-- What is applied overwrites the entry under its key, or it changes the counters at most. -/
theorem settle_cases (c : Cache α) (now : Instant) (key : String) (callback : Callback)
    (result : Except String α) :
    (∃ counters, (c.settle now key callback result).1 = { c with counters }) ∨
      (c.entries.contains key = true ∧ ∃ e counters, (c.settle now key callback result).1 =
        { c with entries := c.entries.put key e, counters }) := by
  cases result with
  | error message => exact .inl ⟨_, rfl⟩
  | ok item =>
    cases hc : c.entries.contains key with
    | true =>
      exact .inr ⟨rfl, _, _, congrArg Prod.fst (settle_ok_of_contains hc now callback item)⟩
    | false =>
      exact .inl ⟨_, congrArg Prod.fst (settle_ok_of_not_contains hc now callback item)⟩

/-- No operation touches the limit, the policy or the worker flag. -/
theorem apply_frame (c : Cache α) (op : CacheOp α) :
    ∃ entries slots counters, c.apply op = { c with entries, slots, counters } := by
  cases op with
  | set now key value =>
    rcases c.set_cases key with present | ⟨absent, room⟩ | ⟨absent, limit, hl, full⟩
    · exact ⟨_, _, _, congrArg Prod.fst (set_of_contains present now value)⟩
    · exact ⟨_, _, _, congrArg Prod.fst (set_of_hasRoom absent room now value)⟩
    · exact ⟨_, _, _, congrArg Prod.fst (set_of_full absent hl full now value)⟩
  | get key =>
    rcases c.get_cases key with ⟨_, _, eq⟩ | ⟨_, eq⟩
    · exact ⟨_, _, _, congrArg Prod.fst eq⟩
    · exact ⟨_, _, _, congrArg Prod.fst eq⟩
  | delete key =>
    cases hc : c.entries.contains key with
    | true => exact ⟨_, _, _, delete_of_contains hc⟩
    | false => exact ⟨_, _, _, delete_of_not_contains hc⟩
  | flush now => exact ⟨_, _, _, rfl⟩
  | settle now key callback result =>
    rcases c.settle_cases now key callback result with ⟨_, eq⟩ | ⟨_, _, _, eq⟩
    · exact ⟨_, _, _, eq⟩
    · exact ⟨_, _, _, eq⟩

theorem applyAll_frame (c : Cache α) (ops : List (CacheOp α)) :
    ∃ entries slots counters, c.applyAll ops = { c with entries, slots, counters } := by
  induction ops generalizing c with
  | nil => exact ⟨c.entries, c.slots, c.counters, rfl⟩
  | cons op rest ih =>
    obtain ⟨_, _, _, one⟩ := c.apply_frame op
    obtain ⟨entries, slots, counters, more⟩ := ih (c.apply op)
    refine ⟨entries, slots, counters, more.trans ?_⟩
    rw [one]

theorem workerRunning_applyAll (c : Cache α) (ops : List (CacheOp α)) :
    (c.applyAll ops).workerRunning = c.workerRunning := by
  obtain ⟨_, _, _, eq⟩ := c.applyAll_frame ops
  rw [eq]

/-- No operation asks for the worker flag. -/
theorem apply_claim (c : Cache α) (taken : Bool) (op : CacheOp α) :
    (c.claim taken).apply op = (c.apply op).claim taken := by
  cases op with
  | set now key value =>
    simp only [apply]
    rcases c.set_cases key with present | ⟨absent, room⟩ | ⟨absent, limit, hl, full⟩
    · have present' : (c.claim taken).entries.contains key = true := present
      rw [set_of_contains present, set_of_contains present']
      rfl
    · have absent' : (c.claim taken).entries.contains key = false := absent
      rw [set_of_hasRoom absent room, set_of_hasRoom absent' room]
      rfl
    · have absent' : (c.claim taken).entries.contains key = false := absent
      rw [set_of_full absent hl full, set_of_full absent' hl full]
      rfl
  | get key =>
    simp only [apply, get, claim]
    cases c.entries.find? key <;> rfl
  | delete key =>
    cases hc : c.entries.contains key with
    | true => simp only [apply, delete, claim, hc, if_true]
    | false => simp only [apply, delete, claim, hc, Bool.false_eq_true, if_false]
  | flush now => rfl
  | settle now key callback result =>
    cases result with
    | error message => rfl
    | ok item =>
      cases hc : c.entries.contains key with
      | true => simp only [apply, settle, claim, expiryFrom, hc, if_true]
      | false => simp only [apply, settle, claim, hc, Bool.false_eq_true, if_false]

theorem applyAll_claim (c : Cache α) (taken : Bool) (ops : List (CacheOp α)) :
    (c.claim taken).applyAll ops = (c.applyAll ops).claim taken := by
  induction ops generalizing c with
  | nil => rfl
  | cons op rest ih =>
    simp only [applyAll, List.foldl_cons, apply_claim]
    exact ih (c.apply op)

/-! ## Operations keep the count right -/

theorem Accounted.new (policy : ExpiryPolicy) (limit : Option Nat) :
    (Cache.new policy limit : Cache α).Accounted :=
  ⟨List.nodup_nil, rfl, fun _ _ => Int.natCast_nonneg _⟩

theorem Accounted.claim {c : Cache α} (h : c.Accounted) (taken : Bool) :
    (c.claim taken).Accounted :=
  ⟨h.nodup_keys, h.slots_eq, h.slots_le⟩

theorem Accounted.recordCounters {c : Cache α} (h : c.Accounted) (counters : Counters) :
    ({ c with counters } : Cache α).Accounted :=
  ⟨h.nodup_keys, h.slots_eq, h.slots_le⟩

/-- An overwrite needs no slot, whoever makes it. -/
theorem Accounted.overwrite {c : Cache α} (h : c.Accounted) {key : String} (e : Entry α)
    (present : c.entries.contains key = true) :
    ({ c with entries := c.entries.put key e } : Cache α).Accounted := by
  refine ⟨Keyed.nodup_keys_put key e h.nodup_keys, ?_, h.slots_le⟩
  rw [Keyed.length_put_of_contains _ _ _ present]
  exact h.slots_eq

theorem Accounted.insert {c : Cache α} (h : c.Accounted) {key : String} (e : Entry α)
    (absent : c.entries.contains key = false) (room : c.HasRoom) :
    ({ c with entries := c.entries.put key e, slots := c.slots + 1 } : Cache α).Accounted := by
  refine ⟨Keyed.nodup_keys_put key e h.nodup_keys, ?_, fun limit hl => room limit hl⟩
  have count := h.slots_eq
  have longer := Keyed.length_put_of_not_contains c.entries key e absent
  simp only
  omega

theorem Accounted.set {c : Cache α} (h : c.Accounted) (now : Instant) (key : String)
    (value : Value α) : (c.set now key value).1.Accounted := by
  rcases c.set_cases key with present | ⟨absent, room⟩ | ⟨absent, limit, hl, full⟩
  · rw [set_of_contains present]
    exact h.overwrite _ present
  · rw [set_of_hasRoom absent room]
    exact h.insert _ absent room
  · rw [set_of_full absent hl full]
    exact h.recordCounters _

theorem Accounted.get {c : Cache α} (h : c.Accounted) (key : String) :
    (c.get key).1.Accounted := by
  rcases c.get_cases key with ⟨_, _, eq⟩ | ⟨_, eq⟩
  · rw [eq]
    exact h.recordCounters _
  · rw [eq]
    exact h.recordCounters _

/-- A slot is only given back by a key that took one. -/
theorem Accounted.slots_pos {c : Cache α} (h : c.Accounted) {key : String}
    (present : c.entries.contains key = true) : 0 ≤ c.slots - 1 := by
  have shorter := Keyed.length_remove_of_contains c.entries key present
  have count := h.slots_eq
  omega

theorem Accounted.delete {c : Cache α} (h : c.Accounted) (key : String) :
    (c.delete key).Accounted := by
  cases hc : c.entries.contains key with
  | false =>
    rw [delete_of_not_contains hc]
    exact h
  | true =>
    have shorter := Keyed.length_remove_of_contains c.entries key hc
    have count := h.slots_eq
    rw [delete_of_contains hc]
    refine ⟨Keyed.nodup_keys_remove key h.nodup_keys, ?_, fun limit hl => ?_⟩
    · simp only
      omega
    · have kept := h.slots_le limit hl
      simp only
      omega

theorem Accounted.settle {c : Cache α} (h : c.Accounted) (now : Instant) (key : String)
    (callback : Callback) (result : Except String α) :
    (c.settle now key callback result).1.Accounted := by
  rcases c.settle_cases now key callback result with ⟨_, eq⟩ | ⟨present, _, _, eq⟩
  · rw [eq]
    exact h.recordCounters _
  · rw [eq]
    exact (h.overwrite _ present).recordCounters _

theorem Accounted.flush {c : Cache α} (h : c.Accounted) (now : Instant) :
    (c.flush now).1.Accounted := by
  have split := List.length_eq_length_filter_add (l := c.entries)
    fun pair : String × Entry α => pair.2.isExpiredAt now
  have count := h.slots_eq
  refine ⟨Keyed.nodup_keys_filter _ h.nodup_keys, ?_, fun limit hl => ?_⟩
  · simp only [Cache.flush]
    omega
  · have kept := h.slots_le limit hl
    simp only [Cache.flush]
    omega

theorem Accounted.apply {c : Cache α} (h : c.Accounted) (op : CacheOp α) :
    (c.apply op).Accounted := by
  cases op with
  | set now key value => exact h.set now key value
  | get key => exact h.get key
  | delete key => exact h.delete key
  | flush now => exact h.flush now
  | settle now key callback result => exact h.settle now key callback result

theorem Accounted.applyAll {c : Cache α} (h : c.Accounted) (ops : List (CacheOp α)) :
    (c.applyAll ops).Accounted := by
  induction ops generalizing c with
  | nil => exact h
  | cons op rest ih => exact ih (h.apply op)

/-! ## A flush is a loop of deletes -/

/-- The part of a flush that has gone over the entries `seen`: each of them that has expired is
taken out, and its slot given back, before the next one is looked at. -/
def flushOver (c : Cache α) (now : Instant) (seen : List (String × Entry α)) : Cache α :=
  seen.foldl (fun c pair => if pair.2.isExpiredAt now then c.delete pair.1 else c) c

/-- A turn of a flush at an entry that has expired. -/
theorem flushOver_cons_of_expired {c : Cache α} {now : Instant} {pair : String × Entry α}
    (h : pair.2.isExpiredAt now = true) (rest : List (String × Entry α)) :
    c.flushOver now (pair :: rest) = (c.delete pair.1).flushOver now rest := by
  simp only [flushOver, List.foldl_cons, h, if_true]

/-- A turn of a flush at an entry that stays. -/
theorem flushOver_cons_of_fresh {c : Cache α} {now : Instant} {pair : String × Entry α}
    (h : pair.2.isExpiredAt now = false) (rest : List (String × Entry α)) :
    c.flushOver now (pair :: rest) = c.flushOver now rest := by
  simp only [flushOver, List.foldl_cons, h, Bool.false_eq_true, if_false]

theorem Accounted.flushOver {c : Cache α} (h : c.Accounted) (now : Instant)
    (seen : List (String × Entry α)) : (c.flushOver now seen).Accounted := by
  induction seen generalizing c with
  | nil => exact h
  | cons pair rest ih =>
    cases hp : pair.2.isExpiredAt now with
    | false =>
      rw [flushOver_cons_of_fresh hp]
      exact ih h
    | true =>
      rw [flushOver_cons_of_expired hp]
      exact ih (h.delete pair.1)

theorem entries_delete {c : Cache α} (nodup : c.entries.keys.Nodup) (key : String) :
    (c.delete key).entries = c.entries.filter fun pair => !decide (pair.1 = key) := by
  rw [← Keyed.remove_eq_filter key nodup]
  cases hc : c.entries.contains key with
  | true => rw [delete_of_contains hc]
  | false => rw [delete_of_not_contains hc, Keyed.remove_of_not_contains hc]

theorem entries_flushOver {c : Cache α} (nodup : c.entries.keys.Nodup) (now : Instant)
    (seen : List (String × Entry α)) :
    (c.flushOver now seen).entries = c.entries.filter fun pair =>
      !seen.any fun other => other.2.isExpiredAt now && decide (pair.1 = other.1) := by
  induction seen generalizing c with
  | nil => simp [flushOver]
  | cons head rest ih =>
    cases hp : head.2.isExpiredAt now with
    | false =>
      rw [flushOver_cons_of_fresh hp, ih nodup]
      simp only [List.any_cons, hp, Bool.false_and, Bool.false_or]
    | true =>
      have kept : (c.delete head.1).entries.keys.Nodup := by
        rw [entries_delete nodup]
        exact Keyed.nodup_keys_filter _ nodup
      rw [flushOver_cons_of_expired hp, ih kept, entries_delete nodup, List.filter_filter]
      simp only [List.any_cons, hp, Bool.true_and, Bool.not_or, Bool.and_comm]

/-- A flush leaves all but the entries and their slots alone while it is under way. -/
theorem flushOver_frame (c : Cache α) (now : Instant) (seen : List (String × Entry α)) :
    ∃ entries slots, c.flushOver now seen = { c with entries, slots } := by
  induction seen generalizing c with
  | nil => exact ⟨c.entries, c.slots, rfl⟩
  | cons head rest ih =>
    cases hp : head.2.isExpiredAt now with
    | false =>
      rw [flushOver_cons_of_fresh hp]
      exact ih c
    | true =>
      rw [flushOver_cons_of_expired hp]
      obtain ⟨entries, slots, eq⟩ := ih (c.delete head.1)
      refine ⟨entries, slots, eq.trans ?_⟩
      cases hc : c.entries.contains head.1 with
      | false => rw [delete_of_not_contains hc]
      | true => rw [delete_of_contains hc]

/-- A flush takes out one expired entry after the other and gives back the slot of each. The
order in which it comes to the entries makes no difference. -/
theorem flush_eq_flushOver {c : Cache α} (h : c.Accounted) (now : Instant)
    {order : List (String × Entry α)} (perm : order.Perm c.entries) :
    (c.flush now).1 =
      { c.flushOver now order with counters := c.counters.recordFlushed (c.flush now).2 } := by
  -- keys are distinct, so an entry goes exactly if it has expired itself
  have expired : ∀ pair ∈ c.entries, (order.any fun other =>
      other.2.isExpiredAt now && decide (pair.1 = other.1)) = pair.2.isExpiredAt now := by
    intro pair hp
    cases he : pair.2.isExpiredAt now with
    | true => exact List.any_eq_true.2 ⟨pair, perm.mem_iff.2 hp, by simp [he]⟩
    | false =>
      refine List.any_eq_false.2 fun other ho => ?_
      rintro both
      simp only [Bool.and_eq_true, decide_eq_true_eq] at both
      obtain ⟨k, e⟩ := pair
      obtain ⟨k', e'⟩ := other
      obtain ⟨gone, same⟩ := both
      simp only at gone same he
      subst same
      have first := (Keyed.find?_eq_some_iff h.nodup_keys).2 hp
      have second := (Keyed.find?_eq_some_iff h.nodup_keys).2 (perm.mem_iff.1 ho)
      rw [first, Option.some.injEq] at second
      rw [second, gone] at he
      cases he
  have entries : (c.flushOver now order).entries = (c.flush now).1.entries := by
    rw [entries_flushOver h.nodup_keys]
    exact List.filter_congr fun pair hp => by rw [expired pair hp]
  have slots : (c.flushOver now order).slots = (c.flush now).1.slots := by
    rw [(h.flushOver now order).slots_eq, (h.flush now).slots_eq, entries]
  obtain ⟨entries', slots', eq⟩ := c.flushOver_frame now order
  rw [eq] at entries slots ⊢
  simp only at entries slots
  rw [entries, slots]
  rfl

end Cache

end WarmCache
