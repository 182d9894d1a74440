import WarmCache.Proofs.Effects

/-!
# Outcomes settled in another order

What a refresh callback came to is settled by itself. Whatever the order in which the outcomes for
two keys are settled, each is settled in the same way, and the same cache comes of it. The instants
at which they are settled only show in the expiry of the entries.

Results:
1. `settle_eq`: what becomes of an outcome, and what that makes of the cache, each on its own.
2. `settle_comm`: the outcomes for two keys may be settled in either order.
3. `settle_timeless`: the present bears on nothing but expiry.
-/

namespace WarmCache

namespace Keyed

variable {α β : Type}

/-- Puts a value in place of the one under a key, if there is one. -/
def replace (table : Keyed α) (key : String) (value : α) : Keyed α :=
  if table.contains key then table.put key value else table

theorem contains_replace (table : Keyed α) (key : String) (value : α) (other : String) :
    (table.replace key value).contains other = table.contains other := by
  unfold replace
  split
  · next present =>
    rw [Bool.eq_iff_iff, contains_iff_mem_keys, contains_iff_mem_keys,
      keys_put_of_contains _ _ _ present]
  · rfl

theorem put_comm (table : Keyed α) {key other : String} (ne : key ≠ other) (v w : α)
    (present : table.contains key = true) (present' : table.contains other = true) :
    (table.put key v).put other w = (table.put other w).put key v := by
  -- up to the first of the two keys; from there on the values are put past each other
  induction table with
  | nil => cases present
  | cons head rest ih =>
    obtain ⟨k, u⟩ := head
    by_cases first : k = key
    · subst first
      simp only [put, if_true, if_neg ne]
    · by_cases second : k = other
      · subst second
        simp only [put, if_true, if_neg first]
      · simp only [contains, find?, if_neg first, if_neg second] at present present'
        simp only [put, if_neg first, if_neg second]
        rw [ih present present']

theorem replace_comm (table : Keyed α) {key other : String} (ne : key ≠ other) (v w : α) :
    (table.replace key v).replace other w = (table.replace other w).replace key v := by
  -- which keys there are does not change, so both replacements are decided beforehand
  have one : ((table.replace key v).contains other) = table.contains other :=
    contains_replace table key v other
  have two : ((table.replace other w).contains key) = table.contains key :=
    contains_replace table other w key
  unfold replace at one two ⊢
  rw [one, two]
  cases present : table.contains key with
  | false => rfl
  | true =>
    cases present' : table.contains other with
    | false => rfl
    | true => exact table.put_comm ne v w present present'

/-- The same keys with other values. -/
def mapValues (f : α → β) (table : Keyed α) : Keyed β := table.map fun pair => (pair.1, f pair.2)

theorem contains_mapValues (f : α → β) (table : Keyed α) (key : String) :
    (table.mapValues f).contains key = table.contains key := by
  rw [Bool.eq_iff_iff, contains_iff_mem_keys, contains_iff_mem_keys, keys, mapValues, List.map_map]
  rfl

theorem mapValues_put (f : α → β) (table : Keyed α) (key : String) (value : α) :
    (table.put key value).mapValues f = (table.mapValues f).put key (f value) := by
  induction table with
  | nil => rfl
  | cons head rest ih =>
    obtain ⟨k, v⟩ := head
    by_cases same : k = key
    · simp only [put, mapValues, List.map_cons, if_pos same]
    · simp only [put, mapValues, List.map_cons, if_neg same]
      exact congrArg _ ih

theorem mapValues_replace (f : α → β) (table : Keyed α) (key : String) (value : α) :
    (table.replace key value).mapValues f = (table.mapValues f).replace key (f value) := by
  unfold replace
  rw [contains_mapValues]
  split
  · exact mapValues_put f table key value
  · rfl

end Keyed

/-- An entry without its expiry. -/
def Entry.timeless {α : Type} (e : Entry α) : Entry α := { e with expires := .latest }

namespace Cache

variable {α : Type}

/-- How an outcome is settled, if its key is present or not. -/
def fate (present : Bool) : Except String α → Settled
  | .error _ => .failed
  | .ok _ => if present then .replaced else .discarded

/-- The entries once an outcome was settled. -/
def replaced (c : Cache α) (now : Instant) (key : String) (callback : Callback) :
    Except String α → Keyed (Entry α)
  | .error _ => c.entries
  | .ok item => c.entries.replace key ⟨item, c.expiryFrom now, some callback⟩

theorem settle_eq (c : Cache α) (now : Instant) (key : String) (callback : Callback)
    (result : Except String α) :
    c.settle now key callback result =
      ({ c with
          entries := c.replaced now key callback result
          counters := c.counters.record (.settled (fate (c.entries.contains key) result)) },
        fate (c.entries.contains key) result) := by
  cases result with
  | error message => rfl
  | ok item =>
    cases present : c.entries.contains key with
    | true =>
      rw [settle_ok_of_contains present]
      simp only [replaced, Keyed.replace, present]
      rfl
    | false =>
      rw [settle_ok_of_not_contains present]
      simp only [replaced, Keyed.replace, present]
      rfl

theorem contains_replaced (c : Cache α) (now : Instant) (key : String) (callback : Callback)
    (result : Except String α) (other : String) :
    (c.replaced now key callback result).contains other = c.entries.contains other := by
  cases result with
  | error message => rfl
  | ok item => exact Keyed.contains_replace _ _ _ _

theorem record_settled_comm (c : Counters) (a b : Settled) :
    (c.record (.settled a)).record (.settled b) = (c.record (.settled b)).record (.settled a) := by
  cases a <;> cases b <;> rfl

section Order

variable (c : Cache α) (now : Instant) {key other : String} (callback callback' : Callback)
  (result result' : Except String α)

/-- What was settled before for another key does not matter. -/
theorem settle_settle_snd :
    ((c.settle now key callback result).1.settle now other callback' result').2 =
      (c.settle now other callback' result').2 := by
  rw [settle_eq, settle_eq, settle_eq]
  exact congrArg (fate · result') (c.contains_replaced now key callback result other)

theorem settle_comm (ne : key ≠ other) :
    ((c.settle now key callback result).1.settle now other callback' result').1 =
      ((c.settle now other callback' result').1.settle now key callback result).1 := by
  have one := c.contains_replaced now key callback result other
  have two := c.contains_replaced now other callback' result' key
  simp only [settle_eq, one, two]
  refine congrArg₂ (fun entries counters => { c with entries, counters }) ?_
    (record_settled_comm c.counters _ _)
  cases result with
  | error message => cases result' <;> rfl
  | ok item =>
    cases result' with
    | error message => rfl
    | ok item' => exact Keyed.replace_comm _ ne _ _

end Order

/-- A cache without the expiry of its entries. -/
def timeless (c : Cache α) : Cache α := { c with entries := c.entries.mapValues Entry.timeless }

theorem stats_timeless (c : Cache α) : c.timeless.stats = c.stats := by
  have size : c.timeless.size = c.size := List.length_map _
  rw [stats, stats, size]
  rfl

theorem settle_timeless {c c' : Cache α} (same : c.timeless = c'.timeless) (now now' : Instant)
    (key : String) (callback : Callback) (result : Except String α) :
    (c.settle now key callback result).1.timeless =
        (c'.settle now' key callback result).1.timeless ∧
      (c.settle now key callback result).2 = (c'.settle now' key callback result).2 := by
  have entries : c.entries.mapValues Entry.timeless = c'.entries.mapValues Entry.timeless :=
    congrArg Cache.entries same
  have present : c.entries.contains key = c'.entries.contains key := by
    rw [← Keyed.contains_mapValues Entry.timeless, entries, Keyed.contains_mapValues]
  have counters : c.timeless.counters = c'.timeless.counters := congrArg Cache.counters same
  change c.counters = c'.counters at counters
  have written : (c.replaced now key callback result).mapValues Entry.timeless =
      (c'.replaced now' key callback result).mapValues Entry.timeless := by
    cases result with
    | error message => exact entries
    | ok item =>
      simp only [replaced, Keyed.mapValues_replace, entries]
      rfl
  rw [settle_eq, settle_eq, present]
  refine ⟨?_, rfl⟩
  simp only [timeless, counters, written]
  exact congrArg (fun d : Cache α => { d with
    entries := (c'.replaced now' key callback result).mapValues Entry.timeless
    counters := c'.counters.record (.settled (fate (c'.entries.contains key) result)) }) same

end Cache

end WarmCache
