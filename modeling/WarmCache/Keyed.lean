/-!
# Keyed tables

A table is a list of values under keys, in the order in which the keys came. It serves both as
the storage of the cache and for everything that a session names.

* `Keyed.find?_put_self`, `Keyed.find?_put_other` : what a write changes.
* `Keyed.find?_remove_self`, `Keyed.find?_remove_other` : what a removal changes.
* `Keyed.keys_put_of_contains` : an overwrite keeps the keys.
-/

namespace WarmCache

/-- Values under keys, oldest key first. -/
abbrev Keyed (α : Type) := List (String × α)

namespace Keyed

variable {α : Type}

/-- The value under a key. -/
def find? : Keyed α → String → Option α
  | [], _ => none
  | (k, v) :: rest, key => if k = key then some v else find? rest key

/-- Whether there is a value under a key. -/
def contains (table : Keyed α) (key : String) : Bool := (table.find? key).isSome

/-- Puts a value under a key, in place of the one there or else behind all others. -/
def put : Keyed α → String → α → Keyed α
  | [], key, value => [(key, value)]
  | (k, v) :: rest, key, value =>
    if k = key then (k, value) :: rest else (k, v) :: put rest key value

/-- Takes away the value under a key. -/
def remove : Keyed α → String → Keyed α
  | [], _ => []
  | (k, v) :: rest, key => if k = key then rest else (k, v) :: remove rest key

/-- The keys, oldest first. -/
def keys (table : Keyed α) : List String := table.map Prod.fst

theorem find?_put_self (table : Keyed α) (key : String) (value : α) :
    (table.put key value).find? key = some value := by
  induction table with
  | nil => simp [put, find?]
  | cons head rest ih =>
    obtain ⟨k, v⟩ := head
    by_cases h : k = key <;> simp [put, find?, h, ih]

theorem find?_put_other (table : Keyed α) {key other : String} (value : α) (h : other ≠ key) :
    (table.put key value).find? other = table.find? other := by
  induction table with
  | nil => simp [put, find?, h.symm]
  | cons head rest ih =>
    obtain ⟨k, v⟩ := head
    by_cases hk : k = key
    · subst hk
      simp [put, find?, h.symm]
    · by_cases ho : k = other
      · subst ho
        simp [put, find?, hk]
      · simp [put, find?, hk, ho, ih]

theorem find?_remove_other (table : Keyed α) {key other : String} (h : other ≠ key) :
    (table.remove key).find? other = table.find? other := by
  induction table with
  | nil => rfl
  | cons head rest ih =>
    obtain ⟨k, v⟩ := head
    by_cases hk : k = key
    · subst hk
      simp [remove, find?, h.symm]
    · by_cases ho : k = other
      · subst ho
        simp [remove, find?, hk]
      · simp [remove, find?, hk, ho, ih]

theorem find?_eq_none_iff (table : Keyed α) (key : String) :
    table.find? key = none ↔ key ∉ table.keys := by
  induction table with
  | nil => simp [find?, keys]
  | cons head rest ih =>
    obtain ⟨k, v⟩ := head
    by_cases hk : k = key
    · simp [find?, keys, hk]
    · simp only [keys] at ih
      simp [find?, keys, hk, ih, Ne.symm hk]

theorem find?_remove_self (table : Keyed α) (key : String) (h : table.keys.Nodup) :
    (table.remove key).find? key = none := by
  induction table with
  | nil => rfl
  | cons head rest ih =>
    obtain ⟨k, v⟩ := head
    simp only [keys, List.map_cons, List.nodup_cons] at h
    by_cases hk : k = key
    · subst hk
      simp only [remove, if_true]
      exact (find?_eq_none_iff rest k).2 h.1
    · simp [remove, find?, hk, ih h.2]

theorem keys_put_of_contains (table : Keyed α) (key : String) (value : α)
    (h : table.contains key = true) : (table.put key value).keys = table.keys := by
  induction table with
  | nil => simp [contains, find?] at h
  | cons head rest ih =>
    obtain ⟨k, v⟩ := head
    by_cases hk : k = key
    · simp [put, keys, hk]
    · simp only [keys] at ih
      simp only [contains, find?, hk, if_false] at h
      simp [put, keys, hk, ih h]

end Keyed

end WarmCache
