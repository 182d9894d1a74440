import WarmCache.Keyed
import Mathlib.Data.List.Nodup

/-!
# Keys that stay distinct

A table in which no key stands twice behaves as a finite map. A write either keeps the keys or
adds one at the end, a removal takes out one, and a filter thins them out, so the keys stay
distinct whatever is done to the table.

* `Keyed.nodup_keys_put`, `Keyed.nodup_keys_remove`, `Keyed.nodup_keys_filter`: they do.
* `Keyed.find?_eq_some_iff`, `Keyed.find?_filter`: the table as a map.
* `Keyed.remove_eq_filter`: a removal is a filter.
-/

namespace WarmCache

namespace Keyed

variable {α : Type}

/-! ## Presence -/

theorem contains_iff_mem_keys (table : Keyed α) (key : String) :
    table.contains key = true ↔ key ∈ table.keys := by
  rw [contains, Option.isSome_iff_ne_none, ne_eq, find?_eq_none_iff, not_not]

theorem contains_eq_false_iff (table : Keyed α) (key : String) :
    table.contains key = false ↔ key ∉ table.keys := by
  rw [← contains_iff_mem_keys, Bool.not_eq_true]

theorem eq_nil_of_contains {table : Keyed α} (none : ∀ key, table.contains key = false) :
    table = [] := by
  cases table with
  | nil => rfl
  | cons head rest =>
    have absent := none head.1
    simp only [contains, find?, if_true, Option.isSome_some, Bool.true_eq_false] at absent

theorem length_keys (table : Keyed α) : table.keys.length = table.length :=
  List.length_map _

/-! ## Writes -/

theorem keys_put_of_not_contains (table : Keyed α) (key : String) (value : α)
    (h : table.contains key = false) : (table.put key value).keys = table.keys ++ [key] := by
  induction table with
  | nil => rfl
  | cons head rest ih =>
    obtain ⟨k, v⟩ := head
    by_cases hk : k = key
    · simp [contains, find?, hk] at h
    · simp only [contains, find?, hk, if_false] at h
      have tail := ih h
      simp only [keys] at tail
      simp [put, keys, hk, tail]

theorem nodup_keys_put {table : Keyed α} (key : String) (value : α) (h : table.keys.Nodup) :
    (table.put key value).keys.Nodup := by
  cases hc : table.contains key with
  | true =>
    rw [keys_put_of_contains table key value hc]
    exact h
  | false =>
    rw [keys_put_of_not_contains table key value hc]
    refine List.nodup_append.2 ⟨h, List.nodup_singleton key, fun a ha b hb => ?_⟩
    rw [List.mem_singleton.1 hb]
    rintro rfl
    exact (contains_eq_false_iff table a).1 hc ha

theorem length_put_of_contains (table : Keyed α) (key : String) (value : α)
    (h : table.contains key = true) : (table.put key value).length = table.length := by
  rw [← length_keys, keys_put_of_contains table key value h, length_keys]

theorem length_put_of_not_contains (table : Keyed α) (key : String) (value : α)
    (h : table.contains key = false) : (table.put key value).length = table.length + 1 := by
  rw [← length_keys, keys_put_of_not_contains table key value h, List.length_append, length_keys]
  rfl

/-! ## Removals -/

theorem keys_remove (table : Keyed α) (key : String) :
    (table.remove key).keys = table.keys.erase key := by
  induction table with
  | nil => rfl
  | cons head rest ih =>
    obtain ⟨k, v⟩ := head
    by_cases hk : k = key
    · simp [remove, keys, hk]
    · simp only [keys] at ih
      simp [remove, keys, hk, ih]

theorem nodup_keys_remove {table : Keyed α} (key : String) (h : table.keys.Nodup) :
    (table.remove key).keys.Nodup := by
  rw [keys_remove]
  exact h.erase key

theorem length_remove_of_contains (table : Keyed α) (key : String)
    (h : table.contains key = true) : (table.remove key).length + 1 = table.length := by
  have present := (contains_iff_mem_keys table key).1 h
  have pos := List.length_pos_of_mem present
  rw [← length_keys, ← length_keys, keys_remove, List.length_erase_of_mem present]
  omega

/-! ## Tables as maps -/

theorem mem_of_find? {table : Keyed α} {key : String} {v : α} (h : table.find? key = some v) :
    (key, v) ∈ table := by
  induction table with
  | nil => simp [find?] at h
  | cons head rest ih =>
    obtain ⟨k, w⟩ := head
    by_cases hk : k = key
    · simp only [find?, hk, if_true, Option.some.injEq] at h
      rw [hk, h]
      exact List.mem_cons_self
    · simp only [find?, hk, if_false] at h
      exact List.mem_cons_of_mem _ (ih h)

theorem find?_eq_some_iff {table : Keyed α} {key : String} {v : α} (nodup : table.keys.Nodup) :
    table.find? key = some v ↔ (key, v) ∈ table := by
  refine ⟨mem_of_find?, fun h => ?_⟩
  induction table with
  | nil => cases h
  | cons head rest ih =>
    obtain ⟨k, w⟩ := head
    simp only [keys, List.map_cons, List.nodup_cons] at nodup
    rcases List.mem_cons.1 h with h | h
    · obtain ⟨rfl, rfl⟩ := Prod.mk.inj h
      simp [find?]
    · have hk : k ≠ key := by
        rintro rfl
        exact nodup.1 (List.mem_map_of_mem h)
      simp only [find?, hk, if_false]
      exact ih nodup.2 h

theorem remove_eq_filter {table : Keyed α} (key : String) (nodup : table.keys.Nodup) :
    table.remove key = table.filter fun pair => !decide (pair.1 = key) := by
  induction table with
  | nil => rfl
  | cons head rest ih =>
    obtain ⟨k, v⟩ := head
    simp only [keys, List.map_cons, List.nodup_cons] at nodup
    by_cases hk : k = key
    · subst hk
      have keep : ∀ pair ∈ rest, (!decide (pair.1 = k)) = true := by
        intro pair hp
        simp only [Bool.not_eq_true', decide_eq_false_iff_not]
        rintro rfl
        exact nodup.1 (List.mem_map_of_mem hp)
      simp only [remove, if_true, decide_true, Bool.not_true, Bool.false_eq_true,
        not_false_eq_true, List.filter_cons_of_neg]
      exact (List.filter_eq_self.2 keep).symm
    · simp [remove, hk, ih nodup.2]

theorem remove_of_not_contains {table : Keyed α} {key : String}
    (h : table.contains key = false) : table.remove key = table := by
  induction table with
  | nil => rfl
  | cons head rest ih =>
    obtain ⟨k, v⟩ := head
    by_cases hk : k = key
    · simp [contains, find?, hk] at h
    · simp only [contains, find?, hk, if_false] at h
      simp only [remove, hk, if_false]
      rw [ih h]

theorem nodup_keys_filter {table : Keyed α} (p : String × α → Bool) (h : table.keys.Nodup) :
    Keyed.keys (table.filter p) |>.Nodup :=
  List.Nodup.sublist (List.filter_sublist.map Prod.fst) h

theorem find?_filter {table : Keyed α} (p : String × α → Bool) (key : String)
    (nodup : table.keys.Nodup) :
    Keyed.find? (table.filter p) key = (table.find? key).filter fun v => p (key, v) := by
  cases found : table.find? key with
  | none =>
    rw [find?_eq_none_iff] at found
    refine (find?_eq_none_iff _ key).2 fun present => ?_
    exact found ((List.filter_sublist.map Prod.fst).subset present)
  | some v =>
    have mem := mem_of_find? found
    cases hp : p (key, v) with
    | true =>
      have kept := List.mem_filter.2 ⟨mem, hp⟩
      rw [(find?_eq_some_iff (nodup_keys_filter p nodup)).2 kept]
      simp [Option.filter, hp]
    | false =>
      simp only [Option.filter, hp, Bool.false_eq_true, if_false]
      refine (find?_eq_none_iff _ key).2 fun present => ?_
      obtain ⟨⟨k, w⟩, hw, rfl⟩ := List.mem_map.1 present
      obtain ⟨hw, pw⟩ := List.mem_filter.1 hw
      have same := (find?_eq_some_iff nodup).2 hw
      rw [found, Option.some.injEq] at same
      subst same
      rw [hp] at pw
      cases pw

end Keyed

end WarmCache
