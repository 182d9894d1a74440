import Mathlib.Data.List.Basic
import Mathlib.Data.List.Perm.Basic

/-!
# One element in place of another

Tasks, threads and jobs are kept in lists, and when one of them goes on all others stay as they
are. So sums and counts over all of them change by what the one contributes.

* `getElem?_set_eq_some_iff`: what is found in a list after the replacement.
* `foldr_add_set`, `countP_set_add`, `length_filterMap_set_add`: sums and counts.
* `exists_others`, `cons_set_perm`, `filterMap_set_perm`: the list up to order.
-/

namespace WarmCache

variable {α β : Type} {l : List α} {index : Nat} {a : α}

theorem getElem?_set_eq_some_iff (found : l[index]? = some a) {b : α} {i : Nat} {x : α} :
    (l.set index b)[i]? = some x ↔ (i = index ∧ x = b) ∨ (i ≠ index ∧ l[i]? = some x) := by
  obtain ⟨inside, _⟩ := List.getElem?_eq_some_iff.1 found
  by_cases same : i = index
  · subst same
    simp [inside, eq_comm]
  · simp [same, Ne.symm same]

/-- The others, which stay as they are. -/
theorem exists_others (found : l[index]? = some a) :
    ∃ others : List α, l.Perm (a :: others) ∧ ∀ b, (l.set index b).Perm (b :: others) := by
  obtain ⟨inside, rfl⟩ := List.getElem?_eq_some_iff.1 found
  exact ⟨l.eraseIdx index, (List.getElem_cons_eraseIdx_perm inside).symm,
    fun b => List.set_perm_cons_eraseIdx inside b⟩

/-- Another value in place of one in a list, with the old one beside it. -/
theorem cons_set_perm (found : l[index]? = some a) (b : α) :
    (a :: l.set index b).Perm (b :: l) := by
  obtain ⟨others, before, after⟩ := exists_others found
  exact (((after b).cons a).trans (.swap b a others)).trans (before.symm.cons b)

theorem filterMap_set_perm (f : α → Option β) (found : l[index]? = some a) (b : α) :
    ((f a).toList ++ (l.set index b).filterMap f).Perm ((f b).toList ++ l.filterMap f) := by
  have both := (cons_set_perm found b).filterMap f
  have split : ∀ (x : α) (xs : List α),
      (x :: xs).filterMap f = (f x).toList ++ xs.filterMap f := by
    intro x xs
    rw [List.filterMap_cons]
    cases f x <;> rfl
  rw [split, split] at both
  exact both

theorem length_filterMap_set_add (f : α → Option β) (found : l[index]? = some a) (b : α) :
    ((l.set index b).filterMap f).length + (f a).toList.length =
      (l.filterMap f).length + (f b).toList.length := by
  have same := (filterMap_set_perm f found b).length_eq
  simp only [List.length_append] at same
  omega

theorem countP_set_add (p : α → Bool) (found : l[index]? = some a) (b : α) :
    (l.set index b).countP p + (p a).toNat = l.countP p + (p b).toNat := by
  have same := (cons_set_perm found b).countP_eq p
  have one : ∀ x, (x :: l).countP p = l.countP p + (p x).toNat := by
    intro x
    rw [List.countP_cons]
    cases p x <;> rfl
  rw [one, List.countP_cons] at same
  rw [← same]
  cases p a <;> rfl

theorem foldr_add_set (f : α → Nat) (found : l[index]? = some a) (b : α) :
    (l.set index b).foldr (fun x n => f x + n) 0 + f a = l.foldr (fun x n => f x + n) 0 + f b := by
  induction l generalizing index with
  | nil => cases found
  | cons x rest ih =>
    cases index with
    | zero =>
      obtain rfl := Option.some.inj found
      simp only [List.set_cons_zero, List.foldr_cons]
      omega
    | succ index =>
      have rest := ih found
      simp only [List.set_cons_succ, List.foldr_cons]
      omega

end WarmCache
