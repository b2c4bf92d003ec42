/-
# Orders that a runtime is free to choose

The order in which a hash set or a map is walked, and the order in which a sort
leaves equal keys.  An `OrderChoice` makes such a choice anew at every `Site`,
the place of a computation at which it is asked; a statement about every
`OrderChoice` holds whatever the runtime does.
-/

import Mathlib.Data.Finset.Sort

/-- The orders that are chosen. -/
structure OrderChoice (Site : Type) where
  /-- The order in which a set is walked. -/
  walk : Site → Finset ℕ → List ℕ
  walk_nodup : ∀ site s, (walk site s).Nodup
  mem_walk : ∀ site s x, x ∈ walk site s ↔ x ∈ s
  /-- A list after sorting it by falling keys. -/
  sort : Site → (ℕ → ℤ) → List ℕ → List ℕ
  sort_perm : ∀ site key xs, (sort site key xs).Perm xs
  sort_sorted : ∀ site key xs, (sort site key xs).Pairwise fun a b => key b ≤ key a

namespace OrderChoice

variable {Site : Type}

/-- Ascending sets and a stable sort. -/
def ascending : OrderChoice Site where
  walk _ s := s.sort (· ≤ ·)
  walk_nodup _ s := Finset.sort_nodup s (· ≤ ·)
  mem_walk _ s _ := Finset.mem_sort (· ≤ ·)
  sort _ key xs := xs.mergeSort fun a b => decide (key b ≤ key a)
  sort_perm _ key xs := List.mergeSort_perm xs _
  sort_sorted _ key xs := by
    have h := @List.pairwise_mergeSort _ (fun a b => decide (key b ≤ key a))
      (fun a b c hab hbc => by simp only [decide_eq_true_eq] at *; omega)
      (fun a b => by simp only [Bool.or_eq_true, decide_eq_true_eq]; omega) xs
    exact h.imp fun hab => of_decide_eq_true hab

/-- A walk visits the elements of the set. -/
theorem toFinset_walk (orders : OrderChoice Site) (site : Site) (s : Finset ℕ) :
    (orders.walk site s).toFinset = s := by
  ext x
  rw [List.mem_toFinset, orders.mem_walk]

end OrderChoice
