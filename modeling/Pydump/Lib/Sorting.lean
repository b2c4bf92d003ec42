/-
# Sorts and the lists they make

A list that has its elements in a strict order is the only one with these elements, so that
it does not matter how it was made.  A sort by distinct keys makes such a list, also one
that leaves equal keys in any order; a stable sort makes one of every list that was in a
strict order before.
-/

import Mathlib.Data.String.Basic
import Mathlib.Order.Lattice

namespace Sorting

/-- `result` has the elements of `xs`, each before those it precedes. -/
structure Lists {α : Type*} (precedes : α → α → Prop) (xs result : List α) : Prop where
  perm : result.Perm xs
  ordered : result.Pairwise precedes

variable {α β κ : Type*} {precedes : α → α → Prop} {xs ys result result' : List α}

/-- **There is one such list.** -/
theorem Lists.unique (hasymm : ∀ a b, precedes a b → ¬precedes b a) (h : Lists precedes xs result)
    (h' : Lists precedes ys result') (hperm : xs.Perm ys) : result = result' :=
  ((h.perm.trans hperm).trans h'.perm.symm).eq_of_pairwise (fun a b _ _ hab hba => absurd hba (hasymm a b hab))
    h.ordered
    h'.ordered

/-- A map that keeps the order keeps the list sorted. -/
theorem Lists.map {f : α → β} {precedes' : β → β → Prop} (h : Lists precedes xs result)
    (hf : ∀ a ∈ xs, ∀ b ∈ xs, precedes a b → precedes' (f a) (f b)) : Lists precedes' (xs.map f) (result.map f) where
  perm := h.perm.map f
  ordered := List.pairwise_map.2 (h.ordered.imp_of_mem fun ha hb => hf _ (h.perm.mem_iff.1 ha) _ (h.perm.mem_iff.1 hb))

/-- Two elements of a list come in one order or in the other. -/
theorem pair_sublist_or {a b : α} (ha : a ∈ xs) (hb : b ∈ xs) (hne : a ≠ b) :
    [a, b].Sublist xs ∨ [b, a].Sublist xs := by
  induction xs with
  | nil => exact absurd ha List.not_mem_nil
  | cons x xs ih =>
    rcases List.mem_cons.1 ha with rfl | ha'
    · rcases List.mem_cons.1 hb with rfl | hb'
      · exact absurd rfl hne
      · exact .inl ((List.singleton_sublist.2 hb').cons_cons a)
    · rcases List.mem_cons.1 hb with rfl | hb'
      · exact .inr ((List.singleton_sublist.2 ha').cons_cons b)
      · exact (ih ha' hb').imp (fun h => h.cons x) fun h => h.cons x

/-- Without repetitions they do not come in both. -/
theorem not_pair_sublist {a b : α} (hnodup : xs.Nodup) (hab : [a, b].Sublist xs) : ¬[b, a].Sublist xs := by
  induction xs with
  | nil => exact absurd hab (by simp)
  | cons x xs ih =>
    obtain ⟨hx, hnodup'⟩ := List.nodup_cons.1 hnodup
    intro hba
    rcases List.sublist_cons_iff.1 hab with hab' | ⟨rest, heq, hrest⟩
    · rcases List.sublist_cons_iff.1 hba with hba' | ⟨rest, heq, -⟩
      · exact ih hnodup' hab' hba'
      · cases heq
        exact hx (hab'.subset (by simp))
    · cases heq
      rcases List.sublist_cons_iff.1 hba with hba' | ⟨rest', heq', -⟩
      · exact hx (hba'.subset (by simp))
      · cases heq'
        exact hx (hrest.subset (by simp))

section Keys

variable [LinearOrder κ] {key : α → κ}

/-- A list without two of one key that ascends, does so strictly. -/
theorem lists_of_le (hperm : result.Perm xs) (hnodup : (xs.map key).Nodup)
    (hle : result.Pairwise fun a b => key a ≤ key b) :
    Lists (fun a b => key a < key b) xs result where
  perm := hperm
  ordered := by
    have hne : result.Pairwise fun a b => key a ≠ key b :=
      List.pairwise_map.1 ((hperm.map key).nodup_iff.2 hnodup)
    exact (hle.and hne).imp fun h => lt_of_le_of_ne h.1 h.2

/-- The relations that `mergeSort` asks for. -/
theorem le_trans_total {le : α → α → Bool} (hle : ∀ a b, le a b = true ↔ key a ≤ key b) :
    (∀ a b c, le a b → le b c → le a c) ∧ ∀ a b, le a b || le b a := by
  constructor
  · intro a b c hab hbc
    exact (hle a c).2 (((hle a b).1 hab).trans ((hle b c).1 hbc))
  · intro a b
    rw [Bool.or_eq_true, hle, hle]
    exact le_total _ _

/-- **A sort by distinct keys.** -/
theorem lists_mergeSort {le : α → α → Bool} (hle : ∀ a b, le a b = true ↔ key a ≤ key b) (hnodup : (xs.map key).Nodup) :
    Lists (fun a b => key a < key b) xs (xs.mergeSort le) := by
  obtain ⟨htrans, htotal⟩ := le_trans_total hle
  refine lists_of_le (List.mergeSort_perm xs le) hnodup ?_
  exact (List.pairwise_mergeSort htrans htotal xs).imp fun h => (hle _ _).1 h

/-- **A stable sort** leaves elements of one key as they were. -/
theorem lists_stable {le : α → α → Bool} (hle : ∀ a b, le a b = true ↔ key a ≤ key b) (hirrefl : ∀ a, ¬precedes a a)
    (hordered : xs.Pairwise precedes) :
    Lists (fun a b => key a < key b ∨ key a = key b ∧ precedes a b) xs (xs.mergeSort le) := by
  obtain ⟨htrans, htotal⟩ := le_trans_total hle
  have hperm := List.mergeSort_perm xs le
  have hnodup : (xs.mergeSort le).Nodup := by
    refine hperm.nodup_iff.2 (hordered.imp fun {a b} h heq => ?_)
    subst heq
    exact hirrefl a h
  refine ⟨hperm, List.pairwise_iff_forall_sublist.2 fun {a b} hab => ?_⟩
  have hkey : key a ≤ key b :=
    (hle a b).1 (List.pairwise_iff_forall_sublist.1 (List.pairwise_mergeSort htrans htotal xs) hab)
  rcases lt_or_eq_of_le hkey with hlt | heq
  · exact .inl hlt
  · -- of two with one key the first one was the first one before
    refine .inr ⟨heq, ?_⟩
    have hne : a ≠ b := List.pairwise_iff_forall_sublist.1 hnodup hab
    have ha : a ∈ xs := hperm.mem_iff.1 (hab.subset (by simp))
    have hb : b ∈ xs := hperm.mem_iff.1 (hab.subset (by simp))
    rcases pair_sublist_or ha hb hne with hpair | hpair
    · exact List.pairwise_iff_forall_sublist.1 hordered hpair
    · have hsorted := List.pair_sublist_mergeSort htrans htotal ((hle b a).2 heq.ge) hpair
      exact absurd hsorted (not_pair_sublist hnodup hab)

end Keys

/-! ### Sorts that are free to leave equal keys in any order -/

/-- What a comparison has to be for a sort: smaller is transitive and excludes itself, and so
is neither-smaller. -/
structure StrictWeak {α : Type*} (less : α → α → Bool) : Prop where
  irrefl : ∀ a, less a a = false
  trans : ∀ a b c, less a b = true → less b c = true → less a c = true
  incomparable : ∀ a b c, less a b = false → less b a = false → less b c = false → less c b = false →
    less a c = false ∧ less c a = false

/-- A sort by a comparison. -/
structure FreeSort where
  sort : ∀ {α : Type}, (α → α → Bool) → List α → List α
  perm : ∀ {α : Type} (less : α → α → Bool) (xs : List α), (sort less xs).Perm xs
  ordered : ∀ {α : Type} (less : α → α → Bool), StrictWeak less → ∀ xs : List α,
    (sort less xs).Pairwise fun a b => less b a = false

/-- A comparison by a key is a strict weak order. -/
theorem strictWeak_of_key [LinearOrder κ] {key : α → κ} {less : α → α → Bool}
    (hless : ∀ a b, less a b = true ↔ key a < key b) : StrictWeak less := by
  have hnot : ∀ a b, less a b = false ↔ key b ≤ key a := fun a b => by
    rw [← Bool.not_eq_true, hless, not_lt]
  constructor
  · intro a
    exact (hnot a a).2 le_rfl
  · intro a b c hab hbc
    exact (hless a c).2 (((hless a b).1 hab).trans ((hless b c).1 hbc))
  · intro a b c hab hba hbc hcb
    rw [hnot] at *
    exact ⟨hbc.trans hab, (hnot c a).2 (hba.trans hcb)⟩

/-- **A free sort by distinct keys.** -/
theorem FreeSort.lists {α : Type} {xs : List α} [LinearOrder κ] {key : α → κ} (sorter : FreeSort) {less : α → α → Bool}
    (hless : ∀ a b, less a b = true ↔ key a < key b) (hnodup : (xs.map key).Nodup) :
    Lists (fun a b => key a < key b) xs (sorter.sort less xs) := by
  refine lists_of_le (sorter.perm less xs) hnodup ?_
  refine (sorter.ordered less (strictWeak_of_key hless) xs).imp fun {a b} h => ?_
  rw [← Bool.not_eq_true, hless, not_lt] at h
  exact h

/-- The sort that leaves equal keys in their order is one. -/
def FreeSort.stable : FreeSort where
  sort less xs := xs.mergeSort fun a b => !less b a
  perm less xs := List.mergeSort_perm xs _
  ordered less hless xs := by
    have htrans : ∀ a b c, (!less b a) = true → (!less c b) = true → (!less c a) = true := by
      intro a b c hba hcb
      rw [Bool.not_eq_true'] at *
      by_contra hca
      rw [Bool.not_eq_false] at hca
      cases hab : less a b with
      | true => exact absurd (hless.trans c a b hca hab) (by rw [hcb]; decide)
      | false =>
        cases hbc : less b c with
        | true => exact absurd (hless.trans b c a hbc hca) (by rw [hba]; decide)
        | false => exact absurd (hless.incomparable a b c hab hba hbc hcb).2 (by rw [hca]; decide)
    have htotal : ∀ a b, (!less b a || !less a b) = true := by
      intro a b
      cases hba : less b a with
      | false => rfl
      | true =>
        cases hab : less a b with
        | false => rfl
        | true => exact absurd (hless.trans a b a hab hba) (by rw [hless.irrefl]; decide)
    refine (List.pairwise_mergeSort htrans htotal xs).imp fun {a b} h => ?_
    rwa [Bool.not_eq_true'] at h

end Sorting
