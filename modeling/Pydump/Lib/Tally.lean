/-
# Sums by key

A dictionary that adds the weight of every element to the value of its key.  It has the
keys that occur, each with the sum of its elements, and all sums together are the sum of
all elements.
-/

import Mathlib.Algebra.BigOperators.Group.List.Basic
import Mathlib.Algebra.Ring.Nat
import Mathlib.Data.List.Induction
import Pydump.Lib.OrderedDict

namespace Tally

variable {α K : Type*} [DecidableEq K] {key : α → K} {weight : α → ℕ} {xs : List α}

/-- Add to the value of a key, which is 0 at first. -/
def add (d : OrderedDict K ℕ) (k : K) (n : ℕ) : OrderedDict K ℕ := d.insert k ((d.find? k).getD 0 + n)

/-- The sums of the weights by key. -/
def tally (key : α → K) (weight : α → ℕ) (xs : List α) : OrderedDict K ℕ :=
  xs.foldl (fun d x => add d (key x) (weight x)) .empty

/-- Nothing is summed. -/
@[simp] theorem tally_nil : tally key weight [] = .empty := rfl

/-- The last element adds its weight to its key. -/
@[simp] theorem tally_concat (x : α) :
    tally key weight (xs ++ [x]) = add (tally key weight xs) (key x) (weight x) := by
  rw [tally, List.foldl_append]
  rfl

/-- The weight of a key. -/
def weightOf (key : α → K) (weight : α → ℕ) (xs : List α) (k : K) : ℕ := ((xs.filter fun x => key x = k).map weight).sum

/-- The last element adds its weight to its key. -/
theorem weightOf_concat (x : α) (k : K) :
    weightOf key weight (xs ++ [x]) k = weightOf key weight xs k + if key x = k then weight x else 0 := by
  unfold weightOf
  rw [List.filter_append, List.map_append, List.sum_append]
  by_cases h : key x = k
  · simp [h]
  · simp [h]

/-- **The keys are those that occur.** -/
theorem mem_keys_tally {k : K} : k ∈ (tally key weight xs).keys ↔ ∃ x ∈ xs, key x = k := by
  induction xs using List.reverseRecOn with
  | nil => simp [OrderedDict.keys, OrderedDict.empty]
  | append_singleton xs x ih =>
    have hinsert : k ∈ (tally key weight (xs ++ [x])).keys ↔ k ∈ (tally key weight xs).keys ∨ k = key x := by
      rw [tally_concat, add, OrderedDict.keys_insert]
      split_ifs with h
      · constructor
        · exact .inl
        · rintro (hk | rfl)
          · exact hk
          · exact h
      · simp
    rw [hinsert, ih]
    constructor
    · rintro (⟨y, hy, rfl⟩ | rfl)
      · exact ⟨y, List.mem_append_left _ hy, rfl⟩
      · exact ⟨x, by simp, rfl⟩
    · rintro ⟨y, hy, rfl⟩
      rcases List.mem_append.1 hy with hy | hy
      · exact .inl ⟨y, hy, rfl⟩
      · exact .inr (by rw [List.mem_singleton.1 hy])

/-- The weights do not matter for the keys. -/
theorem keys_tally_eq (key : α → K) (weight weight' : α → ℕ) (xs : List α) :
    (tally key weight xs).keys = (tally key weight' xs).keys := by
  induction xs using List.reverseRecOn with
  | nil => rfl
  | append_singleton xs x ih =>
    rw [tally_concat, tally_concat, add, add, OrderedDict.keys_insert, OrderedDict.keys_insert, ih]

/-- **A key has the sum of its elements.** -/
theorem find?_tally {k : K} (h : k ∈ (tally key weight xs).keys) :
    (tally key weight xs).find? k = some (weightOf key weight xs k) := by
  have hvalue : ((tally key weight xs).find? k).getD 0 = weightOf key weight xs k := by
    clear h
    induction xs using List.reverseRecOn with
    | nil => rfl
    | append_singleton xs x ih =>
      rw [tally_concat, add, OrderedDict.find?_insert, weightOf_concat]
      split_ifs with hk
      · subst hk
        rw [Option.getD_some, ih]
      · rw [ih, Nat.add_zero]
  obtain ⟨n, hn⟩ := OrderedDict.exists_find?_of_mem_keys h
  rw [hn] at hvalue ⊢
  rw [← hvalue]
  rfl

/-! ### What matters of the elements -/

variable {β : Type*} {key' : β → K} {weight' : β → ℕ} {ys : List β}

/-- The keys and the weights decide. -/
theorem keys_tally_congr (h : (xs.map fun x => (key x, weight x)) = ys.map fun y => (key' y, weight' y)) :
    (tally key weight xs).keys = (tally key' weight' ys).keys := by
  have hleft : tally key weight xs = (xs.map fun x => (key x, weight x)).foldl (fun d p => add d p.1 p.2) .empty := by
    rw [List.foldl_map]
    rfl
  rw [hleft, h, List.foldl_map]
  rfl

/-- The weight of a key from pairs of keys and weights. -/
theorem weightOf_pairs (key : α → K) (weight : α → ℕ) (xs : List α) (k : K) : weightOf key weight xs k =
    (((xs.map fun x => (key x, weight x)).filter fun p => p.1 = k).map Prod.snd).sum := by
  rw [List.filter_map, List.map_map]
  rfl

/-- The weight of a key depends on keys and weights only. -/
theorem weightOf_congr (h : (xs.map fun x => (key x, weight x)) = ys.map fun y => (key' y, weight' y)) (k : K) :
    weightOf key weight xs k = weightOf key' weight' ys k := by
  rw [weightOf_pairs, h, ← weightOf_pairs]

/-- A key has no more than all have. -/
theorem weightOf_le_sum (k : K) : weightOf key weight xs k ≤ (xs.map weight).sum := by
  induction xs using List.reverseRecOn with
  | nil => exact Nat.zero_le _
  | append_singleton xs x ih =>
    rw [weightOf_concat, List.map_append, List.sum_append, List.map_singleton, List.sum_singleton]
    split_ifs <;> omega

/-- Adding to a key adds to the sum of all. -/
theorem sum_values_add (d : OrderedDict K ℕ) (k : K) (n : ℕ) : (add d k n).values.sum = d.values.sum + n := by
  have hentries : ∀ es : List (K × ℕ), ((OrderedDict.insertEntries k
      ((OrderedDict.lookupEntries k es).getD 0 + n) es).map Prod.snd).sum = (es.map Prod.snd).sum + n := by
    intro es
    induction es with
    | nil => simp [OrderedDict.insertEntries, OrderedDict.lookupEntries]
    | cons e es ih =>
      obtain ⟨k', v⟩ := e
      unfold OrderedDict.insertEntries OrderedDict.lookupEntries
      split_ifs with h
      · simp only [Option.getD_some, List.map_cons, List.sum_cons]
        omega
      · simp only [List.map_cons, List.sum_cons]
        omega
  exact hentries d.entries

/-- **Nothing is lost**: the sums add up to the sum of all elements. -/
theorem sum_values_tally : (tally key weight xs).values.sum = (xs.map weight).sum := by
  induction xs using List.reverseRecOn with
  | nil => rfl
  | append_singleton xs x ih =>
    rw [tally_concat, sum_values_add, ih, List.map_append, List.sum_append]
    simp

end Tally
