/-
# What is freed with some of the roots

Several parties hold elements of a reference graph.  `FreedWith start held` is the
set that goes when one party lets go of its elements `start`: an element goes when
it is one of them or something in the set refers to it, nothing outside the set
refers to it, and it is not `held` by another party.

A computation may ask whether another party holds an element at the starts only.
`freedWith_iff` says which elements such a computation frees too much: those
below an element that is held but no start.
-/

import Pydump.Lib.RefGraph

namespace RefGraph

variable {α : Type*} [DecidableEq α] {g : RefGraph α} {start held : α → Prop} {x y : α}

/-- What goes with the elements `start` while other parties keep what they hold. -/
inductive FreedWith (g : RefGraph α) (start held : α → Prop) : α → Prop
  | root {y : α} (root : start y) (free : ¬held y) (referrers : ∀ z, y ∈ g.succ z → FreedWith g start held z) :
      FreedWith g start held y
  | step {x y : α} (above : FreedWith g start held x) (refers : y ∈ g.succ x) (free : ¬held y)
      (referrers : ∀ z, y ∈ g.succ z → FreedWith g start held z) : FreedWith g start held y

omit [DecidableEq α] in
/-- What is freed is held by nobody. -/
theorem FreedWith.free (h : g.FreedWith start held y) : ¬held y := by
  cases h <;> assumption

omit [DecidableEq α] in
/-- All that refers to a freed element is freed. -/
theorem FreedWith.referrer (h : g.FreedWith start held y) (hx : y ∈ g.succ x) : g.FreedWith start held x := by
  cases h with
  | root _ _ hall => exact hall x hx
  | step _ _ _ hall => exact hall x hx

omit [DecidableEq α] in
/-- The less is held, the more is freed. -/
theorem FreedWith.mono {held' : α → Prop} (hle : ∀ z, held' z → held z) (h : g.FreedWith start held y) :
    g.FreedWith start held' y := by
  induction h with
  | root hroot hfree _ ih => exact .root hroot (fun hh => hfree (hle _ hh)) ih
  | step _ hrefers hfree _ ihx ih => exact .step ihx hrefers (fun hh => hfree (hle _ hh)) ih

omit [DecidableEq α] in
/-- Everything on a path to a freed element is freed. -/
theorem FreedWith.of_reach (h : g.FreedWith start held y) (hx : g.Reach x y) : g.FreedWith start held x := by
  induction hx using Relation.ReflTransGen.head_induction_on with
  | refl => exact h
  | head hzw _ ih => exact ih.referrer hzw

omit [DecidableEq α] in
/-- **Asking at the starts only** frees the same, but for what lies below something
held. -/
theorem freedWith_iff : g.FreedWith start held y ↔
    g.FreedWith start (fun z => start z ∧ held z) y ∧ ∀ x, g.Reach x y → ¬held x := by
  refine ⟨fun h => ⟨h.mono fun z hz => hz.2, fun x hx => (h.of_reach hx).free⟩, ?_⟩
  rintro ⟨h, hfree⟩
  induction h with
  | @root y hroot _ _ ih =>
    exact .root hroot (hfree y .refl) fun z hz => ih z hz fun x hx => hfree x (hx.tail hz)
  | @step x y _ hrefers _ _ ihx ih =>
    have habove : ∀ z, y ∈ g.succ z → ∀ x, g.Reach x z → ¬held x := fun z hz x hx => hfree x (hx.tail hz)
    exact .step (ihx (habove x hrefers)) hrefers (hfree y .refl) fun z hz => ih z hz (habove z hz)

/-- **In terms of counts**: an element takes all its referrers, and more than that
when it is held. -/
theorem dead_iff_freedWith {need : α → ℤ} (hheld : ∀ y, held y → ((g.inbound y).card : ℤ) < need y)
    (hfree : ∀ y, ¬held y → need y = (g.inbound y).card) :
    RefCount.Dead g.succ need start y ↔ g.FreedWith start held y := by
  constructor
  · intro h
    induction h with
    | @mk y T _ hrefer hfound henough ih =>
      have hsub : T ⊆ g.inbound y := fun x hx => mem_inbound.2 (hrefer x hx)
      have hnot : ¬held y := fun hh => by
        have := hheld y hh
        have := Finset.card_le_card hsub
        omega
      have hall : T = g.inbound y := by
        rw [hfree y hnot] at henough
        exact Finset.eq_of_subset_of_card_le hsub (Int.ofNat_le.1 henough)
      have hreferrers : ∀ z, y ∈ g.succ z → g.FreedWith start held z := fun z hz =>
        ih z (hall ▸ mem_inbound.2 hz)
      rcases hfound with hs | ⟨x, hx⟩
      · exact .root hs hnot hreferrers
      · exact .step (ih x hx) (hrefer x hx) hnot hreferrers
  · intro h
    have hdead : ∀ y, ¬held y → (start y ∨ (g.inbound y).Nonempty) →
        (∀ z, y ∈ g.succ z → RefCount.Dead g.succ need start z) → RefCount.Dead g.succ need start y :=
      fun y hnot hfound hall => ⟨g.inbound y, fun z hz => hall z (mem_inbound.1 hz), fun z hz => mem_inbound.1 hz,
        hfound, le_of_eq (hfree y hnot)⟩
    induction h with
    | root hs hnot _ ih => exact hdead _ hnot (.inl hs) ih
    | @step x y _ hxy hnot _ _ ih => exact hdead y hnot (.inr ⟨x, mem_inbound.2 hxy⟩) ih

omit [DecidableEq α] in
/-- When every start is held, nothing is freed. -/
theorem not_freedWith_of_held (h : ∀ z, start z → held z) : ¬g.FreedWith start held y := by
  intro hy
  induction hy with
  | root hs hnot => exact hnot (h _ hs)
  | step _ _ _ _ ih => exact ih

open Classical in
/-- The sizes of the objects that are freed, summed. -/
noncomputable def freed (g : RefGraph α) (size : α → ℕ) (start held : α → Prop) : ℕ :=
  ∑ x ∈ g.objects with g.FreedWith start held x, size x

open Classical in
/-- The sizes of the objects with a property, summed. -/
noncomputable def weight (g : RefGraph α) (size : α → ℕ) (p : α → Prop) : ℕ := ∑ x ∈ g.objects with p x, size x

open Classical in
omit [DecidableEq α] in
/-- **Two properties weigh the same** when what has only the one and what has only the other do. -/
theorem weight_eq_iff {size : α → ℕ} {p q : α → Prop} :
    g.weight size p = g.weight size q ↔
      g.weight size (fun x => p x ∧ ¬q x) = g.weight size fun x => q x ∧ ¬p x := by
  have hsplit : ∀ p q : α → Prop, g.weight size p =
      g.weight size (fun x => p x ∧ q x) + g.weight size fun x => p x ∧ ¬q x := by
    intro p q
    have hparts := Finset.sum_filter_add_sum_filter_not (g.objects.filter p) q size
    rw [Finset.filter_filter, Finset.filter_filter] at hparts
    unfold weight
    convert hparts.symm
  have hboth : g.weight size (fun x => p x ∧ q x) = g.weight size fun x => q x ∧ p x := by
    simp only [and_comm]
  rw [hsplit p q, hsplit q p, hboth]
  omega

open Classical in
omit [DecidableEq α] in
/-- **Two sums over a smaller and a larger set agree** when what is more has no size. -/
theorem freed_eq_iff {size : α → ℕ} {held' : α → Prop} (hle : ∀ z, held' z → held z) :
    g.freed size start held' = g.freed size start held ↔
      ∀ y ∈ g.objects, 0 < size y → g.FreedWith start held' y → g.FreedWith start held y := by
  have hsub : (g.objects.filter fun x => g.FreedWith start held x) ⊆
      g.objects.filter fun x => g.FreedWith start held' x := fun x hx => by
    obtain ⟨hx, hfreed⟩ := Finset.mem_filter.1 hx
    exact Finset.mem_filter.2 ⟨hx, hfreed.mono hle⟩
  rw [freed, freed, ← Finset.sum_sdiff hsub, Nat.add_eq_right, Finset.sum_eq_zero_iff]
  constructor
  · intro hzero y hy hpos hfreed'
    by_contra hfreed
    have hmem : y ∈ (g.objects.filter fun x => g.FreedWith start held' x) \
        g.objects.filter fun x => g.FreedWith start held x :=
      Finset.mem_sdiff.2 ⟨Finset.mem_filter.2 ⟨hy, hfreed'⟩, fun hm => hfreed (Finset.mem_filter.1 hm).2⟩
    have := hzero y hmem
    omega
  · intro hall y hm
    obtain ⟨hm, hnot⟩ := Finset.mem_sdiff.1 hm
    obtain ⟨hy, hfreed'⟩ := Finset.mem_filter.1 hm
    by_contra hne
    exact hnot (Finset.mem_filter.2 ⟨hy, hall y hy (Nat.pos_of_ne_zero hne) hfreed'⟩)

end RefGraph
