/-
# The strict subtrees as a least set

`strictStep` adds to a set what has at most one reference and refers into the set
only.  The strict objects are its least closed set, and they form a forest that is
entered at its roots only: nothing outside a tree refers to something in it but
its root (`Forest`).  A sum over what is below an object counts each once.

A marking that has come to its end is such a set (`Marking.Found.subtrees`), and
so is its image when the elements are renamed (`Renaming.subtrees`).
-/

import Mathlib.Order.Bounds.Basic
import Pydump.Lib.RefRenaming
import Pydump.Lib.StrictMarking

open Relation (ReflTransGen TransGen)

namespace RefGraph

variable {α : Type*} [DecidableEq α] {g : RefGraph α} {size : α → ℕ} {x y z : α}

variable (g) in
/-- The objects with at most one reference that refer into `s` only. -/
def strictStep (s : Finset α) : Finset α := {x ∈ g.objects | (g.inbound x).card ≤ 1 ∧ g.succ x ⊆ s}

/-- What a step of the iteration adds. -/
theorem mem_strictStep {s : Finset α} :
    x ∈ g.strictStep s ↔ x ∈ g.objects ∧ (g.inbound x).card ≤ 1 ∧ g.succ x ⊆ s := Finset.mem_filter

/-- The references among the elements of `s`, which holds all that its elements
lead to, are those of a forest. -/
structure Forest (g : RefGraph α) (s : Finset α) : Prop where
  objects : s ⊆ g.objects
  closed : ∀ x ∈ s, ∀ y, g.Reach x y → y ∈ s
  acyclic : ∀ x ∈ s, ¬TransGen g.Refers x x
  single : ∀ x ∈ s, ∀ p q, x ∈ g.succ p → x ∈ g.succ q → p = q
  /-- What refers to something properly below `x` is `x` or below it. -/
  inside : ∀ x ∈ s, ∀ y, TransGen g.Refers x y → ∀ z, y ∈ g.succ z → g.Reach x z

/-- The least closed set with what was stored for its elements. -/
structure Subtrees (g : RefGraph α) (size : α → ℕ) (marked : Finset α) (stored : α → Option ℕ) : Prop where
  least : IsLeast {s : Finset α | g.strictStep s ⊆ s} marked
  forest : g.Forest marked
  sums : ∀ x ∈ marked, stored x = some (∑ z ∈ g.below x, size z)

/-- **The strict objects are the least closed set.** -/
theorem isLeast_of_strict {marked : Finset α} (h : ∀ x, x ∈ marked ↔ g.Strict x) :
    IsLeast {s : Finset α | g.strictStep s ⊆ s} marked := by
  constructor
  · intro x hx
    obtain ⟨hobject, hsingle, hbelow⟩ := mem_strictStep.1 hx
    exact (h x).2 ⟨hobject, hsingle, fun y hy => (h y).1 (hbelow hy)⟩
  · intro s hs x hx
    have hstrict := (h x).1 hx
    clear hx
    induction hstrict with
    | mk hobject hsingle _ ih => exact hs (mem_strictStep.2 ⟨hobject, hsingle, ih⟩)

/-- **The strict objects form a forest.** -/
theorem forest_of_strict {marked : Finset α} (h : ∀ x, x ∈ marked ↔ g.Strict x) : g.Forest marked where
  objects x hx := ((h x).1 hx).object
  closed x hx y hy := (h y).2 (((h x).1 hx).of_reach hy)
  acyclic x hx := ((h x).1 hx).acyclic
  single x hx _ _ hp hq := ((h x).1 hx).referrer_unique hp hq
  inside x hx y hy z hz := by
    obtain ⟨p, hxp, hpy⟩ := Relation.TransGen.tail'_iff.1 hy
    have hstrict : g.Strict y := (((h x).1 hx).of_reach hxp).referent hpy
    exact hstrict.referrer_unique hpy hz ▸ hxp

/-- Marks and sums of the strict objects are strict subtrees. -/
theorem Subtrees.of_strict {marked : Finset α} {stored : α → Option ℕ} (h : ∀ x, x ∈ marked ↔ g.Strict x)
    (hsums : ∀ x ∈ marked, stored x = some (∑ z ∈ g.below x, size z)) : g.Subtrees size marked stored :=
  ⟨isLeast_of_strict h, forest_of_strict h, hsums⟩

/-- **What a marking leaves behind.** -/
theorem Marking.Found.subtrees {m : Marking α} (h : m.Found g size) : g.Subtrees size m.marked m.sum :=
  .of_strict (fun x => ⟨h.ok.marks.strict x, h.complete x⟩) h.ok.sums

/-! ### Under other names -/

namespace Renaming

variable {β : Type*} [DecidableEq β] {h : RefGraph β} {f : α → β} {nodes : Finset α}

/-- **Strict under one name, strict under the other.** -/
theorem strict_iff (hf : Renaming g h f nodes) (hy : y ∈ nodes) : h.Strict (f y) ↔ g.Strict y := by
  constructor
  · generalize hname : f y = z
    intro hstrict
    induction hstrict generalizing y with
    | @mk z hobject hsingle _ ih =>
      subst hname
      obtain ⟨x, hx, hxy⟩ := Finset.mem_image.1 (hf.objects ▸ hobject)
      obtain rfl := hf.inj (hf.objects_subset hx) hy hxy
      refine ⟨hx, hf.card_inbound hy ▸ hsingle, fun w hw => ih (f w) ?_ (hf.succ_subset x hw) rfl⟩
      rw [hf.succ x hx]
      exact Finset.mem_image_of_mem f hw
  · intro hstrict
    induction hstrict with
    | @mk x hobject hsingle _ ih =>
      refine ⟨hf.objects ▸ Finset.mem_image_of_mem f hobject, (hf.card_inbound hy).symm ▸ hsingle, fun w hw => ?_⟩
      obtain ⟨v, hv, rfl⟩ := Finset.mem_image.1 (hf.succ x hobject ▸ hw)
      exact ih v hv (hf.succ_subset x hv)

/-- A path leads to the names of what it leads to. -/
theorem reach_iff (hf : Renaming g h f nodes) (hx : x ∈ nodes) {z : β} :
    h.Reach (f x) z ↔ ∃ y ∈ nodes, f y = z ∧ g.Reach x y := by
  constructor
  · intro hreach
    induction hreach with
    | refl => exact ⟨x, hx, rfl, .refl⟩
    | @tail w z _ hwz ih =>
      obtain ⟨y, hy, rfl, hxy⟩ := ih
      obtain ⟨v, hv, hvy⟩ := Finset.mem_image.1 (hf.objects ▸ mem_objects_of_succ hwz)
      obtain rfl := hf.inj (hf.objects_subset hv) hy hvy
      have hz : z ∈ h.succ (f v) := hwz
      rw [hf.succ v hv, Finset.mem_image] at hz
      obtain ⟨u, hu, rfl⟩ := hz
      exact ⟨u, hf.succ_subset v hu, rfl, hxy.tail hu⟩
  · rintro ⟨y, -, rfl, hreach⟩
    induction hreach with
    | refl => exact .refl
    | @tail v u _ hvu ih =>
      have hv := mem_objects_of_succ hvu
      exact ih.tail ((hf.mem_succ hv (hf.succ_subset v hvu)).2 hvu)

/-- **The sums below agree.** -/
theorem sum_below (hf : Renaming g h f nodes) {size' : β → ℕ} (hsize : ∀ x ∈ g.objects, size' (f x) = size x)
    (hx : x ∈ nodes) : ∑ z ∈ h.below (f x), size' z = ∑ y ∈ g.below x, size y := by
  have himage : h.below (f x) = (g.below x).image f := by
    ext z
    rw [mem_below, hf.reach_iff hx, hf.objects, Finset.mem_image, Finset.mem_image]
    constructor
    · rintro ⟨⟨v, hv, rfl⟩, y, hy, hyv, hreach⟩
      obtain rfl := hf.inj (hf.objects_subset hv) hy hyv.symm
      exact ⟨v, mem_below.2 ⟨hv, hreach⟩, rfl⟩
    · rintro ⟨y, hy, rfl⟩
      obtain ⟨hobject, hreach⟩ := mem_below.1 hy
      exact ⟨⟨y, hobject, rfl⟩, y, hf.objects_subset hobject, rfl, hreach⟩
  have hobject : ∀ y ∈ g.below x, y ∈ g.objects := fun y hy => (mem_below.1 hy).1
  rw [himage, Finset.sum_image fun y hy z hz => hf.inj (hf.objects_subset (hobject y hy))
    (hf.objects_subset (hobject z hz))]
  exact Finset.sum_congr rfl fun y hy => hsize y (hobject y hy)

/-- **The strict subtrees under other names.** -/
theorem subtrees (hf : Renaming g h f nodes) {size' : β → ℕ} (hsize : ∀ x ∈ g.objects, size' (f x) = size x)
    {marked : Finset α} (hmarked : ∀ x, x ∈ marked ↔ g.Strict x) {stored : β → Option ℕ}
    (hstored : ∀ x ∈ marked, stored (f x) = some (∑ z ∈ g.below x, size z)) :
    h.Subtrees size' (marked.image f) stored := by
  have hnode : ∀ {x}, x ∈ marked → x ∈ nodes := fun hx => hf.objects_subset ((hmarked _).1 hx).object
  refine .of_strict (fun z => ?_) fun z hz => ?_
  · rw [Finset.mem_image]
    constructor
    · rintro ⟨x, hx, rfl⟩
      exact (hf.strict_iff (hnode hx)).2 ((hmarked x).1 hx)
    · intro hz
      obtain ⟨x, hx, rfl⟩ := Finset.mem_image.1 (hf.objects ▸ hz.object)
      exact ⟨x, (hmarked x).2 ((hf.strict_iff (hf.objects_subset hx)).1 hz), rfl⟩
  · obtain ⟨x, hx, rfl⟩ := Finset.mem_image.1 hz
    rw [hstored x hx, hf.sum_below hsize (hnode hx)]

end Renaming

end RefGraph
