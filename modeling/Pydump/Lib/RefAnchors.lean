/-
# What keeps an element when another one is deleted

`RefGraph.DiesWith o` is the least set that holds `o` and every element which a
member refers to and only members refer to.  The other elements are `Anchored`:
followed against the references and around `o`, some chain that leads to them begins
at an element nothing refers to, or goes round in a cycle.

An element is dominated by `o` when the roots of the graph reach it, and only
through `o`.  No chain around `o` that leads to it begins at a root, so that a cycle
is all that can keep it (`DominatedBy.anchored_iff`).
-/

import Pydump.Lib.RefGraph

namespace RefGraph

open Relation (ReflTransGen TransGen)

variable {α : Type*} (g : RefGraph α)

/-- One reference, neither from `o` nor to it. -/
def RefersAround (o x y : α) : Prop := y ∈ g.succ x ∧ x ≠ o ∧ y ≠ o

/-- A path of references from `x` to `y` that does not come to `o`. -/
def Around (o x y : α) : Prop := x ≠ o ∧ ReflTransGen (g.RefersAround o) x y

/-- A cycle of references through `x` that does not come to `o`. -/
def Circles (o x : α) : Prop := TransGen (g.RefersAround o) x x

/-- A path around `o` leads to `y` from an element nothing refers to or from a cycle. -/
def Anchored (o y : α) : Prop := ∃ a, g.Around o a y ∧ ((∀ x, a ∉ g.succ x) ∨ g.Circles o a)

variable {g} {o x y z : α}

/-- Every element but `o` has a path around `o` to itself. -/
theorem Around.refl (h : x ≠ o) : g.Around o x x := ⟨h, .refl⟩

/-- Paths around `o` compose. -/
theorem Around.trans (h : g.Around o x y) (h' : g.Around o y z) : g.Around o x z := ⟨h.1, h.2.trans h'.2⟩

/-- A path around `o` does not end at `o`. -/
theorem Around.right_ne (h : g.Around o x y) : y ≠ o := by
  rcases h.2.cases_tail with rfl | ⟨w, -, hwy⟩
  · exact h.1
  · exact hwy.2.2

/-- A cycle around `o` does not come to `o`. -/
theorem Circles.ne (h : g.Circles o x) : x ≠ o := by
  obtain ⟨w, -, hwx⟩ := TransGen.tail'_iff.1 h
  exact hwx.2.2

/-- Along a path around `o` one is anchored with the other. -/
theorem Anchored.of_around (h : g.Anchored o x) (hxy : g.Around o x y) : g.Anchored o y := by
  obtain ⟨a, hax, ha⟩ := h
  exact ⟨a, hax.trans hxy, ha⟩

/-- Nothing anchors `o` itself. -/
theorem not_anchored_self : ¬g.Anchored o o := fun ⟨_, ha, _⟩ => ha.right_ne rfl

/-- An element of a cycle is anchored by it. -/
theorem Circles.anchored (h : g.Circles o x) : g.Anchored o x := ⟨x, .refl h.ne, .inr h⟩

/-- An anchored element is referred to by an anchored one, or by none. -/
theorem Anchored.referrer (h : g.Anchored o y) : (∀ x, y ∉ g.succ x) ∨ ∃ x, y ∈ g.succ x ∧ g.Anchored o x := by
  obtain ⟨a, hay, ha⟩ := h
  rcases hay.2.cases_tail with rfl | ⟨x, hax, hxy⟩
  · rcases ha with hnone | hcircle
    · exact .inl hnone
    · obtain ⟨x, hax, hxa⟩ := TransGen.tail'_iff.1 hcircle
      exact .inr ⟨x, hxa.1, hcircle.anchored.of_around ⟨hcircle.ne, hax⟩⟩
  · exact .inr ⟨x, hxy.1, a, ⟨hay.1, hax⟩, ha⟩

/-- What dies with `o` is not anchored. -/
theorem DiesWith.not_anchored (h : g.DiesWith o y) : ¬g.Anchored o y := by
  induction h with
  | root => exact not_anchored_self
  | @step x y _ hxy _ _ ih =>
    intro hy
    rcases hy.referrer with hnone | ⟨z, hz, hanchored⟩
    · exact hnone x hxy
    · exact ih z hz hanchored

open Classical in
/-- The elements above `y` when `o` is left out. -/
noncomputable def ancestors (g : RefGraph α) (o y : α) : Finset α :=
  {z ∈ g.objects | TransGen (g.RefersAround o) z y}

open Classical in
/-- The ancestors around `o` are the elements with a path around it. -/
theorem mem_ancestors [DecidableEq α] : z ∈ g.ancestors o y ↔ TransGen (g.RefersAround o) z y := by
  rw [ancestors, Finset.mem_filter, and_iff_right_of_imp]
  intro h
  obtain ⟨w, hzw, -⟩ := TransGen.head'_iff.1 h
  exact mem_objects_of_succ hzw.1

/-- **The dead are those that are not anchored.** -/
theorem diesWith_iff_not_anchored [DecidableEq α] : g.DiesWith o y ↔ ¬g.Anchored o y := by
  refine ⟨DiesWith.not_anchored, fun h => ?_⟩
  -- upwards, the elements above become fewer, since none is above itself
  induction hn : (g.ancestors o y).card using Nat.strong_induction_on generalizing y with
  | _ n ih =>
    by_cases hy : y = o
    · exact hy ▸ .root
    have hreferred : ∃ x, y ∈ g.succ x := by
      by_contra hnone
      exact h ⟨y, .refl hy, .inl (not_exists.1 hnone)⟩
    have hall : ∀ z, y ∈ g.succ z → g.DiesWith o z := by
      intro z hzy
      by_cases hz : z = o
      · exact hz ▸ .root
      have hpath : g.RefersAround o z y := ⟨hzy, hz, hy⟩
      have hfree : ¬g.Anchored o z := fun hz' => h (hz'.of_around ⟨hz, .single hpath⟩)
      refine ih _ ?_ hfree rfl
      rw [← hn]
      refine Finset.card_lt_card (Finset.ssubset_iff_of_subset ?_ |>.2 ⟨z, ?_, ?_⟩)
      · exact fun w hw => mem_ancestors.2 ((mem_ancestors.1 hw).tail hpath)
      · exact mem_ancestors.2 (.single hpath)
      · exact fun hw => hfree (show g.Circles o z from mem_ancestors.1 hw).anchored
    obtain ⟨x, hx⟩ := hreferred
    exact .step (hall x hx) hx hall

/-! ### Dominated elements -/

variable (g) in
/-- An object nothing refers to. -/
def Root (r : α) : Prop := r ∈ g.objects ∧ ∀ x, r ∉ g.succ x

variable (g) in
/-- Some root reaches `y`, and every path from a root to `y` comes to `o`. -/
def DominatedBy (o y : α) : Prop := (∃ r, g.Root r ∧ g.Reach r y) ∧ ∀ r, g.Root r → ¬g.Around o r y

/-- **Only a cycle keeps what `o` dominates.** -/
theorem DominatedBy.anchored_iff [DecidableEq α] (h : g.DominatedBy o y) :
    g.Anchored o y ↔ ∃ c, g.Around o c y ∧ g.Circles o c := by
  constructor
  · rintro ⟨a, hay, hnone | hcircle⟩
    · refine absurd hay (h.2 a ⟨?_, hnone⟩)
      rcases hay.2.cases_head with rfl | ⟨w, haw, -⟩
      · -- nothing refers to `y`, so that the root which reaches it is `y`
        obtain ⟨r, hr, hry⟩ := h.1
        rcases hry.cases_tail with rfl | ⟨w, -, hwy⟩
        · exact hr.1
        · exact absurd hwy (hnone w)
      · exact mem_objects_of_succ haw.1
    · exact ⟨a, hay, hcircle⟩
  · rintro ⟨c, hcy, hcircle⟩
    exact ⟨c, hcy, .inr hcircle⟩

/-! ### Sizes -/

section Retained

variable [DecidableEq α] (size : α → ℕ) (n : ℕ)

open Classical in
/-- **Another size** of an element that dies with `o` takes the place of the one it had. -/
theorem retained_update_of_diesWith (hx : x ∈ g.objects) (h : g.DiesWith o x) :
    g.retained (Function.update size x n) o + size x = g.retained size o + n := by
  have hmem : x ∈ g.objects.filter fun z => g.DiesWith o z := Finset.mem_filter.2 ⟨hx, h⟩
  have hold := Finset.add_sum_erase _ size hmem
  have hnew := Finset.add_sum_erase _ (Function.update size x n) hmem
  have hrest : ∑ z ∈ (g.objects.filter fun z => g.DiesWith o z).erase x, Function.update size x n z =
      ∑ z ∈ (g.objects.filter fun z => g.DiesWith o z).erase x, size z :=
    Finset.sum_congr rfl fun z hz => Function.update_of_ne (Finset.ne_of_mem_erase hz) n size
  rw [Function.update_self, hrest] at hnew
  rw [retained, retained]
  omega

open Classical in
/-- The size of any other element does not matter. -/
theorem retained_update_of_not_diesWith (h : ¬g.DiesWith o x) :
    g.retained (Function.update size x n) o = g.retained size o := by
  rw [retained, retained]
  refine Finset.sum_congr rfl fun z hz => Function.update_of_ne ?_ n size
  rintro rfl
  exact h (Finset.mem_filter.1 hz).2

end Retained

end RefGraph
