/-
# Renaming the elements of a reference graph

Two reference graphs that differ in the names of their elements: `f` is injective
on the elements `nodes` of the first graph and takes its objects and references to
those of the second.  What dies in the one dies in the other, and the sums agree.
-/

import Pydump.Lib.RefGraph

namespace RefGraph

variable {α β : Type*} [DecidableEq α] [DecidableEq β]

/-- `f` renames the elements of `g`, all of them in `nodes`, to those of `h`. -/
structure Renaming (g : RefGraph α) (h : RefGraph β) (f : α → β) (nodes : Finset α) : Prop where
  inj : Set.InjOn f nodes
  objects_subset : g.objects ⊆ nodes
  succ_subset : ∀ x, g.succ x ⊆ nodes
  objects : h.objects = g.objects.image f
  succ : ∀ x ∈ g.objects, h.succ (f x) = (g.succ x).image f

namespace Renaming

variable {g : RefGraph α} {h : RefGraph β} {f : α → β} {nodes : Finset α} {x y : α}

omit [DecidableEq α] in
/-- References are renamed with the elements. -/
theorem mem_succ (hf : Renaming g h f nodes) (hx : x ∈ g.objects) (hy : y ∈ nodes) :
    f y ∈ h.succ (f x) ↔ y ∈ g.succ x := by
  rw [hf.succ x hx, Finset.mem_image]
  constructor
  · rintro ⟨z, hz, hzy⟩
    exact hf.inj (hf.succ_subset x hz) hy hzy ▸ hz
  · exact fun hy => ⟨y, hy, rfl⟩

omit [DecidableEq α] in
/-- What the second graph refers to has a name. -/
theorem succ_image_subset (hf : Renaming g h f nodes) (z : β) : h.succ z ⊆ nodes.image f := by
  intro w hw
  have hobject := mem_objects_of_succ hw
  rw [hf.objects, Finset.mem_image] at hobject
  obtain ⟨x, hx, rfl⟩ := hobject
  rw [hf.succ x hx] at hw
  exact Finset.image_subset_image (hf.succ_subset x) hw

omit [DecidableEq α] in
/-- A referrer of `f y` is the name of a referrer of `y`. -/
theorem exists_of_succ (hf : Renaming g h f nodes) (hy : y ∈ nodes) {z : β} (hz : f y ∈ h.succ z) :
    ∃ x, f x = z ∧ x ∈ g.objects ∧ y ∈ g.succ x := by
  have hobject := mem_objects_of_succ hz
  rw [hf.objects, Finset.mem_image] at hobject
  obtain ⟨x, hx, rfl⟩ := hobject
  exact ⟨x, rfl, hx, (hf.mem_succ hx hy).1 hz⟩

/-- **As many objects refer** to an element as to its name. -/
theorem card_inbound (hf : Renaming g h f nodes) (hy : y ∈ nodes) : (h.inbound (f y)).card = (g.inbound y).card := by
  have himage : h.inbound (f y) = (g.inbound y).image f := by
    ext z
    rw [mem_inbound, Finset.mem_image]
    constructor
    · intro hz
      obtain ⟨x, rfl, -, hyx⟩ := hf.exists_of_succ hy hz
      exact ⟨x, mem_inbound.2 hyx, rfl⟩
    · rintro ⟨x, hx, rfl⟩
      exact (hf.mem_succ (mem_objects_of_succ (mem_inbound.1 hx)) hy).2 (mem_inbound.1 hx)
  rw [himage, Finset.card_image_of_injOn]
  exact hf.inj.mono fun x hx => hf.objects_subset (mem_objects_of_succ (mem_inbound.1 hx))

variable {need : α → ℤ} {need' : β → ℤ} {start : α → Prop} {start' : β → Prop}

/-- **What dies, dies under its name.** -/
theorem dead_iff (hf : Renaming g h f nodes) (hneed : ∀ y ∈ nodes, need' (f y) = need y)
    (hstart : ∀ y ∈ nodes, start' (f y) ↔ start y) (hy : y ∈ nodes) :
    RefCount.Dead h.succ need' start' (f y) ↔ RefCount.Dead g.succ need start y := by
  constructor
  · generalize hname : f y = z
    intro hdead
    induction hdead generalizing y with
    | @mk z T _ hrefer hfound henough ih =>
      subst hname
      -- the dead referrers, under their names in the first graph
      have hback : ∀ w ∈ T, ∃ x, f x = w ∧ x ∈ g.objects ∧ y ∈ g.succ x :=
        fun w hw => hf.exists_of_succ hy (hrefer w hw)
      have himage : T = {x ∈ g.objects | f x ∈ T ∧ y ∈ g.succ x}.image f := by
        ext w
        rw [Finset.mem_image]
        constructor
        · intro hw
          obtain ⟨x, rfl, hx, hyx⟩ := hback w hw
          exact ⟨x, Finset.mem_filter.2 ⟨hx, hw, hyx⟩, rfl⟩
        · rintro ⟨x, hx, rfl⟩
          exact (Finset.mem_filter.1 hx).2.1
      refine ⟨{x ∈ g.objects | f x ∈ T ∧ y ∈ g.succ x}, fun x hx => ?_, fun x hx => ?_, ?_, ?_⟩
      · obtain ⟨hobject, hT, -⟩ := Finset.mem_filter.1 hx
        exact ih (f x) hT (hf.objects_subset hobject) rfl
      · exact (Finset.mem_filter.1 hx).2.2
      · refine hfound.imp (hstart y hy).1 fun ⟨w, hw⟩ => ?_
        obtain ⟨x, rfl, hx, hyx⟩ := hback w hw
        exact ⟨x, Finset.mem_filter.2 ⟨hx, hw, hyx⟩⟩
      · have hcard := congrArg Finset.card himage
        rw [Finset.card_image_of_injOn (hf.inj.mono fun x hx => hf.objects_subset (Finset.mem_filter.1 hx).1)] at hcard
        rw [← hcard, ← hneed y hy]
        exact henough
  · intro hdead
    induction hdead with
    | @mk y T _ hrefer hfound henough ih =>
      have hobjects : ∀ x ∈ T, x ∈ g.objects := fun x hx => mem_objects_of_succ (hrefer x hx)
      refine ⟨T.image f, fun w hw => ?_, fun w hw => ?_, ?_, ?_⟩
      · obtain ⟨x, hx, rfl⟩ := Finset.mem_image.1 hw
        exact ih x hx (hf.objects_subset (hobjects x hx))
      · obtain ⟨x, hx, rfl⟩ := Finset.mem_image.1 hw
        exact (hf.mem_succ (hobjects x hx) hy).2 (hrefer x hx)
      · exact hfound.imp (hstart y hy).2 fun hT => hT.image f
      · rw [Finset.card_image_of_injOn (hf.inj.mono fun x hx => hf.objects_subset (hobjects x hx)), hneed y hy]
        exact henough

/-- **The sums over what dies agree.** -/
theorem sum_dead (hf : Renaming g h f nodes) (hneed : ∀ y ∈ nodes, need' (f y) = need y)
    (hstart : ∀ y ∈ nodes, start' (f y) ↔ start y) (hnamed : ∀ z, start' z → z ∈ nodes.image f)
    (hknown : ∀ y, start y → y ∈ nodes) {cost : α → ℕ} {cost' : β → ℕ} (hcost : ∀ y ∈ nodes, cost' (f y) = cost y)
    {deleted : Finset α} (hdeleted : ∀ y, y ∈ deleted ↔ RefCount.Dead g.succ need start y)
    {deleted' : Finset β} (hdeleted' : ∀ z, z ∈ deleted' ↔ RefCount.Dead h.succ need' start' z) :
    ∑ z ∈ deleted', cost' z = ∑ y ∈ deleted, cost y := by
  have hsub : ∀ y ∈ deleted, y ∈ nodes := fun y hy => ((hdeleted y).1 hy).mem_nodes hknown hf.succ_subset
  have himage : deleted' = deleted.image f := by
    ext z
    rw [hdeleted', Finset.mem_image]
    constructor
    · intro hz
      obtain ⟨y, hy, rfl⟩ := Finset.mem_image.1 (hz.mem_nodes hnamed hf.succ_image_subset)
      exact ⟨y, (hdeleted y).2 ((hf.dead_iff hneed hstart hy).1 hz), rfl⟩
    · rintro ⟨y, hy, rfl⟩
      exact (hf.dead_iff hneed hstart (hsub y hy)).2 ((hdeleted y).1 hy)
  rw [himage, Finset.sum_image fun y hy z hz => hf.inj (hsub y hy) (hsub z hz)]
  exact Finset.sum_congr rfl fun y hy => hcost y (hsub y hy)

/-- What dies with an element, dies with its name under its own. -/
theorem diesWith_iff {o : α} (hf : Renaming g h f nodes) (ho : o ∈ nodes) (hy : y ∈ nodes) :
    h.DiesWith (f o) (f y) ↔ g.DiesWith o y := by
  rw [← dead_iff_diesWith, ← dead_iff_diesWith]
  have hname : ∀ z ∈ nodes, f z = f o ↔ z = o := fun z hz => ⟨fun heq => hf.inj hz ho heq, fun heq => heq ▸ rfl⟩
  refine hf.dead_iff (fun z hz => ?_) hname hy
  rw [need, need, hf.card_inbound hz]
  exact if_congr (hname z hz) rfl rfl

open Classical in
/-- **An element and its name keep the same alive.** -/
theorem retained_eq {o : α} (hf : Renaming g h f nodes) (ho : o ∈ nodes) {size : α → ℕ} {size' : β → ℕ}
    (hsize : ∀ x ∈ g.objects, size' (f x) = size x) : h.retained size' (f o) = g.retained size o := by
  have himage : {z ∈ h.objects | h.DiesWith (f o) z} = {x ∈ g.objects | g.DiesWith o x}.image f := by
    ext z
    rw [Finset.mem_filter, hf.objects, Finset.mem_image, Finset.mem_image]
    constructor
    · rintro ⟨⟨x, hx, rfl⟩, hz⟩
      exact ⟨x, Finset.mem_filter.2 ⟨hx, (hf.diesWith_iff ho (hf.objects_subset hx)).1 hz⟩, rfl⟩
    · rintro ⟨x, hx, rfl⟩
      obtain ⟨hx, hd⟩ := Finset.mem_filter.1 hx
      exact ⟨⟨x, hx, rfl⟩, (hf.diesWith_iff ho (hf.objects_subset hx)).2 hd⟩
  have hsub : ∀ x ∈ ({x ∈ g.objects | g.DiesWith o x} : Finset α), x ∈ nodes := fun x hx =>
    hf.objects_subset (Finset.mem_filter.1 hx).1
  rw [RefGraph.retained, RefGraph.retained, himage,
    Finset.sum_image fun y hy z hz => hf.inj (hsub y hy) (hsub z hz)]
  exact Finset.sum_congr rfl fun x hx => hsize x (Finset.mem_filter.1 hx).1

end Renaming

end RefGraph
