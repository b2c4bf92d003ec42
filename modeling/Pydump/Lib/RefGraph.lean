/-
# Reference graphs, strict subtrees and what an element keeps alive

A finite set of objects with the elements each refers to; an element that is no
object refers to nothing.  `DiesWith o` is the set that goes when `o` is deleted:
`o`, and every element that something in the set refers to and nothing outside
it does.

A strict subtree consists of objects with at most one reference to each, all
the way down.  What lies below such an object dies with it and can be counted
once and for all, so a computation may stop at marked strict objects and add the
sum of what is below them: `sum_cut`.
-/

import Mathlib.Algebra.BigOperators.Group.Finset.Piecewise
import Mathlib.Algebra.Order.BigOperators.Group.Finset
import Mathlib.Logic.Relation
import Pydump.Lib.RefCount

open Relation (ReflTransGen TransGen)

/-- Finitely many objects and what they refer to. -/
structure RefGraph (α : Type*) where
  objects : Finset α
  succ : α → Finset α
  /-- Only objects refer to something. -/
  succ_eq_empty : ∀ x ∉ objects, succ x = ∅

namespace RefGraph

variable {α : Type*} [DecidableEq α] (g : RefGraph α)

omit [DecidableEq α] in
/-- A graph is its objects and what they refer to. -/
protected theorem ext {g g' : RefGraph α} (hobjects : g.objects = g'.objects) (hsucc : g.succ = g'.succ) : g = g' := by
  cases g
  cases g'
  cases hobjects
  cases hsucc
  rfl

/-- The objects that refer to `y`. -/
def inbound (y : α) : Finset α := {x ∈ g.objects | y ∈ g.succ x}

variable {g} {x y z o : α}

/-- Only objects refer to anything. -/
theorem mem_objects_of_succ (h : y ∈ g.succ x) : x ∈ g.objects := by
  by_contra hx
  rw [g.succ_eq_empty x hx] at h
  exact absurd h (Finset.notMem_empty y)

/-- `inbound` are the elements that refer to `y`. -/
theorem mem_inbound : x ∈ g.inbound y ↔ y ∈ g.succ x := by
  rw [inbound, Finset.mem_filter]
  exact ⟨And.right, fun h => ⟨mem_objects_of_succ h, h⟩⟩

variable (g)

/-- One reference. -/
def Refers (x y : α) : Prop := y ∈ g.succ x

/-- A path of references. -/
abbrev Reach : α → α → Prop := ReflTransGen g.Refers

/-- What dies when `o` is deleted: the least set that holds `o` and every element
which a member refers to and only members refer to. -/
inductive DiesWith (o : α) : α → Prop
  | root : DiesWith o o
  | step {x y : α} : DiesWith o x → y ∈ g.succ x → (∀ z, y ∈ g.succ z → DiesWith o z) → DiesWith o y

open Classical in
/-- The sizes of the objects that die with `o`, summed. -/
noncomputable def retained (size : α → ℕ) (o : α) : ℕ := ∑ x ∈ g.objects with g.DiesWith o x, size x

/-- How many dead referrers it takes when `o` is deleted. -/
def need (o y : α) : ℤ := if y = o then 0 else (g.inbound y).card

variable {g}

/-- The closure in terms of counts. -/
theorem dead_iff_diesWith : RefCount.Dead g.succ (g.need o) (· = o) y ↔ g.DiesWith o y := by
  constructor
  · intro h
    induction h with
    | @mk y T _ hrefer hfound henough ih =>
      by_cases hy : y = o
      · exact hy ▸ .root
      · obtain ⟨x, hx⟩ := hfound.resolve_left hy
        rw [need, if_neg hy] at henough
        have hsub : T ⊆ g.inbound y := fun x hx => mem_inbound.2 (hrefer x hx)
        have hall := Finset.eq_of_subset_of_card_le hsub (Int.ofNat_le.1 henough)
        exact .step (ih x hx) (hrefer x hx) fun z hz => ih z (hall ▸ mem_inbound.2 hz)
  · intro h
    induction h with
    | root => exact ⟨∅, by simp, by simp, .inl rfl, by simp [need]⟩
    | @step x y _ hxy _ _ ih =>
      refine ⟨g.inbound y, fun z hz => ih z (mem_inbound.1 hz), fun z hz => mem_inbound.1 hz,
        .inr ⟨x, mem_inbound.2 hxy⟩, ?_⟩
      rw [need]
      split_ifs
      · exact Int.natCast_nonneg _
      · exact le_rfl

/-! ### Strict subtrees -/

variable (g) in
/-- The objects of strict subtrees: at most one reference leads to each, and what
it refers to are such objects again. -/
inductive Strict : α → Prop
  | mk {x : α} (object : x ∈ g.objects) (single : (g.inbound x).card ≤ 1)
      (below : ∀ y ∈ g.succ x, Strict y) : Strict x

/-- What is strict is an object. -/
theorem Strict.object (h : g.Strict x) : x ∈ g.objects := by
  cases h
  assumption

/-- At most one reference leads to a strict object. -/
theorem Strict.single (h : g.Strict x) : (g.inbound x).card ≤ 1 := by
  cases h
  assumption

/-- The referents of a strict object are strict. -/
theorem Strict.referent (h : g.Strict x) (hy : y ∈ g.succ x) : g.Strict y := by
  cases h with
  | mk _ _ hbelow => exact hbelow y hy

/-- **No strict object lies on a cycle.** -/
theorem Strict.acyclic (h : g.Strict x) : ¬TransGen g.Refers x x := by
  induction h with
  | @mk x _ _ _ ih =>
    intro hcycle
    obtain ⟨y, hxy, hyx⟩ := Relation.TransGen.head'_iff.1 hcycle
    exact ih y hxy (Relation.TransGen.tail' hyx hxy)

/-- All that a strict object reaches is strict. -/
theorem Strict.of_reach (h : g.Strict x) (hy : g.Reach x y) : g.Strict y := by
  induction hy with
  | refl => exact h
  | tail _ hyz ih => exact ih.referent hyz

/-- One object at most refers to a strict one. -/
theorem Strict.referrer_unique (h : g.Strict y) {p q : α} (hp : y ∈ g.succ p) (hq : y ∈ g.succ q) : p = q :=
  Finset.card_le_one.1 h.single p (mem_inbound.2 hp) q (mem_inbound.2 hq)

/-- Two paths to one element, the second through strict objects: one of them
continues the other. -/
theorem Strict.reach_total (hx : g.Strict x) (hxz : g.Reach x z) (hyz : g.Reach y z) :
    g.Reach x y ∨ g.Reach y x := by
  induction hxz with
  | refl => exact .inr hyz
  | @tail p z hxp hpz ih =>
    rcases Relation.ReflTransGen.cases_tail hyz with rfl | ⟨q, hyq, hqz⟩
    · exact .inl (hxp.tail hpz)
    · have hz : g.Strict z := (hx.of_reach hxp).referent hpz
      exact ih (hz.referrer_unique hpz hqz ▸ hyq)

open Classical in
variable (g) in
/-- The objects that a path leads to. -/
noncomputable def below (x : α) : Finset α := {z ∈ g.objects | g.Reach x z}

omit [DecidableEq α] in
open Classical in
/-- Below `x` are the objects that it reaches. -/
theorem mem_below : z ∈ g.below x ↔ z ∈ g.objects ∧ g.Reach x z := Finset.mem_filter

/-- Below a strict object is all that it reaches. -/
theorem Strict.mem_below (h : g.Strict x) : z ∈ g.below x ↔ g.Reach x z := by
  rw [RefGraph.mem_below]
  exact ⟨And.right, fun hz => ⟨(h.of_reach hz).object, hz⟩⟩

/-- Below a strict object: the object, and what is below its referents. -/
theorem Strict.below_eq (h : g.Strict x) : g.below x = insert x ((g.succ x).biUnion g.below) := by
  ext z
  have hhead : g.Reach x z ↔ x = z ∨ ∃ y, y ∈ g.succ x ∧ g.Reach y z := Relation.ReflTransGen.cases_head_iff
  rw [h.mem_below, Finset.mem_insert, Finset.mem_biUnion, hhead]
  constructor
  · rintro (rfl | ⟨y, hxy, hyz⟩)
    · exact .inl rfl
    · exact .inr ⟨y, hxy, (h.referent hxy).mem_below.2 hyz⟩
  · rintro (rfl | ⟨y, hxy, hyz⟩)
    · exact .inl rfl
    · exact .inr ⟨y, hxy, (h.referent hxy).mem_below.1 hyz⟩

/-- Different objects with no path between them have nothing in common below. -/
theorem Strict.disjoint_below (hx : g.Strict x) (hy : g.Strict y) (hxy : ¬g.Reach x y) (hyx : ¬g.Reach y x) :
    Disjoint (g.below x) (g.below y) := by
  refine Finset.disjoint_left.2 fun z hzx hzy => ?_
  rcases hx.reach_total (hx.mem_below.1 hzx) (hy.mem_below.1 hzy) with h | h
  · exact hxy h
  · exact hyx h

/-- A strict object does not reach a sibling. -/
theorem Strict.not_reach_sibling {p : α} (hx : g.Strict x) (hp : x ∈ g.succ p) (hy : y ∈ g.succ p)
    (hne : x ≠ y) : ¬g.Reach x y := by
  intro hxy
  obtain ⟨q, hxq, hqy⟩ := (Relation.ReflTransGen.cases_tail hxy).resolve_left (Ne.symm hne)
  have hpq : p = q := (hx.of_reach hxy).referrer_unique hy hqy
  exact hx.acyclic (Relation.TransGen.tail' (hpq ▸ hxq) hp)

/-- **The sum below a strict object** is its own size and the sums below its
referents. -/
theorem Strict.sum_below (h : g.Strict x) (size : α → ℕ) :
    ∑ z ∈ g.below x, size z = size x + ∑ y ∈ g.succ x, ∑ z ∈ g.below y, size z := by
  have hself : x ∉ (g.succ x).biUnion g.below := by
    intro hm
    obtain ⟨y, hxy, hyx⟩ := Finset.mem_biUnion.1 hm
    exact h.acyclic (Relation.TransGen.head' hxy ((h.referent hxy).mem_below.1 hyx))
  have hdisjoint : ((g.succ x : Finset α) : Set α).PairwiseDisjoint g.below := by
    intro y hy z hz hne
    have hy' := h.referent (Finset.mem_coe.1 hy)
    have hz' := h.referent (Finset.mem_coe.1 hz)
    exact hy'.disjoint_below hz' (hy'.not_reach_sibling hy hz hne) (hz'.not_reach_sibling hz hy hne.symm)
  rw [h.below_eq, Finset.sum_insert hself, Finset.sum_biUnion hdisjoint]

/-! ### Stopping at marked objects -/

/-- A set of strict objects that holds, with an object, all it refers to. -/
structure Marks (g : RefGraph α) (marked : Finset α) : Prop where
  strict : ∀ x ∈ marked, g.Strict x
  closed : ∀ x ∈ marked, g.succ x ⊆ marked

/-- All that a marked object reaches is marked. -/
theorem Marks.of_reach {marked : Finset α} (h : g.Marks marked) (hx : x ∈ marked) (hz : g.Reach x z) :
    z ∈ marked := by
  induction hz with
  | refl => exact hx
  | tail _ hyz ih => exact h.closed _ ih hyz

variable (g) in
/-- References, without those of the marked objects. -/
def cut (marked : Finset α) (x : α) : Finset α := if x ∈ marked then ∅ else g.succ x

variable {marked : Finset α}

/-- Only references of unmarked objects are left. -/
theorem mem_cut : y ∈ g.cut marked x ↔ x ∉ marked ∧ y ∈ g.succ x := by
  rw [cut]
  split_ifs with h <;> simp [h]

/-- What dies when the references of marked objects are not followed. -/
abbrev DiesBefore (g : RefGraph α) (marked : Finset α) (o : α) : α → Prop :=
  RefCount.Dead (g.cut marked) (g.need o) (· = o)

/-- What dies before the marks dies in the whole graph. -/
theorem diesWith_of_diesBefore (h : g.DiesBefore marked o x) : g.DiesWith o x :=
  dead_iff_diesWith.1 (h.mono fun _ _ hy => (mem_cut.1 hy).2)

/-- Below a dead strict object everything dies. -/
theorem DiesWith.of_reach (hx : g.Strict x) (h : g.DiesWith o x) (hz : g.Reach x z) : g.DiesWith o z := by
  induction hz with
  | refl => exact h
  | tail hxy hyz ih =>
    exact .step ih hyz fun w hw => ((hx.of_reach hxy).referent hyz).referrer_unique hyz hw ▸ ih

open Classical in
/-- With a strict object dies what is below it. -/
theorem Strict.retained_eq (h : g.Strict x) (size : α → ℕ) : g.retained size x = ∑ z ∈ g.below x, size z := by
  refine Finset.sum_congr (Finset.filter_congr fun z _ => ⟨fun hz => ?_, fun hz => ?_⟩) fun _ _ => rfl
  · induction hz with
    | root => exact .refl
    | @step y z _ hyz _ ih _ => exact (ih (mem_objects_of_succ hyz)).tail hyz
  · exact DiesWith.root.of_reach h hz

/-- **What dies**, seen from the marked objects: what dies before them, and what
is below those of them that die. -/
theorem diesWith_iff (hm : g.Marks marked) :
    g.DiesWith o z ↔
      (g.DiesBefore marked o z ∧ z ∉ marked) ∨ ∃ x ∈ marked, g.DiesBefore marked o x ∧ g.Reach x z := by
  constructor
  · intro h
    induction h with
    | root =>
      have hroot : g.DiesBefore marked o o := ⟨∅, by simp, by simp, .inl rfl, by simp [need]⟩
      by_cases ho : o ∈ marked
      · exact .inr ⟨o, ho, hroot, .refl⟩
      · exact .inl ⟨hroot, ho⟩
    | @step x y _ hxy _ _ ih =>
      by_cases hmarked : ∃ z, y ∈ g.succ z ∧ ∃ w ∈ marked, g.DiesBefore marked o w ∧ g.Reach w z
      · obtain ⟨z, hzy, w, hw, hdies, hreach⟩ := hmarked
        exact .inr ⟨w, hw, hdies, hreach.tail hzy⟩
      · -- every referrer of `y` dies before the marked objects
        have hbefore : ∀ z, y ∈ g.succ z → g.DiesBefore marked o z ∧ z ∉ marked := fun z hz =>
          (ih z hz).resolve_right fun ⟨w, hw, hdies, hreach⟩ => hmarked ⟨z, hz, w, hw, hdies, hreach⟩
        have hy : g.DiesBefore marked o y := by
          refine ⟨g.inbound y, fun z hz => (hbefore z (mem_inbound.1 hz)).1,
            fun z hz => mem_cut.2 ⟨(hbefore z (mem_inbound.1 hz)).2, mem_inbound.1 hz⟩,
            .inr ⟨x, mem_inbound.2 hxy⟩, ?_⟩
          rw [need]
          split_ifs
          · exact Int.natCast_nonneg _
          · exact le_rfl
        by_cases hmem : y ∈ marked
        · exact .inr ⟨y, hmem, hy, .refl⟩
        · exact .inl ⟨hy, hmem⟩
  · rintro (⟨h, -⟩ | ⟨x, hx, h, hreach⟩)
    · exact diesWith_of_diesBefore h
    · exact (diesWith_of_diesBefore h).of_reach (hm.strict x hx) hreach

/-- Two marked objects that die first are not below one another. -/
theorem not_reach_of_diesBefore (hm : g.Marks marked) (hx : x ∈ marked) (hdx : g.DiesBefore marked o x)
    (hdy : g.DiesBefore marked o y) (hne : x ≠ y) : ¬g.Reach x y := by
  intro hxy
  obtain ⟨p, hxp, hpy⟩ := (Relation.ReflTransGen.cases_tail hxy).resolve_left (Ne.symm hne)
  have hp : p ∈ marked := hm.of_reach hx hxp
  have hy : g.Strict y := ((hm.strict x hx).of_reach hxp).referent hpy
  -- the only referrer of `y` is marked, so nothing but being the start lets `y` die first
  have hstart : ∀ w, g.DiesBefore marked o w → w ∈ marked → w = y → w = o := by
    rintro w ⟨T, hT, hrefer, hfound, -⟩ _ rfl
    rcases hfound with ho | ⟨q, hq⟩
    · exact ho
    · obtain ⟨hq', hqw⟩ := mem_cut.1 (hrefer q hq)
      exact absurd (hy.referrer_unique hpy hqw ▸ hp) hq'
  have hyo : y = o := hstart y hdy (hm.closed p hp hpy) rfl
  -- and from a marked start nothing else dies first
  have honly : ∀ w, g.DiesBefore marked o w → w = o := by
    intro w hw
    induction hw with
    | mk T _ hrefer hfound _ ih =>
      rcases hfound with ho | ⟨q, hq⟩
      · exact ho
      · have hqo := ih q hq
        have := (mem_cut.1 (hrefer q hq)).1
        rw [hqo, ← hyo] at this
        exact absurd (hm.closed p hp hpy) this
  exact hne ((honly x hdx).trans hyo.symm)

open Classical in
/-- **The sum over what dies**, computed on the elements that die before the marked
objects, a marked one counting for all that is below it. -/
theorem sum_cut (hm : g.Marks marked) {size : α → ℕ} (hsize : ∀ x ∉ g.objects, size x = 0) {deleted : Finset α}
    (hdeleted : ∀ x, x ∈ deleted ↔ g.DiesBefore marked o x) :
    ∑ x ∈ deleted, (if x ∈ marked then ∑ z ∈ g.below x, size z else size x) = g.retained size o := by
  have hdisjoint : ((deleted.filter (· ∈ marked) : Finset α) : Set α).PairwiseDisjoint g.below := by
    intro x hx y hy hne
    obtain ⟨hx, hxm⟩ := Finset.mem_filter.1 (Finset.mem_coe.1 hx)
    obtain ⟨hy, hym⟩ := Finset.mem_filter.1 (Finset.mem_coe.1 hy)
    have hdx := (hdeleted x).1 hx
    have hdy := (hdeleted y).1 hy
    exact (hm.strict x hxm).disjoint_below (hm.strict y hym)
      (not_reach_of_diesBefore hm hxm hdx hdy hne) (not_reach_of_diesBefore hm hym hdy hdx hne.symm)
  have hsplit : Disjoint ((deleted.filter (· ∈ marked)).biUnion g.below) (deleted.filter (· ∉ marked)) := by
    refine Finset.disjoint_left.2 fun z hz hz' => (Finset.mem_filter.1 hz').2 ?_
    obtain ⟨x, hx, hxz⟩ := Finset.mem_biUnion.1 hz
    have hxm := (Finset.mem_filter.1 hx).2
    exact hm.of_reach hxm ((hm.strict x hxm).mem_below.1 hxz)
  have hunion : ∀ z, z ∈ (deleted.filter (· ∈ marked)).biUnion g.below ∪ deleted.filter (· ∉ marked) ↔
      g.DiesWith o z := by
    intro z
    rw [diesWith_iff hm, Finset.mem_union, Finset.mem_biUnion, Finset.mem_filter, hdeleted, or_comm]
    refine or_congr_right ⟨fun ⟨x, hx, hz⟩ => ?_, fun ⟨x, hxm, hd, hreach⟩ => ?_⟩
    · obtain ⟨hx, hxm⟩ := Finset.mem_filter.1 hx
      exact ⟨x, hxm, (hdeleted x).1 hx, (hm.strict x hxm).mem_below.1 hz⟩
    · exact ⟨x, Finset.mem_filter.2 ⟨(hdeleted x).2 hd, hxm⟩, (hm.strict x hxm).mem_below.2 hreach⟩
  rw [Finset.sum_ite, ← Finset.sum_biUnion hdisjoint, ← Finset.sum_union hsplit, retained]
  refine (Finset.sum_subset (fun z hz => ?_) fun z hz hz' => ?_).symm
  · exact (hunion z).2 (Finset.mem_filter.1 hz).2
  · exact hsize z fun hobj => hz' (Finset.mem_filter.2 ⟨hobj, (hunion z).1 hz⟩)

/-! ### How far up a strict object lies -/

open Classical in
variable (g) in
/-- The strict objects above `x`. -/
noncomputable def above (x : α) : Finset α := {a ∈ g.objects | g.Strict a ∧ TransGen g.Refers a x}

open Classical in
variable (g) in
/-- How long an element can go on moving upwards: through the strict objects above
it, one step out of them, and one step for an element with several referrers. -/
noncomputable def climb (x : α) : ℕ :=
  if g.Strict x then (g.above x).card + 2 else if 1 < (g.inbound x).card then 1 else 0

open Classical in
/-- **Going to the referrer** of a strict object gets closer to the top. -/
theorem Strict.climb_lt {p : α} (h : g.Strict x) (hp : x ∈ g.succ p) : g.climb p < g.climb x := by
  rw [climb, climb, if_pos h]
  split_ifs with hps hmany
  · have hsub : g.above p ⊂ g.above x := by
      refine Finset.ssubset_iff_subset_ne.2 ⟨fun a ha => ?_, fun heq => ?_⟩
      · obtain ⟨hobj, hstrict, hreach⟩ := Finset.mem_filter.1 ha
        exact Finset.mem_filter.2 ⟨hobj, hstrict, hreach.tail hp⟩
      · have hpx : p ∈ g.above x := Finset.mem_filter.2 ⟨hps.object, hps, .single hp⟩
        rw [← heq] at hpx
        exact hps.acyclic (Finset.mem_filter.1 hpx).2.2
    have := Finset.card_lt_card hsub
    omega
  · omega
  · omega

open Classical in
/-- A climb is bounded by the number of objects. -/
theorem climb_le (x : α) : g.climb x ≤ g.objects.card + 2 := by
  rw [climb]
  split_ifs
  · exact Nat.add_le_add_right (Finset.card_le_card (Finset.filter_subset _ _)) 2
  · omega
  · omega

end RefGraph
