/-
# `CalculateRetainedHeap` on the nodes of a graph

From the loops in `Pydump.Go.RetainedSpec` and `Pydump.Go.DeletionSpec`: what the
calculation returns for the objects and the threads, in terms of the numbers of
the nodes.
-/

import Pydump.Go.DeletionSpec

namespace Pydump
namespace Go

open ExceptLoop
open RowTable
open RefGraph (Marking)

variable {rows : List (List ℕ)} {n : ℕ} {c : Calculator} {useSubtrees : Bool}

/-- A node that refers to something or costs something is an object. -/
theorem ViewOk.object_of_matters (hview : ViewOk c useSubtrees rows n) {x : ℕ}
    (hx : (followed c useSubtrees rows x).Nonempty ∨ c.cost useSubtrees rows x ≠ 0) : x < rows.length := by
  rw [← mem_nodeGraph_objects]
  rcases hx with ⟨y, hy⟩ | hcost
  · exact RefGraph.mem_objects_of_succ (RefGraph.mem_cut.1 hy).2
  · unfold Calculator.cost at hcost
    split_ifs at hcost with hmarked
    · exact (hview.marks.strict x hmarked).object
    · by_contra hout
      exact hcost (hview.graphOf.nodeSize_eq_zero x hout)

/-- For an object `InboundCount` counts the referrers. -/
theorem ViewOk.countOf_object (hview : ViewOk c useSubtrees rows n) {x : ℕ} (hx : x < rows.length) :
    c.graph.countOf x = ((nodeGraph rows).inbound x).card :=
  hview.graphOf.laid.countOf_eq (Nat.lt_of_lt_of_le hx hview.graphOf.laid.ok.objects)
    (hview.graphOf.laid.ok.succ_small hx)

/-- What is followed are rows. -/
theorem followed_lt (hview : ViewOk c useSubtrees rows n) (x : ℕ) : followed c useSubtrees rows x ⊆ Finset.range n :=
  fun _ hy => Finset.mem_range.2 (hview.graphOf.laid.ok.succ_lt (RefGraph.mem_cut.1 hy).2)

/-! ### One object -/

/-- A run for the object `o`: `o` starts with the count zero. -/
def objectSeeds (graph : Graph) (o : ℕ) : Seeds := ⟨(· = o), fun y => if y = o then 0 else graph.countOf y⟩

/-- **What dies with an object** costs what the object retains. -/
theorem sum_cost_object (hview : ViewOk c useSubtrees rows n) {o : ℕ} (ho : o < rows.length) {deleted : Finset ℕ}
    (hdeleted : ∀ y, y ∈ deleted ↔
      RefCount.Dead (followed c useSubtrees rows) (objectSeeds c.graph o).need (objectSeeds c.graph o).start y) :
    ∑ x ∈ deleted, c.cost useSubtrees rows x = (nodeGraph rows).retained c.heap.nodeSize o := by
  have ho' : o < n := Nat.lt_of_lt_of_le ho hview.graphOf.laid.ok.objects
  have hstart : ∀ y, y = o → y ∈ Finset.range n := fun y hy => Finset.mem_range.2 (hy ▸ ho')
  obtain ⟨before, hbefore⟩ := @RefCount.exists_deadSet _ (followed c useSubtrees rows) ((nodeGraph rows).need o)
    (· = o) _ hstart (followed_lt hview)
  rw [← RefGraph.sum_cut hview.marks hview.graphOf.nodeSize_eq_zero hbefore]
  refine RefCount.sum_congr_need (fun x hx => ?_) hdeleted hbefore
  simp only [objectSeeds, RefGraph.need]
  refine if_congr Iff.rfl rfl ?_
  exact hview.countOf_object (hview.object_of_matters hx)

/-- The deletion of an object fits its counters. -/
theorem object_affordable (hview : ViewOk c useSubtrees rows n) {o : ℕ} (ho : o < rows.length) :
    (objectSeeds c.graph o).Affordable c useSubtrees rows := by
  intro s hs
  have ho' : o < n := Nat.lt_of_lt_of_le ho hview.graphOf.laid.ok.objects
  have hstart : ∀ y, (objectSeeds c.graph o).start y → y ∈ Finset.range n := fun y hy =>
    Finset.mem_range.2 (Eq.trans_lt hy ho')
  obtain ⟨all, hall⟩ := @RefCount.exists_deadSet _ (followed c useSubtrees rows) (objectSeeds c.graph o).need
    _ _ hstart (followed_lt hview)
  have hsum := sum_cost_object hview ho hall
  have hle : ∑ x ∈ s, c.cost useSubtrees rows x ≤ (nodeGraph rows).retained c.heap.nodeSize o := by
    rw [← hsum]
    exact Finset.sum_le_sum_of_subset fun x hx => (hall x).2 (hs x hx)
  exact lt_of_le_of_lt hle (hview.graphOf.sum_lt _)

/-- **One object**, with the strict subtrees the run looks at. -/
theorem retained_object (orders : Orders) (hview : ViewOk c useSubtrees rows n) {o : ℕ} (ho : o < rows.length)
    {rounds : ℕ} (hrounds : n < rounds) :
    c.retained orders rounds (.object o) (.ofPairs [(o, 0)]) [o] useSubtrees =
      .ok ((nodeGraph rows).retained c.heap.nodeSize o) := by
  have hfind : ∀ y, (OrderedDict.ofPairs [(o, (0 : ℤ))]).find? y = if o = y then some 0 else none := fun y => by
    rw [OrderedDict.find?_ofPairs]
    rfl
  obtain ⟨deleted, hdeleted, hrun⟩ := @retained_spec rows n c useSubtrees (objectSeeds c.graph o) orders hview
    (fun y hy => if_neg hy) (object_affordable hview ho) (.object o)
    (fun y hy => Eq.trans_lt hy (Nat.lt_of_lt_of_le ho hview.graphOf.laid.ok.objects)) (.ofPairs [(o, 0)]) [o]
    (fun y d hd => by
      rw [hfind] at hd
      split_ifs at hd with hy
      exact ⟨hy.symm, by simpa [objectSeeds, hy] using hd.symm⟩)
    (fun y hy hstart => by rw [hfind, if_pos (show o = y from hstart.symm)] at hy; cases hy)
    (fun y => by rw [← OrderedDict.find?_isSome, hfind, List.mem_singleton]; split_ifs <;> simp_all [eq_comm])
    rounds hrounds
  rw [hrun, sum_cost_object hview ho hdeleted]

/-! ### The loop over the objects -/

/-- A calculator whose subtrees have been found. -/
structure SubtreesReady (c : Calculator) (rows : List (List ℕ)) (n : ℕ) : Prop where
  graphOf : GraphOf c.heap c.graph rows n
  sized : Subtrees.Sized ⟨c.subtreeRoots, c.objectRetained, ∅⟩ rows
  found : Marking.Found (nodeGraph rows) c.heap.nodeSize (Subtrees.marking ⟨c.subtreeRoots, c.objectRetained, ∅⟩)

/-- The calculator after the first `done` objects. -/
structure ObjectsDone (c₀ : Calculator) (rows : List (List ℕ)) (done : ℕ) (c : Calculator) : Prop where
  rest : c = { c₀ with objectRetained := c.objectRetained }
  length : c.objectRetained.length = rows.length
  sizes : ∀ x < rows.length, x < done ∨ x ∈ flagged c₀.subtreeRoots →
    c.objectRetained[x]? = some ((nodeGraph rows).retained c₀.heap.nodeSize x)

/-- The sizes that are done so far leave the view as it is. -/
theorem ObjectsDone.viewOk {c₀ : Calculator} (hready : SubtreesReady c₀ rows n) {done : ℕ}
    (h : ObjectsDone c₀ rows done c) : ViewOk c true rows n := by
  have hmarks := hready.found.ok.marks
  have hc := h.rest
  have hroots : c.subtreeRoots = c₀.subtreeRoots := by rw [hc]
  have hheap : c.heap = c₀.heap := by rw [hc]
  have hgraph : c.graph = c₀.graph := by rw [hc]
  have hmarked : c.marked true = flagged c₀.subtreeRoots := by rw [Calculator.marked, if_pos rfl, hroots]
  refine ⟨?_, ?_, ?_, fun x hx => ?_⟩
  · rw [hheap, hgraph]
    exact hready.graphOf
  · rw [hroots]
    exact hready.sized.subtreeRoots
  · rw [hmarked]
    exact hmarks
  · rw [hmarked] at hx
    have hstrict := hmarks.strict x hx
    rw [h.sizes x (mem_nodeGraph_objects.1 hstrict.object) (.inr hx), hstrict.retained_eq, hheap]

/-- **The loop over the objects.** -/
theorem calculateObjects_ok (orders : Orders) {c₀ : Calculator} (hready : SubtreesReady c₀ rows n) {rounds : ℕ}
    (hrounds : n < rounds) :
    ∃ c, (List.range rows.length).foldlM (Calculator.calculateObject orders rounds) c₀ = .ok c ∧
      c = { c₀ with objectRetained := (List.range rows.length).map ((nodeGraph rows).retained c₀.heap.nodeSize) } := by
  let inv (seen : List ℕ) (c : Calculator) : Prop := ObjectsDone c₀ rows seen.length c
  have hstart : inv [] c₀ := by
    refine ⟨rfl, hready.sized.objectRetained, fun x _ hdone => ?_⟩
    have hx : x ∈ flagged c₀.subtreeRoots := hdone.resolve_left (Nat.not_lt_zero x)
    have hsum := hready.found.ok.sums x hx
    rw [(hready.found.ok.marks.strict x hx).retained_eq, ← hsum]
    exact (if_pos hx).symm
  have hround : ∀ seen x rest c, seen ++ x :: rest = List.range rows.length → inv seen c →
      ∃ c', Calculator.calculateObject orders rounds c x = .ok c' ∧ inv (seen ++ [x]) c' := by
    intro seen x rest c hsplit hc
    obtain ⟨rfl, hx⟩ : x = seen.length ∧ x < rows.length := by
      have hget : (List.range rows.length)[seen.length]? = some x := by
        rw [← hsplit, List.getElem?_append_right (Nat.le_refl _), Nat.sub_self, List.getElem?_cons_zero]
      obtain ⟨hlt, hx⟩ := List.getElem?_eq_some_iff.1 hget
      rw [List.getElem_range] at hx
      rw [List.length_range] at hlt
      exact ⟨hx.symm, hx ▸ hlt⟩
    have hheap : c.heap = c₀.heap := by rw [hc.rest]
    have hrun := retained_object orders (hc.viewOk hready) hx hrounds
    rw [hheap] at hrun
    have hset : setAt c.objectRetained seen.length ((nodeGraph rows).retained c₀.heap.nodeSize seen.length) =
        .ok (c.objectRetained.set seen.length ((nodeGraph rows).retained c₀.heap.nodeSize seen.length)) :=
      setAt_ok (hc.length ▸ hx) _
    refine ⟨_, (bind_ok hrun).trans (bind_ok hset), ⟨?_, ?_, fun y hy hdone => ?_⟩⟩
    · rw [hc.rest]
    · rw [List.length_set, hc.length]
    · rw [List.getElem?_set]
      by_cases hxy : seen.length = y
      · rw [if_pos hxy, if_pos (hc.length ▸ hx), hxy]
      · rw [if_neg hxy]
        refine hc.sizes y hy (hdone.imp_left fun hlt => ?_)
        rw [List.length_append, List.length_singleton] at hlt
        omega
  obtain ⟨c, hrun, hc⟩ := foldlM_ok inv hstart hround
  refine ⟨c, hrun, ?_⟩
  have hall : c.objectRetained = (List.range rows.length).map ((nodeGraph rows).retained c₀.heap.nodeSize) := by
    refine List.ext_getElem? fun x => ?_
    rcases Nat.lt_or_ge x rows.length with hx | hx
    · rw [hc.sizes x hx (.inl (by rw [List.length_range]; exact hx)), List.getElem?_map, List.getElem?_range hx]
      rfl
    · rw [List.getElem?_eq_none (by rw [hc.length]; exact hx),
        List.getElem?_eq_none (by rw [List.length_map, List.length_range]; exact hx)]
  rw [← hall]
  exact hc.rest

end Go
end Pydump
