/-
# Retained sizes and reachability

`RetainedHeapCalculator` sets out to calculate the bytes made unreachable by deleting
an object.  What it calculates is the reference-count closure of the object, in both
analyzers.  The two differ in both directions.

The counts come from the objects of the heap alone.  An object that a frame holds is
counted all the same when only the deleted object refers to it: what keeps it is not
an anchor in the graph (`kept_never_counted_iff`).

An object on a reference cycle keeps its count, or one below such a cycle.  It is left
out although it cannot be reached any more (`dominated_included_iff`).
-/

import Pydump.Go.Contributions
import Pydump.Go.ThreadAgreement

namespace Pydump

/-! ### What the threads keep -/

namespace Analyzer

/-- A path of references from a frame local of some thread to `x` that does not come
to `o`; the local is not `o`. -/
def Heap.KeptByThread (heap : Heap) (o x : ℕ) : Prop :=
  ∃ thread ∈ heap.threads, ∃ address ∈ thread.locals, heap.graph.Around o address x

/-- A size is reported for `o`, and it depends on nothing that a thread keeps. -/
def KeptNeverCounted (orders : Orders) (rounds : ℕ) (heap : Heap) (o : ℕ) : Prop :=
  (∃ size, reportedSize orders rounds heap o = .ok (some size)) ∧
    ∀ x ∈ heap.objects.keys, heap.KeptByThread o x → ¬DependsOn orders rounds heap o x

/-- Every object in a frame, but for `o`, is anchored in the graph: a path around `o`
leads to it from an address that no object refers to, or from a cycle. -/
def Heap.LocalsAnchored (heap : Heap) (o : ℕ) : Prop :=
  ∀ thread ∈ heap.threads, ∀ address ∈ thread.locals, address ∈ heap.objects.keys → address ≠ o →
    heap.graph.Anchored o address

/-- **Anchored locals** anchor what the threads keep, and nothing else does. -/
theorem localsAnchored_iff {heap : Heap} {o : ℕ} :
    heap.LocalsAnchored o ↔ ∀ x ∈ heap.objects.keys, heap.KeptByThread o x → ¬heap.graph.DiesWith o x := by
  simp only [RefGraph.diesWith_iff_not_anchored, not_not]
  constructor
  · rintro h x hx ⟨thread, ht, address, ha, hpath⟩
    have haddress : address ∈ heap.objects.keys := by
      rcases hpath.2.cases_head with rfl | ⟨w, haw, -⟩
      · exact hx
      · exact mem_graph_objects.1 (RefGraph.mem_objects_of_succ haw.1)
    exact (h thread ht address ha haddress hpath.1).of_around hpath
  · exact fun h thread ht address ha haddress hne => h address haddress ⟨thread, ht, address, ha, .refl hne⟩

end Analyzer

namespace Go

/-- A size is reported for `o`, and it depends on nothing that a thread keeps; `heap`
tells what that is. -/
def KeptNeverCounted (orders : Orders) (rounds : ℕ) (heap : Analyzer.Heap) (value : Heap) (o : ℕ) : Prop :=
  (∃ size, reportedSize orders rounds value o = .ok (some size)) ∧
    ∀ x ∈ heap.objects.keys, heap.KeptByThread o x → ¬DependsOn orders rounds value o x

variable {heap : Analyzer.Heap} {other : Heap} {o : ℕ}

/-- **When nothing that a thread keeps is counted.**  On every heap whose frame locals
are objects or referents, for every object, both analyzers report a size that depends
on no object which a path around the deleted one connects to a frame, if and only if
the objects in the frames are anchored without it. -/
theorem kept_never_counted_iff (hlocals : heap.LocalsKnown) (ho : o ∈ heap.objects.keys) :
    (∀ (orders : Analyzer.Orders) (rounds : ℕ), heap.rounds ≤ rounds →
      (Analyzer.KeptNeverCounted orders rounds heap o ↔ heap.LocalsAnchored o)) ∧
    ∀ other : Heap, SameHeap heap other → Bounded heap → other.FitsIndex →
      ∀ (orders : Orders) (rounds : ℕ), other.rounds ≤ rounds →
        (KeptNeverCounted orders rounds heap other o ↔ heap.LocalsAnchored o) := by
  rw [Analyzer.localsAnchored_iff]
  constructor
  · intro orders rounds hrounds
    have hreported := Analyzer.reportedSize_eq hlocals orders hrounds ho
    refine (and_iff_right ⟨_, hreported⟩).trans (forall_congr' fun x => forall_congr' fun hx => ?_)
    rw [Analyzer.dependsOn_iff hlocals orders hrounds ho hx]
  · intro other hsame hbounded hfits orders rounds hrounds
    have hreported := reportedSize_eq hsame hbounded hfits orders hrounds ho
    refine (and_iff_right ⟨_, hreported⟩).trans (forall_congr' fun x => forall_congr' fun hx => ?_)
    rw [dependsOn_iff hsame hbounded hfits orders hrounds ho hx]

/-- The held heap, with both analyzers. -/
theorem kept_never_counted_held :
    (Analyzer.KeptNeverCounted .ascending heldHeap.rounds heldHeap 2 ↔ heldHeap.LocalsAnchored 2) ∧
      (KeptNeverCounted .ascending goHeldHeap.rounds heldHeap goHeldHeap 2 ↔ heldHeap.LocalsAnchored 2) := by
  obtain ⟨hpython, hgo⟩ := @kept_never_counted_iff heldHeap 2 heldHeap_localsKnown (by decide)
  exact ⟨hpython .ascending _ le_rfl, hgo goHeldHeap heldHeap_same heldHeap_bounded
    (heldHeap_same.fitsIndex heldHeap_localsKnown (by decide)) .ascending _ le_rfl⟩

/-- **A kept object is counted**: 2 is in a frame of the second thread, and its 20 bytes
are reported for 1. -/
theorem kept_counted : heldHeap.LocalsKnown ∧ heldHeap.KeptByThread 1 2 ∧
    Analyzer.reportedSize .ascending heldHeap.rounds heldHeap 1 = .ok (some 30) ∧
    reportedSize .ascending goHeldHeap.rounds goHeldHeap 1 = .ok (some 30) ∧
    ¬Analyzer.KeptNeverCounted .ascending heldHeap.rounds heldHeap 1 ∧
    ¬KeptNeverCounted .ascending goHeldHeap.rounds heldHeap goHeldHeap 1 := by
  have hkept : heldHeap.KeptByThread 1 2 :=
    ⟨heldThreads[1], List.mem_of_getElem? (rfl : heldHeap.threads[1]? = _), 2, by decide, .refl (by decide)⟩
  refine ⟨heldHeap_localsKnown, hkept, by decide +kernel, by decide +kernel, fun h => ?_, fun h => ?_⟩
  · exact h.2 2 (by decide) hkept ⟨21, by decide +kernel⟩
  · exact h.2 2 (by decide) hkept ⟨21, by decide, by decide +kernel⟩

end Go

/-! ### What dies with an object -/

namespace Analyzer

/-- A size is reported for `o`, and the size of every object that `o` dominates is a
part of it. -/
def DominatedIncluded (orders : Orders) (rounds : ℕ) (heap : Heap) (o : ℕ) : Prop :=
  (∃ size, reportedSize orders rounds heap o = .ok (some size)) ∧
    ∀ y ∈ heap.objects.keys, heap.graph.DominatedBy o y → Includes orders rounds heap o y

/-- No reference cycle around `o` leads, around `o`, to an object that `o` dominates. -/
def Heap.NoCycleBelow (heap : Heap) (o : ℕ) : Prop :=
  ∀ y ∈ heap.objects.keys, heap.graph.DominatedBy o y → ∀ c, heap.graph.Around o c y → ¬heap.graph.Circles o c

/-- No cycle is below if and only if all that is dominated dies. -/
theorem noCycleBelow_iff {heap : Heap} {o : ℕ} :
    heap.NoCycleBelow o ↔ ∀ y ∈ heap.objects.keys, heap.graph.DominatedBy o y → heap.graph.DiesWith o y := by
  refine forall_congr' fun y => imp_congr_right fun _ => imp_congr_right fun hdominated => ?_
  rw [RefGraph.diesWith_iff_not_anchored, hdominated.anchored_iff, not_exists]
  exact forall_congr' fun c => not_and.symm

end Analyzer

namespace Go

/-- A size is reported for `o`, and the size of every object that `o` dominates is a
part of it; `heap` tells which these are. -/
def DominatedIncluded (orders : Orders) (rounds : ℕ) (heap : Analyzer.Heap) (value : Heap) (o : ℕ) : Prop :=
  (∃ size, reportedSize orders rounds value o = .ok (some size)) ∧
    ∀ y ∈ heap.objects.keys, heap.graph.DominatedBy o y → Includes orders rounds value o y

variable {heap : Analyzer.Heap} {o : ℕ}

/-- **When nothing that dies with an object is missed.**  On every heap without threads,
for every object, both analyzers report a size with the sizes of all objects that the
roots reach only through it, if and only if none of these lies on a reference cycle
around it or below one. -/
theorem dominated_included_iff (hthreads : heap.threads = []) (ho : o ∈ heap.objects.keys) :
    (∀ (orders : Analyzer.Orders) (rounds : ℕ), heap.rounds ≤ rounds →
      (Analyzer.DominatedIncluded orders rounds heap o ↔ heap.NoCycleBelow o)) ∧
    ∀ other : Heap, SameHeap heap other → Bounded heap → other.FitsIndex →
      ∀ (orders : Orders) (rounds : ℕ), other.rounds ≤ rounds →
        (DominatedIncluded orders rounds heap other o ↔ heap.NoCycleBelow o) := by
  rw [Analyzer.noCycleBelow_iff]
  constructor
  · intro orders rounds hrounds
    have hlocals : heap.LocalsKnown := by
      intro thread ht
      rw [hthreads] at ht
      exact absurd ht List.not_mem_nil
    have hreported := Analyzer.reportedSize_eq hlocals orders hrounds ho
    refine (and_iff_right ⟨_, hreported⟩).trans (forall_congr' fun y => forall_congr' fun hy => ?_)
    rw [Analyzer.includes_iff hlocals orders hrounds ho hy]
  · intro other hsame hbounded hfits orders rounds hrounds
    have hreported := reportedSize_eq hsame hbounded hfits orders hrounds ho
    refine (and_iff_right ⟨_, hreported⟩).trans (forall_congr' fun y => forall_congr' fun hy => ?_)
    rw [includes_iff hsame hbounded hfits orders hrounds ho hy]

/-- A root above two objects that refer to each other. -/
def ringHeap : Analyzer.Heap where
  header := ⟨1, "", ⟨false⟩, .empty⟩
  threads := []
  objects := .ofPairs [(1, ⟨1, 0, 10, {2}, .none, none⟩), (2, ⟨2, 0, 20, {3}, .none, none⟩),
    (3, ⟨3, 0, 30, {2}, .none, none⟩)]
  types := .empty
  source := none

/-- `ringHeap` as the Go reader holds it. -/
def goRingHeap : Heap where
  header := ⟨1, "", false, .empty⟩
  threads := []
  objects :=
    [⟨1, 0, 10, [2], .none, [], [], -1⟩, ⟨2, 0, 20, [3], .none, [], [], -1⟩, ⟨3, 0, 30, [2], .none, [], [], -1⟩]
  objectByAddress := .ofPairs [(1, 0), (2, 1), (3, 2)]
  types := .empty
  source := none

/-- Both heaps of the ring are the same. -/
theorem ringHeap_same : SameHeap ringHeap goRingHeap where
  header := ⟨rfl, rfl, rfl, rfl⟩
  threads := .nil
  objects := .cons ⟨rfl, @sameObject_plain 1 10 [2] (by decide)⟩ (.cons ⟨rfl, @sameObject_plain 2 20 [3] (by decide)⟩
    (.cons ⟨rfl, @sameObject_plain 3 30 [2] (by decide)⟩ .nil))
  index := by decide
  types := rfl
  source := rfl

/-- The heap of the ring is bounded. -/
theorem ringHeap_bounded : Bounded ringHeap := bounded_of_objects (by decide) (by decide)

/-- The heap of the ring, with both analyzers. -/
theorem dominated_included_ring :
    (Analyzer.DominatedIncluded .ascending ringHeap.rounds ringHeap 2 ↔ ringHeap.NoCycleBelow 2) ∧
      (DominatedIncluded .ascending goRingHeap.rounds ringHeap goRingHeap 2 ↔ ringHeap.NoCycleBelow 2) := by
  obtain ⟨hpython, hgo⟩ := @dominated_included_iff ringHeap 2 rfl (by decide)
  exact ⟨hpython .ascending _ le_rfl, hgo goRingHeap ringHeap_same ringHeap_bounded
    (ringHeap_same.fitsIndex (fun _ h => absurd h List.not_mem_nil) (by decide)) .ascending _ le_rfl⟩

/-- The root of `ringHeap` dominates the ring. -/
theorem ringHeap_dominated : ringHeap.graph.DominatedBy 1 2 := by
  have hroot : ∀ r ∈ ringHeap.graph.objects, (∀ x ∈ ringHeap.graph.objects, r ∉ ringHeap.graph.succ x) → r = 1 := by
    decide
  have hone : ∀ x ∈ ringHeap.graph.objects, 1 ∉ ringHeap.graph.succ x := by decide
  refine ⟨⟨1, ⟨by decide, fun x hx => hone x (RefGraph.mem_objects_of_succ hx) hx⟩,
    .single (show 2 ∈ ringHeap.graph.succ 1 by decide)⟩, ?_⟩
  exact fun r hr hpath => hpath.1 (hroot r hr.1 fun x _ => hr.2 x)

/-- **A ring is missed**: the 50 bytes of 2 and 3 are not reported for the only object
that leads to them. -/
theorem dominated_missed : ringHeap.graph.DominatedBy 1 2 ∧
    Analyzer.reportedSize .ascending ringHeap.rounds ringHeap 1 = .ok (some 10) ∧
    reportedSize .ascending goRingHeap.rounds goRingHeap 1 = .ok (some 10) ∧
    ¬Analyzer.DominatedIncluded .ascending ringHeap.rounds ringHeap 1 ∧
    ¬DominatedIncluded .ascending goRingHeap.rounds ringHeap goRingHeap 1 := by
  have hpython : Analyzer.reportedSize .ascending ringHeap.rounds ringHeap 1 = .ok (some 10) := by decide +kernel
  have hgo : reportedSize .ascending goRingHeap.rounds goRingHeap 1 = .ok (some 10) := by decide +kernel
  refine ⟨ringHeap_dominated, hpython, hgo, fun h => ?_, fun h => ?_⟩
  · obtain ⟨retained, retained', hold, hnew, hdiff⟩ := h.2 2 (by decide) ringHeap_dominated 21
    have hsame : Analyzer.reportedSize .ascending ringHeap.rounds (ringHeap.resize 2 21) 1 = .ok (some 10) := by
      decide +kernel
    cases hold.symm.trans hpython
    cases hnew.symm.trans hsame
    exact absurd hdiff (by decide)
  · obtain ⟨object, hobject, haddress, hincludes⟩ := h.2 2 (by decide) ringHeap_dominated
    obtain ⟨retained, retained', hold, hnew, hdiff⟩ := hincludes 21 (by decide)
    have hsame : reportedSize .ascending goRingHeap.rounds (goRingHeap.resize 2 21) 1 = .ok (some 10) := by
      decide +kernel
    have hsize : ∀ object ∈ goRingHeap.objects, object.address = 2 → object.size = 20 := by decide
    rw [hsize object hobject haddress] at hdiff
    cases hold.symm.trans hgo
    cases hnew.symm.trans hsame
    exact absurd hdiff (by decide)

end Go
end Pydump
