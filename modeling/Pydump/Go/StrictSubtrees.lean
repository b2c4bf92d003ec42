/-
# Both analyzers find the strict subtrees

What `_find_strict_subtrees` and `findStrictSubtrees` leave in their fields, on the
addresses of the heap: the Go arrays are read by the addresses of the objects
(`Calculator.rootAddresses`, `Calculator.retainedOf`).  Both stop with the least
set that the rule for strict objects allows, a forest, and with the sums of the
sizes below its members (`RefGraph.Subtrees`).
-/

import Pydump.Analyzer.RetainedSpec
import Pydump.Go.GraphRepresentation
import Pydump.Go.RetainedAgreement
import Pydump.Lib.StrictSubtrees

namespace Pydump
namespace Go

open ExceptLoop
open RefGraph (Marking)

variable {value : Heap} {graph : Graph} {rows : List (List ℕ)} {nodes : List ℕ}

/-! ### The arrays by address -/

/-- The addresses of the objects whose flag is set. -/
def Calculator.rootAddresses (c : Calculator) : Finset ℕ :=
  (((c.heap.objects.zip c.subtreeRoots).filter fun entry => entry.2).map fun entry => entry.1.address).toFinset

/-- What is stored for the object at `address`. -/
def Calculator.retainedOf (c : Calculator) (address : ℕ) : Option ℕ :=
  ((c.heap.objects.zip c.objectRetained).find? fun entry => entry.1.address = address).map Prod.snd

/-- The roots are the addresses of the flagged objects. -/
theorem mem_rootAddresses {c : Calculator} {address : ℕ} :
    address ∈ c.rootAddresses ↔ ∃ (i : ℕ) (object : Object), c.heap.objects[i]? = some object ∧
      c.subtreeRoots[i]? = some true ∧ object.address = address := by
  rw [Calculator.rootAddresses, List.mem_toFinset, List.mem_map]
  constructor
  · rintro ⟨⟨object, flag⟩, hentry, rfl⟩
    obtain ⟨hzip, hflag⟩ := List.mem_filter.1 hentry
    obtain rfl : flag = true := hflag
    obtain ⟨i, hi⟩ := List.mem_iff_getElem?.1 hzip
    obtain ⟨hobject, hroot⟩ := List.getElem?_zip_eq_some.1 hi
    exact ⟨i, object, hobject, hroot, rfl⟩
  · rintro ⟨i, object, hobject, hroot, rfl⟩
    have hzip : (c.heap.objects.zip c.subtreeRoots)[i]? = some (object, true) :=
      List.getElem?_zip_eq_some.2 ⟨hobject, hroot⟩
    exact ⟨(object, true), List.mem_filter.2 ⟨List.mem_of_getElem? hzip, rfl⟩, rfl⟩

/-- The size of an object by its address is that by its index. -/
theorem retainedOf_object {c : Calculator} (haddresses : (c.heap.objects.map Object.address).Nodup)
    (hlength : c.objectRetained.length = c.heap.objects.length) {i : ℕ} {object : Object}
    (hi : c.heap.objects[i]? = some object) : c.retainedOf object.address = c.objectRetained[i]? := by
  have hlt : i < c.objectRetained.length := by
    rw [hlength]
    exact (List.getElem?_eq_some_iff.1 hi).1
  have hget : c.objectRetained[i]? = some c.objectRetained[i] := List.getElem?_eq_getElem hlt
  have hkeys : ((c.heap.objects.zip c.objectRetained).map fun entry => entry.1.address) =
      c.heap.objects.map Object.address := by
    have hfst := List.map_fst_zip (Nat.le_of_eq hlength.symm)
    conv_rhs => rw [← hfst, List.map_map]
    rfl
  have hentry : (c.heap.objects.zip c.objectRetained)[i]? = some (object, c.objectRetained[i]) :=
    List.getElem?_zip_eq_some.2 ⟨hi, hget⟩
  have hfind := @find?_key _ (fun entry : Object × ℕ => entry.1.address) _ (by rw [hkeys]; exact haddresses) _
    (List.mem_of_getElem? hentry)
  rw [Calculator.retainedOf, hfind, hget]
  rfl

/-! ### `findStrictSubtrees` -/

/-- The calculator that `findStrictSubtrees` starts from. -/
def Calculator.new (value : Heap) (graph : Graph) : Calculator :=
  ⟨value, graph, List.replicate graph.objectCount false, List.replicate graph.objectCount 0, .empty⟩

/-- **`findStrictSubtrees` ends** with the least set, however many rounds more it might take. -/
theorem findStrictSubtrees_subtrees (orders : Orders) {buildOrders : Orders} (hwf : value.WellFormed)
    (hgraph : buildGraph buildOrders value = .ok graph) :
    ∃ c : Calculator, (∀ rounds ≥ subtreeRounds value.objects.length,
        (Calculator.new value graph).findStrictSubtrees orders rounds = .ok c) ∧
      value.graph.Subtrees value.size c.rootAddresses c.retainedOf := by
  obtain ⟨nodes, hnumbered, hlaid⟩ := laid_of_buildGraph hwf.indexable hgraph
  have hlength : (rowsOf graph.addressIndex value.objects).length = value.objects.length := length_rowsOf
  generalize hrows : rowsOf graph.addressIndex value.objects = rows at hlaid hlength
  have hgraphOf : GraphOf value graph rows nodes.length := ⟨hwf, hlaid, hlength⟩
  have hsized : Subtrees.Sized ⟨List.replicate rows.length false, List.replicate rows.length 0, ∅⟩ rows :=
    ⟨List.length_replicate, List.length_replicate⟩
  obtain ⟨st, hrun, hsized', hfound⟩ :=
    findStrictSubtrees_spec orders hgraphOf le_rfl hsized (marking_init _) rfl .empty
  have hnew : Calculator.new value graph =
      ⟨value, graph, List.replicate rows.length false, List.replicate rows.length 0, .empty⟩ := by
    rw [Calculator.new, hlaid.objectCount]
  rw [← hnew] at hrun
  refine ⟨⟨value, graph, st.subtreeRoots, st.objectRetained, .empty⟩, fun rounds hrounds => ?_, ?_⟩
  · rw [Calculator.findStrictSubtrees, bind_eq_ok] at hrun
    obtain ⟨leaves, hleaves, hrest⟩ := hrun
    rw [bind_eq_ok] at hrest
    obtain ⟨st', hgrow, hst'⟩ := hrest
    rw [Calculator.findStrictSubtrees, bind_ok hleaves, bind_ok (growSubtrees_mono (hlength ▸ hrounds) hgrow)]
    exact hst'
  · have hf := hrows ▸ hnumbered.renaming (hasGraph_graph hwf.addresses)
    have hobject : ∀ i ∈ (nodeGraph rows).objects, ∃ object, value.objects[i]? = some object := fun i hi =>
      hgraphOf.object_get (mem_nodeGraph_objects.1 hi)
    -- the arrays, read by address, are the marking under the names of the nodes
    have hroots : Calculator.rootAddresses ⟨value, graph, st.subtreeRoots, st.objectRetained, .empty⟩ =
        (flagged st.subtreeRoots).image (nameOf nodes) := by
      ext address
      rw [mem_rootAddresses, Finset.mem_image]
      constructor
      · rintro ⟨i, object, hi, hroot, rfl⟩
        exact ⟨i, mem_flagged.2 hroot, hnumbered.nameOf_object hi⟩
      · rintro ⟨i, hi, rfl⟩
        obtain ⟨object, hget⟩ := hobject i (hfound.ok.marks.strict i hi).object
        exact ⟨i, object, hget, mem_flagged.1 hi, (hnumbered.nameOf_object hget).symm⟩
    have hsize : ∀ i ∈ (nodeGraph rows).objects, value.size (nameOf nodes i) = value.nodeSize i := fun i hi => by
      obtain ⟨object, hget⟩ := hobject i hi
      rw [hnumbered.nameOf_object hget, nodeSize_eq hget, size_of_mem hwf.addresses (List.mem_of_getElem? hget)]
    rw [hroots]
    refine hf.subtrees hsize (fun i => ⟨hfound.ok.marks.strict i, hfound.complete i⟩) fun i hi => ?_
    obtain ⟨object, hget⟩ := hobject i (hfound.ok.marks.strict i hi).object
    have hroot : i ∈ flagged st.subtreeRoots := hi
    have hsum : st.objectRetained[i]? = some (∑ z ∈ (nodeGraph rows).below i, value.nodeSize z) := by
      rw [← hfound.ok.sums i hi]
      exact (if_pos hroot).symm
    rw [hnumbered.nameOf_object hget]
    exact (@retainedOf_object ⟨value, graph, st.subtreeRoots, st.objectRetained, .empty⟩ hwf.addresses
      (hsized'.objectRetained.trans hlength) i object hget).trans hsum

/-! ### Both -/

/-- **The strict subtrees are a least fixpoint.**  On every Python heap, and on every Go heap such as
its reader returns (`wellFormed_of_load`), whatever orders the two languages choose for their sets
and maps, the search ends and leaves the least set that holds an object when at most one reference
leads to it and all it refers to are in the set.  The set is a forest that is entered at its roots
only, and the value stored for a member is the sum of the sizes of all objects it leads to. -/
theorem strict_subtrees_least (heap : Analyzer.Heap) (indexOrders orders : Analyzer.Orders) (hwf : value.WellFormed)
    (buildOrders goOrders : Orders) (hgraph : buildGraph buildOrders value = .ok graph) :
    (∃ st : Analyzer.Subtrees, (∀ rounds ≥ Analyzer.subtreeRounds heap,
        Analyzer.findStrictSubtrees orders rounds heap (Analyzer.inboundReferences indexOrders heap) = .ok st) ∧
      heap.graph.Subtrees heap.size st.subtreeRoots st.objectRetained.find?) ∧
    ∃ c : Calculator, (∀ rounds ≥ subtreeRounds value.objects.length,
        (Calculator.new value graph).findStrictSubtrees goOrders rounds = .ok c) ∧
      value.graph.Subtrees value.size c.rootAddresses c.retainedOf :=
  ⟨Analyzer.findStrictSubtrees_subtrees orders (Analyzer.indexOf_inboundReferences indexOrders),
    findStrictSubtrees_subtrees goOrders hwf hgraph⟩

/-- The strict subtrees of the cyclic heap, in both languages. -/
theorem strict_subtrees_least_cyclic :
    ∃ graph, buildGraph .ascending cyclicHeap = .ok graph ∧
      (∃ st : Analyzer.Subtrees, (∀ rounds ≥ Analyzer.subtreeRounds Analyzer.cyclicHeap,
          Analyzer.findStrictSubtrees .ascending rounds Analyzer.cyclicHeap
            (Analyzer.inboundReferences .ascending Analyzer.cyclicHeap) = .ok st) ∧
        Analyzer.cyclicHeap.graph.Subtrees Analyzer.cyclicHeap.size st.subtreeRoots st.objectRetained.find?) ∧
      ∃ c : Calculator, (∀ rounds ≥ subtreeRounds 3,
          (Calculator.new cyclicHeap graph).findStrictSubtrees .ascending rounds = .ok c) ∧
        cyclicHeap.graph.Subtrees cyclicHeap.size c.rootAddresses c.retainedOf := by
  have hwf := cyclicHeap_same.wellFormed cyclicHeap_bounded
  have hfits := cyclicHeap_same.fitsIndex Analyzer.cyclicHeap_localsKnown (by decide)
  obtain ⟨graph, -, hgraph, -⟩ := buildGraph_ok .ascending hwf.indexable hfits
  exact ⟨graph, hgraph, strict_subtrees_least Analyzer.cyclicHeap .ascending .ascending hwf .ascending .ascending
    hgraph⟩

end Go
end Pydump
