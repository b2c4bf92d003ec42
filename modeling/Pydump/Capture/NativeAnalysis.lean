/-
# What the analyzers find of a process

The whole way from a process to its sizes: the native Agent, the Collector, the artifact, a
reader and a calculation, with either analyzer.  `Process.live` is the process as a reference
graph, of the objects that can be found from its roots; `native_retained` says that both
analyzers find the size that each of them keeps alive there.
-/

import Pydump.Capture.NativeCapture
import Pydump.Go.ReaderAgreement
import Pydump.Go.RetainedAgreement

namespace Pydump
namespace Capture

open Agent (Progress Transport)

namespace Process

variable (process : Process)

/-- The objects that can be found. -/
noncomputable def alive : Finset ℕ := process.memory.graph.reached process.starts

/-- What an object refers to: what `tp_traverse` visits and what it contains. -/
def refersTo (a : ℕ) : Finset ℕ :=
  (process.memory.graph.facts a).referents ∪ (process.memory.graph.facts a).content.addresses.toFinset

/-- **The process as a reference graph.** -/
noncomputable def live : RefGraph ℕ where
  objects := process.alive
  succ a := if a ∈ process.alive then process.refersTo a else ∅
  succ_eq_empty _ ha := if_neg ha

/-- The size of an object without those it refers to. -/
def shallowSize (a : ℕ) : ℕ := (process.memory.objectAt a).size

/-- Apart from null pointers the objects refer to objects. -/
theorem succ_live_subset {a : ℕ} (ha : a ∈ process.alive) : process.live.succ a ⊆ insert 0 process.alive := by
  have hstarts := process.mem_nodes_of_starts
  rw [process.starts_opening] at hstarts
  intro b hb
  by_cases hzero : b = 0
  · exact Finset.mem_insert.2 (.inl hzero)
  · have hrefers : b ∈ process.refersTo a := by
      have hsucc : process.live.succ a = process.refersTo a := if_pos ha
      rwa [hsucc] at hb
    have hmentions : (process.memory.graph.facts a).Mentions b := by
      rcases Finset.mem_union.1 hrefers with h | h
      · exact .inl h
      · exact .inr (.inl (List.mem_toFinset.1 h))
    obtain ⟨root, hroot, hpath⟩ := (ObjectGraph.mem_reached hstarts).1 ha
    refine Finset.mem_insert.2 (.inr ((ObjectGraph.mem_reached hstarts).2 ⟨root, hroot, hpath.tail ?_⟩))
    exact ⟨hmentions, hzero⟩

end Process

section

variable {process : Process} {transport : Transport} {orders : OrderChoice ℕ} {collector : Collector} {now : String}
  {session waiting : Agent.Session} {options : List UInt8} {batches : List (List ℕ)} {file : List UInt8}
  {final : Agent.Session}
  (h : process.Captures transport orders collector now session waiting options batches file final)

include h

/-- The live objects are those that were sent. -/
theorem Process.Captures.mem_alive {a : ℕ} : a ∈ process.alive ↔ a ∈ batches.flatten := by
  have hstarts := process.mem_nodes_of_starts
  rw [process.starts_opening] at hstarts
  rw [h.reached a]
  exact ObjectGraph.mem_reached hstarts

/-- **The file is the process.**  It has the live objects in the order in which they were
asked for, each with its size and with what it refers to. -/
theorem Process.Captures.heap_eq {heap : Analyzer.Heap} (hread : Analyzer.readHeap file = .ok heap) :
    heap.objects.keys = batches.flatten ∧ heap.graph.objects = process.live.objects ∧
      heap.graph.succ = process.live.succ ∧ ∀ a ∈ process.live.objects, heap.size a = process.shallowSize a := by
  obtain ⟨heap', hread', hkeys, hobjects⟩ := h.decodes
  cases hread.symm.trans hread'
  have haddresses : (process.objects batches.flatten).map HeapObject.address = batches.flatten := by
    rw [Process.objects, List.map_map]
    refine (List.map_congr_left fun a ha => ?_).trans (List.map_id _)
    exact process.memory.address_eq a (ObjectGraph.mem_nodes_of_reached
      (by rw [← process.starts_opening]; exact process.mem_nodes_of_starts) ((h.reached a).1 ha))
  rw [haddresses] at hkeys
  have hfound : ∀ a ∈ batches.flatten, ∃ o, heap.objects.find? a = some o ∧
      SameObject (objectOf (process.memory.objectAt a)) o := by
    intro a ha
    obtain ⟨o, hfind, hsame⟩ := hobjects _ (List.mem_map_of_mem ha)
    have haddress : (objectOf (process.memory.objectAt a)).address = a :=
      process.memory.address_eq a (ObjectGraph.mem_nodes_of_reached
        (by rw [← process.starts_opening]; exact process.mem_nodes_of_starts) ((h.reached a).1 ha))
    rw [haddress] at hfind
    exact ⟨o, hfind, hsame⟩
  refine ⟨hkeys, ?_, ?_, fun a ha => ?_⟩
  · ext a
    rw [Analyzer.mem_graph_objects, hkeys]
    exact h.mem_alive.symm
  · funext a
    show heap.referents a = if a ∈ process.alive then process.refersTo a else ∅
    by_cases ha : a ∈ process.alive
    · obtain ⟨o, hfind, hsame⟩ := hfound a (h.mem_alive.1 ha)
      rw [if_pos ha, Analyzer.Heap.referents, hfind]
      dsimp only
      rw [hsame.referents, ← toFinset_addresses, content_objectOf]
      rfl
    · rw [if_neg ha]
      refine heap.graph.succ_eq_empty a ?_
      rwa [Analyzer.mem_graph_objects, hkeys, ← h.mem_alive]
  · obtain ⟨o, hfind, hsame⟩ := hfound a (h.mem_alive.1 ha)
    rw [Analyzer.size_of_find? hfind]
    exact Int.natCast_inj.1 hsame.size

/-- What an object keeps alive is the same in the file and in the process. -/
theorem Process.Captures.retained_eq {heap : Analyzer.Heap} (hread : Analyzer.readHeap file = .ok heap) :
    heap.graph.retained heap.size = process.live.retained process.shallowSize := by
  classical
  obtain ⟨-, hobjects, hsucc, hsizes⟩ := h.heap_eq hread
  rw [RefGraph.ext hobjects hsucc]
  funext a
  exact Finset.sum_congr rfl fun x hx => hsizes x (Finset.mem_filter.1 hx).1

/-- The addresses of the file can be numbered with 32 bits. -/
theorem Process.Captures.card_nodes_le {heap : Analyzer.Heap} (hread : Analyzer.readHeap file = .ok heap) :
    heap.nodes.card ≤ 2 ^ 32 := by
  obtain ⟨hkeys, hobjects, hsucc, -⟩ := h.heap_eq hread
  have hgraph := RefGraph.ext hobjects hsucc
  have hsubset : heap.nodes ⊆ insert 0 process.alive := by
    rw [Analyzer.Heap.nodes, hgraph]
    refine Finset.union_subset (Finset.subset_insert 0 process.alive) (Finset.biUnion_subset.2 fun a ha => ?_)
    exact process.succ_live_subset ha
  have hcount := (Go.bounded_of_readHeap hread).count
  have hcard : process.alive.card ≤ heap.objects.keys.length := by
    rw [show process.alive = heap.objects.keys.toFinset from hobjects.symm]
    exact List.toFinset_card_le _
  have hnodes := (Finset.card_le_card hsubset).trans (Finset.card_insert_le 0 process.alive)
  omega

/-- **Both analyzers find what the objects of the process keep alive.**  Either reader accepts
the file of a capture, and either calculation returns for each object that can be found the
sizes of what dies with it among the live objects of the process, whatever orders the
runtimes choose. -/
theorem native_retained : ∃ heap other, Analyzer.readHeap file = .ok heap ∧ Go.load file = .ok other ∧
    ∀ (calculatorOrders : Analyzer.Orders) (goOrders : Go.Orders) (rounds goRounds : ℕ), heap.rounds ≤ rounds →
      other.rounds ≤ goRounds → ∃ result goResult,
        Analyzer.calculateRetained calculatorOrders rounds heap = .ok result ∧
          Go.calculateRetainedHeap goOrders goRounds other = .ok goResult ∧
          (∀ a, result.objects.find? a =
            if a ∈ batches.flatten then some (process.live.retained process.shallowSize a) else none) ∧
          goResult.objects = batches.flatten.map (process.live.retained process.shallowSize) := by
  obtain ⟨heap, hread, -⟩ := h.decodes
  obtain ⟨hiff, hlike⟩ := @Go.readers_like Go.BothContainers file fun _ _ _ known _ => Go.agreeOnContent_both known
  obtain ⟨other, hload⟩ := hiff.1 ⟨heap, hread⟩
  have hsame := hlike heap other hread hload
  obtain ⟨hkeys, hobjects, -, -⟩ := h.heap_eq hread
  have hlocals : heap.LocalsKnown := by
    intro thread ht
    rw [h.threadless heap hread] at ht
    exact absurd ht List.not_mem_nil
  refine ⟨heap, other, hread, hload, fun calculatorOrders goOrders rounds goRounds hrounds hgoRounds => ?_⟩
  obtain ⟨result, hrun, hfound, -⟩ := Analyzer.calculateRetained_ok calculatorOrders hlocals hrounds
  obtain ⟨goResult, hgoRun, hgoFound, -⟩ := Go.calculateRetainedHeap_ok hsame (Go.bounded_of_readHeap hread)
    (hsame.fitsIndex hlocals (h.card_nodes_le hread)) goOrders hgoRounds
  rw [h.retained_eq hread] at hfound hgoFound
  refine ⟨result, goResult, hrun, hgoRun, fun a => ?_, by rw [hgoFound, hkeys]⟩
  rw [hfound a]
  simp only [Analyzer.mem_graph_objects, hkeys]

end

/-- The capture of the sample list is read by both readers. -/
theorem native_retained_of_list : ∃ waiting options batches file final,
    sampleProcess.Captures byteByByte OrderChoice.ascending sampleCollector "" freshSession waiting options batches file
      final ∧ ∃ heap other, Analyzer.readHeap file = .ok heap ∧ Go.load file = .ok other := by
  obtain ⟨waiting, hhello, hwaiting, hready⟩ := sampleProcess.exists_waiting byteByByte idle_freshSession
  obtain ⟨options, batches, file, final, hcaptures⟩ := @Process.exists_captures sampleProcess byteByByte freshSession
    waiting idle_freshSession hhello hwaiting hready sampleCollector (by rfl) (by decide) (by decide)
    OrderChoice.ascending ⟨by decide, by decide⟩ "" fits_sampleProcess
  obtain ⟨heap, other, hread, hload, -⟩ := native_retained hcaptures
  exact ⟨waiting, options, batches, file, final, hcaptures, heap, other, hread, hload⟩

end Capture
end Pydump
