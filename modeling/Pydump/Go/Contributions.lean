/-
# Which objects count for a retained size in Go

The same question as for the Python calculator, asked of `CalculateRetainedHeap`: an
object is given another size of 32 bits, and the size reported for an object stays
or changes.
-/

import Pydump.Analyzer.Contributions
import Pydump.Go.RetainedAgreement

namespace Pydump
namespace Go

variable {heap : Analyzer.Heap} {other : Heap} {o x : ℕ}

/-! ### An object of another size -/

/-- The object with `size` for its size, where it is the one at `address`. -/
def Object.resize (object : Object) (address size : ℕ) : Object :=
  if object.address = address then { object with size } else object

/-- The heap with `size` for the size of the object at `address`. -/
def Heap.resize (value : Heap) (address size : ℕ) : Heap :=
  { value with objects := value.objects.map fun object => object.resize address size }

/-- A resized object has the same address. -/
theorem address_resize (object : Object) (address size : ℕ) :
    (object.resize address size).address = object.address := by
  rw [Object.resize]
  split_ifs <;> rfl

/-- Resized on both sides, an object stays the same object. -/
theorem LikeObject.resize {R : ContentRelation} {obj : Analyzer.HeapObject} {object : Object}
    (h : LikeObject R obj object) (address size : ℕ) :
    LikeObject R (if object.address = address then { obj with size } else obj) (object.resize address size) := by
  rw [Object.resize]
  split_ifs
  · exact ⟨h.address, h.typeAddress, rfl, h.referents, h.content, h.stringOffset⟩
  · exact h

/-- **Resized on both sides**, a heap stays the same heap. -/
theorem LikeHeap.resize {R : ContentRelation} (h : LikeHeap R heap other) (address size : ℕ) :
    LikeHeap R (heap.resize address size) (other.resize address size) where
  header := h.header
  threads := h.threads
  objects := by
    refine List.forall₂_map_left_iff.2 (List.forall₂_map_right_iff.2 (h.objects.imp fun entry object hentry => ?_))
    refine ⟨hentry.1.trans (address_resize object address size).symm, ?_⟩
    rw [hentry.1]
    exact hentry.2.resize address size
  index := by
    rw [Heap.resize, List.zipIdx_map, List.map_map]
    refine h.index.trans (List.map_congr_left fun entry _ => ?_)
    exact congrArg (·, entry.2) (address_resize entry.1 address size).symm
  types := h.types
  source := h.source

/-- A resized heap stays bounded. -/
theorem Bounded.resize (h : Bounded heap) (hx : x ∈ heap.objects.keys) {size : ℕ} (hsize : size < 2 ^ 32) :
    Bounded (heap.resize x size) where
  count := by
    rw [Analyzer.resize_keys]
    exact h.count
  sizes y := by
    rw [Analyzer.resize_size hx]
    rcases eq_or_ne y x with rfl | hy
    · rwa [Function.update_self]
    · rw [Function.update_of_ne hy]
      exact h.sizes y

/-- A resized heap takes as many rounds. -/
theorem resize_rounds (value : Heap) (address size : ℕ) : (value.resize address size).rounds = value.rounds := by
  rw [Heap.rounds, Heap.rounds, Heap.resize, List.length_map]

/-- The addresses to number are the same. -/
theorem LikeHeap.fitsIndex_resize {R : ContentRelation} (h : LikeHeap R heap other) (hfits : other.FitsIndex)
    (address size : ℕ) : (other.resize address size).FitsIndex := by
  obtain ⟨nodes, hcard, hnodes⟩ := hfits
  refine ⟨nodes, hcard, fun a ha => hnodes a ((h.isNode_iff a).2 ?_)⟩
  have hnode := ((h.resize address size).isNode_iff a).1 ha
  rwa [Analyzer.Heap.nodes, Analyzer.resize_graph] at hnode

/-! ### What is reported -/

/-- The retained size that `CalculateRetainedHeap` reports for the object at `o`. -/
def reportedSize (orders : Orders) (rounds : ℕ) (value : Heap) (o : ℕ) : Except AnalysisError (Option ℕ) :=
  (calculateRetainedHeap orders rounds value).map fun result =>
    (value.objectByAddress.find? o).bind fun i => result.objects[i]?

/-- The size reported for `o` depends on the size of the object at `x`. -/
def DependsOn (orders : Orders) (rounds : ℕ) (value : Heap) (o x : ℕ) : Prop :=
  ∃ size < 2 ^ 32, reportedSize orders rounds (value.resize x size) o ≠ reportedSize orders rounds value o

/-- The size of the object at `x` is a part of the size reported for `o`: with another
size of `x` the difference is reported. -/
def Includes (orders : Orders) (rounds : ℕ) (value : Heap) (o x : ℕ) : Prop :=
  ∃ object ∈ value.objects, object.address = x ∧
    ∀ size < 2 ^ 32, ∃ retained retained', reportedSize orders rounds value o = .ok (some retained) ∧
      reportedSize orders rounds (value.resize x size) o = .ok (some retained') ∧
      retained' + object.size = retained + size

/-- Some size of 32 bits is another one. -/
theorem exists_other_size (size : ℕ) : ∃ size' < 2 ^ 32, size' ≠ size := by
  rcases Nat.eq_zero_or_pos size with rfl | hpos
  · exact ⟨1, by decide, Nat.one_ne_zero⟩
  · exact ⟨0, by decide, Nat.ne_of_lt hpos⟩

section

variable (hsame : SameHeap heap other) (hbounded : Bounded heap) (hfits : other.FitsIndex) (orders : Orders)
  {rounds : ℕ} (hrounds : other.rounds ≤ rounds)

include hsame hbounded hfits hrounds

/-- The size that is reported of an object. -/
theorem reportedSize_eq (ho : o ∈ heap.objects.keys) :
    reportedSize orders rounds other o = .ok (some (heap.graph.retained heap.size o)) := by
  obtain ⟨result, hrun, hobjects, -⟩ := calculateRetainedHeap_ok hsame hbounded hfits orders hrounds
  rw [hsame.keys] at ho
  obtain ⟨object, hobject, rfl⟩ := List.mem_map.1 ho
  obtain ⟨i, hi⟩ := List.mem_iff_getElem?.1 hobject
  have hindex : other.objectByAddress.find? object.address = some i := by
    rw [OrderedDict.find?_eq_some, hsame.index]
    exact List.mem_map.2 ⟨(object, i), List.mk_mem_zipIdx_iff_getElem?.2 hi, rfl⟩
  have hsize : result.objects[i]? = some (heap.graph.retained heap.size object.address) := by
    rw [hobjects, hsame.keys, List.map_map, List.getElem?_map, hi]
    rfl
  rw [reportedSize, hrun]
  show Except.ok ((other.objectByAddress.find? object.address).bind fun i => result.objects[i]?) = _
  rw [hindex, Option.bind_some, hsize]

/-- The size that is reported of an object after another is resized. -/
theorem reportedSize_resize (ho : o ∈ heap.objects.keys) (hx : x ∈ heap.objects.keys) {size : ℕ}
    (hsize : size < 2 ^ 32) :
    reportedSize orders rounds (other.resize x size) o =
      .ok (some (heap.graph.retained (Function.update heap.size x size) o)) := by
  rw [reportedSize_eq (hsame.resize x size) (hbounded.resize hx hsize) (hsame.fitsIndex_resize hfits x size) orders
    (by rw [resize_rounds]; exact hrounds) (by rw [Analyzer.resize_keys]; exact ho), Analyzer.resize_graph,
    Analyzer.resize_size hx]

/-- **The size depends on the objects that die with the one asked for.** -/
theorem dependsOn_iff (ho : o ∈ heap.objects.keys) (hx : x ∈ heap.objects.keys) :
    DependsOn orders rounds other o x ↔ heap.graph.DiesWith o x := by
  have hold := reportedSize_eq hsame hbounded hfits orders hrounds ho
  constructor
  · rintro ⟨size, hsize, hne⟩
    by_contra hdies
    rw [reportedSize_resize hsame hbounded hfits orders hrounds ho hx hsize,
      RefGraph.retained_update_of_not_diesWith _ _ hdies] at hne
    exact hne hold.symm
  · intro hdies
    obtain ⟨size, hsize, hother⟩ := exists_other_size (heap.size x)
    refine ⟨size, hsize, fun heq => hother ?_⟩
    have hnew := RefGraph.retained_update_of_diesWith heap.size size (Analyzer.mem_graph_objects.2 hx) hdies
    rw [reportedSize_resize hsame hbounded hfits orders hrounds ho hx hsize, hold] at heq
    rw [Option.some.inj (Except.ok.inj heq)] at hnew
    omega

/-- **Their sizes are its parts.** -/
theorem includes_iff (ho : o ∈ heap.objects.keys) (hx : x ∈ heap.objects.keys) :
    Includes orders rounds other o x ↔ heap.graph.DiesWith o x := by
  have hold := reportedSize_eq hsame hbounded hfits orders hrounds ho
  constructor
  · rintro ⟨object, hobject, rfl, h⟩
    by_contra hdies
    obtain ⟨size, hsize, hother⟩ := exists_other_size object.size
    obtain ⟨retained, retained', hretained, hretained', hdiff⟩ := h size hsize
    rw [reportedSize_resize hsame hbounded hfits orders hrounds ho hx hsize,
      RefGraph.retained_update_of_not_diesWith _ _ hdies, ← hold, hretained] at hretained'
    cases hretained'
    omega
  · intro hdies
    have hkeys := hx
    rw [hsame.keys] at hkeys
    obtain ⟨object, hobject, rfl⟩ := List.mem_map.1 hkeys
    obtain ⟨obj, hfind, hobj⟩ := hsame.object_of_mem hobject
    refine ⟨object, hobject, rfl, fun size hsize => ⟨_, _, hold,
      reportedSize_resize hsame hbounded hfits orders hrounds ho hx hsize, ?_⟩⟩
    rw [← hobj.size, ← Analyzer.size_of_find? hfind]
    exact RefGraph.retained_update_of_diesWith heap.size size (Analyzer.mem_graph_objects.2 hx) hdies

end

end Go
end Pydump
