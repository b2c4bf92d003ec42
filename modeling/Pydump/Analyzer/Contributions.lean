/-
# Which objects count for a retained size

The calculator reports a number.  Whether an object counts for it shows when the
object is given another size: the number stays what it is, or it changes by the
difference.  `dependsOn_iff` and `includes_iff` say that the objects which count are
those that die with the object asked for.
-/

import Pydump.Analyzer.CalculatorSpec
import Pydump.Lib.RefAnchors

namespace Pydump
namespace Analyzer

variable {heap : Heap} {o x : ℕ}

/-! ### An object of another size -/

/-- The heap with `size` for the size of the object at `address`. -/
def Heap.resize (heap : Heap) (address size : ℕ) : Heap :=
  { heap with objects := heap.objects.mapValues fun key obj => if key = address then { obj with size } else obj }

/-- A resized heap has the same objects. -/
theorem resize_keys (heap : Heap) (address size : ℕ) : (heap.resize address size).objects.keys = heap.objects.keys :=
  OrderedDict.keys_mapValues _ _

/-- **The references stay.** -/
theorem resize_graph (heap : Heap) (address size : ℕ) : (heap.resize address size).graph = heap.graph := by
  simp only [Heap.graph, RefGraph.mk.injEq]
  refine ⟨by rw [resize_keys], ?_⟩
  funext y
  simp only [Heap.referents, Heap.resize, OrderedDict.find?_mapValues]
  cases heap.objects.find? y with
  | none => rfl
  | some obj =>
    show (if y = address then { obj with size } else obj).referents = obj.referents
    split_ifs <;> rfl

/-- A resized heap has the new size at its address. -/
theorem resize_size (hx : x ∈ heap.objects.keys) (size : ℕ) :
    (heap.resize x size).size = Function.update heap.size x size := by
  funext y
  simp only [Heap.size, Heap.resize, OrderedDict.find?_mapValues]
  rcases eq_or_ne y x with rfl | hy
  · obtain ⟨obj, hobj⟩ := OrderedDict.exists_find?_of_mem_keys hx
    rw [Function.update_self, hobj, Option.map_some, if_pos rfl]
  · rw [Function.update_of_ne hy]
    simp only [if_neg hy, Option.map_id']
    rfl

/-- A resized heap takes as many rounds. -/
theorem resize_rounds (heap : Heap) (address size : ℕ) : (heap.resize address size).rounds = heap.rounds := by
  simp only [Heap.rounds, subtreeRounds, Heap.nodes, resize_graph]

/-- A resized heap knows its locals. -/
theorem Heap.LocalsKnown.resize (h : heap.LocalsKnown) (address size : ℕ) : (heap.resize address size).LocalsKnown := by
  intro thread ht local_ hl
  rw [Heap.nodes, resize_graph]
  exact h thread ht local_ hl

/-! ### What is reported -/

/-- The retained size that `calculate` reports for `o`. -/
def reportedSize (orders : Orders) (rounds : ℕ) (heap : Heap) (o : ℕ) : Except RetainedError (Option ℕ) :=
  (calculateRetained orders rounds heap).map fun result => result.objects.find? o

/-- The size reported for `o` depends on the size of the object at `x`. -/
def DependsOn (orders : Orders) (rounds : ℕ) (heap : Heap) (o x : ℕ) : Prop :=
  ∃ size, reportedSize orders rounds (heap.resize x size) o ≠ reportedSize orders rounds heap o

/-- The size of the object at `x` is a part of the size reported for `o`: with another
size of `x` the difference is reported. -/
def Includes (orders : Orders) (rounds : ℕ) (heap : Heap) (o x : ℕ) : Prop :=
  ∀ size, ∃ retained retained', reportedSize orders rounds heap o = .ok (some retained) ∧
    reportedSize orders rounds (heap.resize x size) o = .ok (some retained') ∧ retained' + heap.size x = retained + size

section

variable (hlocals : heap.LocalsKnown) (orders : Orders) {rounds : ℕ} (hrounds : heap.rounds ≤ rounds)

include hlocals hrounds

/-- The size that is reported of an object. -/
theorem reportedSize_eq (ho : o ∈ heap.objects.keys) :
    reportedSize orders rounds heap o = .ok (some (heap.graph.retained heap.size o)) := by
  obtain ⟨result, hrun, hobjects, -⟩ := calculateRetained_ok orders hlocals hrounds
  rw [reportedSize, hrun]
  exact congrArg _ ((hobjects o).trans (if_pos (mem_graph_objects.2 ho)))

/-- The size that is reported of an object after another is resized. -/
theorem reportedSize_resize (ho : o ∈ heap.objects.keys) (hx : x ∈ heap.objects.keys) (size : ℕ) :
    reportedSize orders rounds (heap.resize x size) o =
      .ok (some (heap.graph.retained (Function.update heap.size x size) o)) := by
  rw [reportedSize_eq (hlocals.resize x size) orders (by rw [resize_rounds]; exact hrounds)
    (by rw [resize_keys]; exact ho), resize_graph, resize_size hx]

/-- **The size depends on the objects that die with the one asked for.** -/
theorem dependsOn_iff (ho : o ∈ heap.objects.keys) (hx : x ∈ heap.objects.keys) :
    DependsOn orders rounds heap o x ↔ heap.graph.DiesWith o x := by
  simp only [DependsOn, reportedSize_eq hlocals orders hrounds ho, reportedSize_resize hlocals orders hrounds ho hx]
  constructor
  · rintro ⟨size, hne⟩
    by_contra hdies
    exact hne (by rw [RefGraph.retained_update_of_not_diesWith _ _ hdies])
  · intro hdies
    refine ⟨heap.size x + 1, fun heq => ?_⟩
    have hnew := RefGraph.retained_update_of_diesWith heap.size (heap.size x + 1) (mem_graph_objects.2 hx) hdies
    rw [Option.some.inj (Except.ok.inj heq)] at hnew
    omega

/-- **Their sizes are its parts.** -/
theorem includes_iff (ho : o ∈ heap.objects.keys) (hx : x ∈ heap.objects.keys) :
    Includes orders rounds heap o x ↔ heap.graph.DiesWith o x := by
  simp only [Includes, reportedSize_eq hlocals orders hrounds ho, reportedSize_resize hlocals orders hrounds ho hx]
  constructor
  · intro h
    by_contra hdies
    obtain ⟨retained, retained', hold, hnew, hdiff⟩ := h (heap.size x + 1)
    rw [RefGraph.retained_update_of_not_diesWith _ _ hdies, hold] at hnew
    cases hnew
    omega
  · exact fun hdies size => ⟨_, _, rfl, rfl,
      RefGraph.retained_update_of_diesWith heap.size size (mem_graph_objects.2 hx) hdies⟩

end

end Analyzer
end Pydump
