/-
# The Go heap as a reference graph

`Heap.graph` reads a heap as a `RefGraph` on the addresses.  Any graph with the
objects and the references of the heap (`Heap.HasGraph`) is the node graph of
`BuildGraph` under other names: `nameOf` takes the number of a node to its address
(`Numbered.renaming`).
-/

import Pydump.Go.GraphSpec
import Pydump.Lib.RefRenaming

namespace Pydump
namespace Go

open RowTable
open RefGraph (Renaming)

variable {value : Heap} {g : RefGraph ℕ} {index : OrderedDict ℕ ℕ} {nodes : List ℕ}

/-! ### The graph on the addresses -/

/-- The object at `address`. -/
def Heap.objectAt (value : Heap) (address : ℕ) : Option Object :=
  value.objects.find? fun object => object.address = address

/-- The size of the object at `address`, nothing for a dangling address. -/
def Heap.size (value : Heap) (address : ℕ) : ℕ :=
  match value.objectAt address with
  | some object => object.size
  | none => 0

/-- At an unknown address there is no object. -/
theorem objectAt_eq_none {address : ℕ} (h : address ∉ (value.objects.map Object.address).toFinset) :
    value.objectAt address = none := by
  rw [Heap.objectAt, List.find?_eq_none]
  intro object ho heq
  exact h (List.mem_toFinset.2 (List.mem_map.2 ⟨object, ho, of_decide_eq_true heq⟩))

/-- Where no two elements have one key, an element is found by its key. -/
theorem find?_key {β : Type} {key : β → ℕ} {xs : List β} (h : (xs.map key).Nodup) {x : β} (hx : x ∈ xs) :
    (xs.find? fun y => key y = key x) = some x := by
  induction xs with
  | nil => exact absurd hx List.not_mem_nil
  | cons y xs ih =>
    rw [List.map_cons, List.nodup_cons] at h
    rcases List.mem_cons.1 hx with rfl | hx
    · exact List.find?_cons_of_pos (decide_eq_true rfl)
    · have hne : key y ≠ key x := fun heq => h.1 (heq ▸ List.mem_map_of_mem hx)
      rw [List.find?_cons_of_neg (by simpa using hne)]
      exact ih h.2 hx

/-- An object is found at its address. -/
theorem objectAt_of_mem (haddresses : (value.objects.map Object.address).Nodup) {object : Object}
    (ho : object ∈ value.objects) : value.objectAt object.address = some object :=
  find?_key haddresses ho

/-- The size of an object. -/
theorem size_of_mem (haddresses : (value.objects.map Object.address).Nodup) {object : Object}
    (ho : object ∈ value.objects) : value.size object.address = object.size := by
  rw [Heap.size, objectAt_of_mem haddresses ho]

/-- The heap as a reference graph. -/
def Heap.graph (value : Heap) : RefGraph ℕ where
  objects := (value.objects.map Object.address).toFinset
  succ address := (((value.objectAt address).map Object.referents).getD []).toFinset
  succ_eq_empty address ha := by
    rw [objectAt_eq_none ha]
    rfl

/-- `g` has the objects and the references of the heap. -/
structure Heap.HasGraph (value : Heap) (g : RefGraph ℕ) : Prop where
  objects : g.objects = (value.objects.map Object.address).toFinset
  succ : ∀ object ∈ value.objects, g.succ object.address = object.referents.toFinset

/-- The graph of the heap is a graph of it. -/
theorem hasGraph_graph (haddresses : (value.objects.map Object.address).Nodup) : value.HasGraph value.graph where
  objects := rfl
  succ object ho := by
    change (((value.objectAt object.address).map Object.referents).getD []).toFinset = _
    rw [objectAt_of_mem haddresses ho, Option.map_some, Option.getD_some]

/-! ### Numbers and addresses -/

/-- The address of a node. -/
def nameOf (nodes : List ℕ) (node : ℕ) : ℕ := nodes.getD node 0

/-- A node is named by its address. -/
theorem nameOf_eq {node address : ℕ} (h : nodes[node]? = some address) : nameOf nodes node = address := by
  rw [nameOf, List.getD_eq_getElem?_getD, h, Option.getD_some]

/-- The slot of an address is named by it. -/
theorem Numbered.nameOf_slotOf (h : Numbered value index nodes) {address : ℕ} (ha : address ∈ nodes) :
    nameOf nodes (slotOf index address) = address :=
  nameOf_eq (h.getElem?_slotOf ha)

/-- The slot of an object is named by its address. -/
theorem Numbered.nameOf_object (h : Numbered value index nodes) {i : ℕ} {object : Object}
    (hi : value.objects[i]? = some object) : nameOf nodes i = object.address :=
  nameOf_eq (h.getElem?_object hi)

/-- The objects of the graph are the rows. -/
theorem mem_nodeGraph_objects {rows : List (List ℕ)} {i : ℕ} : i ∈ (nodeGraph rows).objects ↔ i < rows.length :=
  Finset.mem_range

/-- **The node graph, renamed, is the graph of the heap.** -/
theorem Numbered.renaming (hg : value.HasGraph g) (h : Numbered value index nodes) :
    Renaming (nodeGraph (rowsOf index value.objects)) g (nameOf nodes) (Finset.range nodes.length) where
  inj x hx y hy hxy := by
    have hx' : x < nodes.length := Finset.mem_range.1 (Finset.mem_coe.1 hx)
    have hy' : y < nodes.length := Finset.mem_range.1 (Finset.mem_coe.1 hy)
    rw [nameOf_eq (List.getElem?_eq_getElem hx'), nameOf_eq (List.getElem?_eq_getElem hy')] at hxy
    exact (List.Nodup.getElem_inj_iff h.interned.nodup).1 hxy
  objects_subset x hx := by
    rw [mem_nodeGraph_objects, length_rowsOf] at hx
    exact Finset.mem_range.2 (Nat.lt_of_lt_of_le hx h.objects_le)
  succ_subset x y hy := by
    have hx : x < (rowsOf index value.objects).length := Finset.mem_range.1 (RefGraph.mem_objects_of_succ hy)
    rw [nodeGraph_succ (List.getElem?_eq_getElem hx)] at hy
    exact Finset.mem_range.2 (h.rows_lt _ (List.getElem_mem hx) y (List.mem_toFinset.1 hy))
  objects := by
    ext address
    rw [hg.objects, List.mem_toFinset, Finset.mem_image]
    constructor
    · intro ha
      obtain ⟨object, ho, rfl⟩ := List.mem_map.1 ha
      obtain ⟨i, hi⟩ := List.mem_iff_getElem?.1 ho
      refine ⟨i, ?_, h.nameOf_object hi⟩
      rw [mem_nodeGraph_objects, length_rowsOf]
      exact (List.getElem?_eq_some_iff.1 hi).1
    · rintro ⟨i, hi, rfl⟩
      rw [mem_nodeGraph_objects, length_rowsOf] at hi
      rw [h.nameOf_object (List.getElem?_eq_getElem hi)]
      exact List.mem_map_of_mem (List.getElem_mem hi)
  succ i hi := by
    rw [mem_nodeGraph_objects, length_rowsOf] at hi
    have hget := List.getElem?_eq_getElem hi
    have hrow : (rowsOf index value.objects)[i]? = some (value.objects[i].referents.map (slotOf index)) := by
      rw [getElem?_rowsOf, hget, Option.map_some]
    rw [h.nameOf_object hget, hg.succ _ (List.getElem_mem hi), nodeGraph_succ hrow]
    ext address
    rw [List.mem_toFinset, Finset.mem_image]
    constructor
    · intro ha
      have hnode := h.referent_mem (List.getElem_mem hi) ha
      exact ⟨slotOf index address, List.mem_toFinset.2 (List.mem_map_of_mem ha), h.nameOf_slotOf hnode⟩
    · rintro ⟨node, hnode, rfl⟩
      obtain ⟨a, ha, rfl⟩ := List.mem_map.1 (List.mem_toFinset.1 hnode)
      rwa [h.nameOf_slotOf (h.referent_mem (List.getElem_mem hi) ha)]

end Go
end Pydump
