/-
# `BuildGraph` lays the references out by rows

On every heap without repetitions whose addresses can be numbered with 32 bits,
`BuildGraph` succeeds (`buildGraph_ok`).  It numbers every object, referent and
local once, the objects first (`Numbered`); `ObjectReferents` gives the referents
of an object and `InboundReferences` the objects that refer to a node, whatever
order Go walks its maps in.  No sum wraps.

The one node that may have the number 2^32 - 1 is no object.  For it
`InboundCount` computes with a `node + 1` that has wrapped, and what it returns is
no count; this is why `Laid.inboundCount` asks for a smaller number.
-/

import Pydump.Go.Graph
import Pydump.Lib.ExceptLoop
import Pydump.Lib.RefGraph

namespace Pydump
namespace Go

open ExceptLoop
open RowTable

/-! ### Arrays -/

/-- An element that is there is read. -/
theorem getAt_ok {α : Type} {xs : List α} {index : ℕ} {value : α} (h : xs[index]? = some value) :
    getAt xs index = .ok value := by
  rw [getAt, h]

/-- An element that is there is written. -/
theorem setAt_ok {α : Type} {xs : List α} {index : ℕ} (h : index < xs.length) (value : α) :
    setAt xs index value = .ok (xs.set index value) :=
  if_pos h

/-- A slice between two starts is a row. -/
theorem sliceOf_row {table : List (List ℕ)} {i : ℕ} {row : List ℕ} (h : table[i]? = some row) :
    sliceOf table.flatten (start table i) (start table (i + 1)) = .ok row := by
  have hle : start table (i + 1) ≤ table.flatten.length := by
    rw [flatten_split h, start_succ h, start, List.length_append, List.length_append]
    omega
  rw [sliceOf, if_pos ⟨by rw [start_succ h]; exact Nat.le_add_right _ _, hle⟩, slice_flatten h]

/-! ### The index of the addresses -/

/-- The index numbers these addresses in this order. -/
def Interned (index : OrderedDict ℕ ℕ) (nodes : List ℕ) : Prop := index.entries = nodes.zipIdx

section Interned

variable {index : OrderedDict ℕ ℕ} {nodes : List ℕ}

/-- The keys of the index are the nodes. -/
theorem Interned.keys (h : Interned index nodes) : index.keys = nodes := by
  rw [OrderedDict.keys, h, List.zipIdx_map_fst]

/-- No node stands twice. -/
theorem Interned.nodup (h : Interned index nodes) : nodes.Nodup := h.keys ▸ index.keys_nodup

/-- There are as many entries as nodes. -/
theorem Interned.length (h : Interned index nodes) : index.entries.length = nodes.length := by
  rw [h, List.length_zipIdx]

/-- An address has the number of its node. -/
theorem Interned.find? (h : Interned index nodes) {address node : ℕ} :
    index.find? address = some node ↔ nodes[node]? = some address := by
  rw [OrderedDict.find?_eq_some, h, List.mk_mem_zipIdx_iff_getElem?]

/-- A new address gets the next number. -/
theorem Interned.insert (h : Interned index nodes) {address : ℕ} (ha : address ∉ nodes) :
    Interned (index.insert address nodes.length) (nodes ++ [address]) := by
  rw [Interned, OrderedDict.entries_insert_of_not_mem (h.keys ▸ ha), h, List.zipIdx_append, List.zipIdx_singleton,
    Nat.zero_add]

/-- **`addAddress`** numbers an address that is new. -/
theorem addAddress_ok (h : Interned index nodes) {all : Finset ℕ} (hcard : all.card ≤ 2 ^ 32)
    (hnodes : ∀ a ∈ nodes, a ∈ all) {address : ℕ} (ha : address ∈ all) :
    ∃ index' nodes', addAddress index address = .ok index' ∧ Interned index' nodes' ∧ nodes <+: nodes' ∧
      ∀ a, a ∈ nodes' ↔ a ∈ nodes ∨ a = address := by
  unfold addAddress
  by_cases hmem : address ∈ nodes
  · rw [if_pos (h.keys ▸ hmem)]
    refine ⟨index, nodes, rfl, h, List.prefix_rfl, fun a => ?_⟩
    exact (or_iff_left_of_imp fun ha => ha ▸ hmem).symm
  · have hlt : nodes.length < 2 ^ 32 := by
      have hsub : (address :: nodes).toFinset ⊆ all := fun a hm => by
        rcases List.mem_cons.1 (List.mem_toFinset.1 hm) with rfl | hm
        · exact ha
        · exact hnodes a hm
      have hle := Finset.card_le_card hsub
      rw [List.toFinset_card_of_nodup (List.nodup_cons.2 ⟨hmem, h.nodup⟩), List.length_cons] at hle
      omega
    rw [if_neg (h.keys ▸ hmem), h.length, if_neg (by omega), Nat.mod_eq_of_lt hlt]
    exact ⟨_, _, rfl, h.insert hmem, List.prefix_append .., fun a => by simp⟩

/-- A loop over `addAddress`. -/
theorem addAddresses_ok (h : Interned index nodes) {all : Finset ℕ} (hcard : all.card ≤ 2 ^ 32)
    (hnodes : ∀ a ∈ nodes, a ∈ all) {addresses : List ℕ} (ha : ∀ a ∈ addresses, a ∈ all) :
    ∃ index' nodes', addresses.foldlM addAddress index = .ok index' ∧ Interned index' nodes' ∧
      nodes <+: nodes' ∧ ∀ a, a ∈ nodes' ↔ a ∈ nodes ∨ a ∈ addresses := by
  induction addresses generalizing index nodes with
  | nil => exact ⟨index, nodes, rfl, h, List.prefix_rfl, fun a => by simp⟩
  | cons address addresses ih =>
    obtain ⟨index₁, nodes₁, hadd, h₁, hprefix₁, hmem₁⟩ := addAddress_ok h hcard hnodes (ha address List.mem_cons_self)
    have hnodes₁ : ∀ a ∈ nodes₁, a ∈ all := fun a hm =>
      ((hmem₁ a).1 hm).elim (hnodes a) fun ha' => ha' ▸ ha address List.mem_cons_self
    obtain ⟨index₂, nodes₂, hrest, h₂, hprefix₂, hmem₂⟩ :=
      ih h₁ hnodes₁ fun a hm => ha a (List.mem_cons_of_mem address hm)
    refine ⟨index₂, nodes₂, ?_, h₂, hprefix₁.trans hprefix₂, fun a => ?_⟩
    · rw [List.foldlM_cons, bind_ok hadd]
      exact hrest
    · rw [hmem₂, hmem₁, List.mem_cons, or_assoc]

/-- A loop over lists of addresses. -/
theorem addAddressLists_ok {β : Type} {f : OrderedDict ℕ ℕ → β → Except AnalysisError (OrderedDict ℕ ℕ)}
    {addresses : β → List ℕ} (hf : ∀ index x, f index x = (addresses x).foldlM addAddress index) {xs : List β}
    (h : Interned index nodes) {all : Finset ℕ} (hcard : all.card ≤ 2 ^ 32)
    (hnodes : ∀ a ∈ nodes, a ∈ all) (ha : ∀ x ∈ xs, ∀ a ∈ addresses x, a ∈ all) :
    ∃ index' nodes', xs.foldlM f index = .ok index' ∧ Interned index' nodes' ∧
      nodes <+: nodes' ∧ ∀ a, a ∈ nodes' ↔ a ∈ nodes ∨ ∃ x ∈ xs, a ∈ addresses x := by
  have hflat : ∀ index, xs.foldlM f index = (xs.flatMap addresses).foldlM addAddress index := by
    intro index
    induction xs generalizing index with
    | nil => rfl
    | cons x xs ih =>
      rw [List.flatMap_cons, List.foldlM_append, List.foldlM_cons, hf]
      exact bind_congr fun index => ih (fun y hy => ha y (List.mem_cons_of_mem x hy)) index
  have hmem : ∀ a, a ∈ xs.flatMap addresses ↔ ∃ x ∈ xs, a ∈ addresses x := fun a => List.mem_flatMap
  obtain ⟨index', nodes', hrun, h', hprefix, hmem'⟩ := addAddresses_ok h hcard hnodes fun a hm => by
    obtain ⟨x, hx, hm⟩ := (hmem a).1 hm
    exact ha x hx a hm
  exact ⟨index', nodes', (hflat index).trans hrun, h', hprefix, fun a => by rw [hmem', hmem]⟩

end Interned

/-! ### Heaps that a reader can produce -/

/-- What `reader.objects` makes sure of: addresses and referents without
repetition, and numbers of 32 bits. -/
structure Heap.WellFormed (value : Heap) : Prop where
  addresses : (value.objects.map Object.address).Nodup
  referents : ∀ object ∈ value.objects, object.referents.Nodup
  sizes : ∀ object ∈ value.objects, object.size < 2 ^ 32
  count : value.objects.length ≤ 2 ^ 32 - 1

/-- What the graph needs of it: nothing about the sizes. -/
structure Heap.Indexable (value : Heap) : Prop where
  addresses : (value.objects.map Object.address).Nodup
  referents : ∀ object ∈ value.objects, object.referents.Nodup
  count : value.objects.length ≤ 2 ^ 32 - 1

/-- A well-formed heap can be indexed. -/
theorem Heap.WellFormed.indexable {value : Heap} (h : value.WellFormed) : value.Indexable :=
  ⟨h.addresses, h.referents, h.count⟩

/-- The addresses that the graph numbers. -/
def Heap.IsNode (value : Heap) (address : ℕ) : Prop :=
  (∃ object ∈ value.objects, address = object.address ∨ address ∈ object.referents) ∨
    ∃ thread ∈ value.threads, address ∈ thread.localAddresses

/-- The addresses fit the index. -/
def Heap.FitsIndex (value : Heap) : Prop :=
  ∃ all : Finset ℕ, all.card ≤ 2 ^ 32 ∧ ∀ address, value.IsNode address → address ∈ all

variable {value : Heap}

/-- The index numbers the addresses of the heap, the objects first. -/
structure Numbered (value : Heap) (index : OrderedDict ℕ ℕ) (nodes : List ℕ) : Prop where
  interned : Interned index nodes
  objects : value.objects.map Object.address <+: nodes
  mem : ∀ address, address ∈ nodes ↔ value.IsNode address

/-- The objects are interned in their order. -/
theorem indexObjects_interned (hwf : value.Indexable) :
    Interned (indexObjects value.objects) (value.objects.map Object.address) := by
  have hcount := hwf.count
  have hpairs : value.objects.zipIdx.map (fun entry => (entry.1.address, entry.2 % 2 ^ 32)) =
      (value.objects.map Object.address).zipIdx := by
    rw [List.zipIdx_map]
    refine List.map_congr_left fun entry hm => ?_
    have hlt := List.snd_lt_of_mem_zipIdx hm
    simp only [Prod.map, id_eq, Prod.mk.injEq, true_and]
    exact Nat.mod_eq_of_lt (by omega)
  have hfold : indexObjects value.objects = .ofPairs (value.objects.map Object.address).zipIdx := by
    rw [indexObjects, OrderedDict.ofPairs, ← hpairs, List.foldl_map]
  rw [Interned, hfold, OrderedDict.entries_ofPairs]
  rw [List.zipIdx_map_fst]
  exact hwf.addresses

/-- **Every address gets a number.** -/
theorem indexAddresses_ok (orders : Orders) (hwf : value.Indexable) (hfits : value.FitsIndex) :
    ∃ index nodes, indexAddresses orders value = .ok index ∧ Numbered value index nodes := by
  obtain ⟨all, hcard, hall⟩ := hfits
  have hobject : ∀ object ∈ value.objects, ∀ a, a = object.address ∨ a ∈ object.referents → a ∈ all :=
    fun object ho a ha => hall a (.inl ⟨object, ho, ha⟩)
  have haddresses : ∀ a ∈ value.objects.map Object.address, a ∈ all := by
    intro a ha
    obtain ⟨object, ho, rfl⟩ := List.mem_map.1 ha
    exact hobject object ho _ (.inl rfl)
  obtain ⟨index₁, nodes₁, hrun₁, h₁, hprefix₁, hmem₁⟩ := addAddressLists_ok
    (fun index (object : Object) => rfl) (indexObjects_interned hwf) hcard haddresses
    fun object ho a ha => hobject object ho a (.inr ha)
  have hnodes₁ : ∀ a ∈ nodes₁, a ∈ all := fun a ha =>
    ((hmem₁ a).1 ha).elim (haddresses a) fun ⟨object, ho, ha⟩ => hobject object ho a (.inr ha)
  have hthread : ∀ entry ∈ value.threads.zipIdx, ∀ a ∈ orders.walk (.graphLocals entry.2) entry.1.localAddresses,
      a ∈ all := fun entry he a ha =>
    hall a (.inr ⟨entry.1, List.fst_mem_of_mem_zipIdx he, (orders.mem_walk _ _ _).1 ha⟩)
  obtain ⟨index₂, nodes₂, hrun₂, h₂, hprefix₂, hmem₂⟩ :=
    addAddressLists_ok (fun index (entry : Thread × ℕ) => rfl) h₁ hcard hnodes₁ hthread
  refine ⟨index₂, nodes₂, ?_, h₂, hprefix₁.trans hprefix₂, fun a => ?_⟩
  · rw [indexAddresses, bind_ok hrun₁]
    exact hrun₂
  · rw [hmem₂, hmem₁, Heap.IsNode]
    constructor
    · rintro ((ha | ⟨object, ho, ha⟩) | ⟨entry, he, ha⟩)
      · obtain ⟨object, ho, rfl⟩ := List.mem_map.1 ha
        exact .inl ⟨object, ho, .inl rfl⟩
      · exact .inl ⟨object, ho, .inr ha⟩
      · exact .inr ⟨entry.1, List.fst_mem_of_mem_zipIdx he, (orders.mem_walk _ _ _).1 ha⟩
    · rintro (⟨object, ho, rfl | ha⟩ | ⟨thread, ht, ha⟩)
      · exact .inl (.inl (List.mem_map_of_mem ho))
      · exact .inl (.inr ⟨object, ho, ha⟩)
      · obtain ⟨i, hi⟩ := List.mem_iff_getElem?.1 ht
        exact .inr ⟨(thread, i), List.mk_mem_zipIdx_iff_getElem?.2 hi, (orders.mem_walk _ _ _).2 ha⟩

/-! ### When the index overflows -/

/-- What `addAddress` keeps of an index when it succeeds. -/
theorem addAddress_inv {index index' : OrderedDict ℕ ℕ} {address : ℕ} (h : addAddress index address = .ok index')
    (hlen : index.keys.length ≤ 2 ^ 32) :
    index'.keys.length ≤ 2 ^ 32 ∧ address ∈ index'.keys ∧ ∀ a ∈ index.keys, a ∈ index'.keys := by
  have hentries : index.entries.length = index.keys.length := (List.length_map ..).symm
  unfold addAddress at h
  split_ifs at h with hmem hfull
  · cases h
    exact ⟨hlen, hmem, fun _ ha => ha⟩
  · cases h
    have hkeys : (index.insert address (index.entries.length % 2 ^ 32)).keys = index.keys ++ [address] := by
      rw [OrderedDict.keys_insert, if_neg hmem]
    rw [hkeys]
    refine ⟨?_, List.mem_append_right _ (List.mem_singleton_self _), fun a ha => List.mem_append_left _ ha⟩
    rw [List.length_append, List.length_singleton]
    omega

/-- What a loop over `addAddress` keeps of an index when it succeeds. -/
theorem addAddresses_inv {index index' : OrderedDict ℕ ℕ} {addresses : List ℕ}
    (h : addresses.foldlM addAddress index = .ok index') (hlen : index.keys.length ≤ 2 ^ 32) :
    index'.keys.length ≤ 2 ^ 32 ∧ (∀ a ∈ addresses, a ∈ index'.keys) ∧ ∀ a ∈ index.keys, a ∈ index'.keys := by
  refine foldlM_inv (fun seen (index' : OrderedDict ℕ ℕ) => index'.keys.length ≤ 2 ^ 32 ∧
    (∀ a ∈ seen, a ∈ index'.keys) ∧ ∀ a ∈ index.keys, a ∈ index'.keys) ⟨hlen, by simp, fun _ ha => ha⟩ ?_ h
  rintro seen x index₁ index₂ ⟨hlen₁, hseen, hbase⟩ hadd
  obtain ⟨hlen₂, hx, hgrow⟩ := addAddress_inv hadd hlen₁
  refine ⟨hlen₂, fun a ha => ?_, fun a ha => hgrow a (hbase a ha)⟩
  rcases List.mem_append.1 ha with ha | ha
  · exact hgrow a (hseen a ha)
  · exact List.mem_singleton.1 ha ▸ hx

/-- What a loop over lists of addresses keeps of an index when it succeeds. -/
theorem addAddressLists_inv {β : Type} {f : OrderedDict ℕ ℕ → β → Except AnalysisError (OrderedDict ℕ ℕ)}
    {addresses : β → List ℕ} (hf : ∀ index x, f index x = (addresses x).foldlM addAddress index)
    {index index' : OrderedDict ℕ ℕ} {xs : List β} (h : xs.foldlM f index = .ok index')
    (hlen : index.keys.length ≤ 2 ^ 32) :
    index'.keys.length ≤ 2 ^ 32 ∧ (∀ x ∈ xs, ∀ a ∈ addresses x, a ∈ index'.keys) ∧
      ∀ a ∈ index.keys, a ∈ index'.keys := by
  refine foldlM_inv (fun seen (index' : OrderedDict ℕ ℕ) => index'.keys.length ≤ 2 ^ 32 ∧
    (∀ x ∈ seen, ∀ a ∈ addresses x, a ∈ index'.keys) ∧ ∀ a ∈ index.keys, a ∈ index'.keys)
    ⟨hlen, by simp, fun _ ha => ha⟩ ?_ h
  rintro seen x index₁ index₂ ⟨hlen₁, hseen, hbase⟩ hadd
  rw [hf] at hadd
  obtain ⟨hlen₂, hx, hgrow⟩ := addAddresses_inv hadd hlen₁
  refine ⟨hlen₂, fun y hy a ha => ?_, fun a ha => hgrow a (hbase a ha)⟩
  rcases List.mem_append.1 hy with hy | hy
  · exact hgrow a (hseen y hy a ha)
  · exact hx a (List.mem_singleton.1 hy ▸ ha)

/-- **A graph that was built fits the index.** -/
theorem fitsIndex_of_indexAddresses (orders : Orders) (hwf : value.Indexable) {index : OrderedDict ℕ ℕ}
    (h : indexAddresses orders value = .ok index) : value.FitsIndex := by
  rw [indexAddresses, bind_eq_ok] at h
  obtain ⟨index₁, hobjects, hthreads⟩ := h
  have hkeys := (indexObjects_interned hwf).keys
  have hcount := hwf.count
  obtain ⟨hlen₁, hreferents, haddresses⟩ := addAddressLists_inv (fun _ (object : Object) => rfl) hobjects
    (by rw [hkeys, List.length_map]; omega)
  obtain ⟨hlen, hlocals, hgrow⟩ := addAddressLists_inv (fun _ (entry : Thread × ℕ) => rfl) hthreads hlen₁
  refine ⟨index.keys.toFinset, le_trans (List.toFinset_card_le _) hlen, fun address ha => List.mem_toFinset.2 ?_⟩
  rcases ha with ⟨object, ho, rfl | ha⟩ | ⟨thread, ht, ha⟩
  · exact hgrow _ (haddresses _ (hkeys ▸ List.mem_map_of_mem ho))
  · exact hgrow _ (hreferents object ho address ha)
  · obtain ⟨i, hi⟩ := List.mem_iff_getElem?.1 ht
    exact hlocals (thread, i) (List.mk_mem_zipIdx_iff_getElem?.2 hi) address ((orders.mem_walk _ _ _).2 ha)

/-! ### The rows -/

/-- The number of an address, looked up as the source does. -/
def slotOf (index : OrderedDict ℕ ℕ) (address : ℕ) : ℕ := (index.find? address).getD 0

/-- The referents of the objects by their numbers. -/
def rowsOf (index : OrderedDict ℕ ℕ) (objects : List Object) : List (List ℕ) :=
  objects.map fun object => object.referents.map (slotOf index)

section Rows

variable {index : OrderedDict ℕ ℕ} {nodes : List ℕ}

/-- The slot of a node is its position. -/
theorem Numbered.getElem?_slotOf (h : Numbered value index nodes) {address : ℕ} (ha : address ∈ nodes) :
    nodes[slotOf index address]? = some address := by
  obtain ⟨i, hi⟩ := List.mem_iff_getElem?.1 ha
  rw [slotOf, h.interned.find?.2 hi, Option.getD_some, hi]

/-- The slot of a node is a position. -/
theorem Numbered.slotOf_lt (h : Numbered value index nodes) {address : ℕ} (ha : address ∈ nodes) :
    slotOf index address < nodes.length :=
  (List.getElem?_eq_some_iff.1 (h.getElem?_slotOf ha)).1

/-- Different nodes have different slots. -/
theorem Numbered.slotOf_inj (h : Numbered value index nodes) {a b : ℕ} (ha : a ∈ nodes) (hb : b ∈ nodes)
    (hab : slotOf index a = slotOf index b) : a = b := by
  have := h.getElem?_slotOf ha
  rw [hab, h.getElem?_slotOf hb] at this
  exact (Option.some_inj.1 this).symm

/-- There are no more nodes than fit. -/
theorem Numbered.length_le (h : Numbered value index nodes) (hfits : value.FitsIndex) : nodes.length ≤ 2 ^ 32 := by
  obtain ⟨all, hcard, hall⟩ := hfits
  rw [← List.toFinset_card_of_nodup h.interned.nodup]
  refine le_trans (Finset.card_le_card fun a ha => ?_) hcard
  exact hall a ((h.mem a).1 (List.mem_toFinset.1 ha))

/-- There are no fewer nodes than objects. -/
theorem Numbered.objects_le (h : Numbered value index nodes) : value.objects.length ≤ nodes.length := by
  have hle := h.objects.length_le
  rwa [List.length_map] at hle

/-- The objects have the first numbers. -/
theorem Numbered.getElem?_object (h : Numbered value index nodes) {i : ℕ} {object : Object}
    (hi : value.objects[i]? = some object) : nodes[i]? = some object.address := by
  obtain ⟨rest, hrest⟩ := h.objects
  have hlt : i < (value.objects.map Object.address).length := by
    rw [List.length_map]
    exact (List.getElem?_eq_some_iff.1 hi).1
  rw [← hrest, List.getElem?_append_left hlt, List.getElem?_map, hi, Option.map_some]

/-- A row holds the slots of the referents. -/
theorem getElem?_rowsOf {objects : List Object} {i : ℕ} :
    (rowsOf index objects)[i]? = (objects[i]?).map fun object => object.referents.map (slotOf index) :=
  List.getElem?_map

/-- There is a row for each object. -/
theorem length_rowsOf {objects : List Object} : (rowsOf index objects).length = objects.length :=
  List.length_map ..

/-- A row is as long as its object has referents. -/
theorem lengths_rowsOf {objects : List Object} :
    (rowsOf index objects).map List.length = objects.map fun object => object.referents.length := by
  rw [rowsOf, List.map_map]
  exact List.map_congr_left fun object _ => List.length_map ..

/-- A referent is a node. -/
theorem Numbered.referent_mem (h : Numbered value index nodes) {object : Object} (ho : object ∈ value.objects)
    {address : ℕ} (ha : address ∈ object.referents) : address ∈ nodes :=
  (h.mem address).2 (.inl ⟨object, ho, .inr ha⟩)

/-- No slot stands twice in a row. -/
theorem Numbered.rows_nodup (h : Numbered value index nodes) (hwf : value.Indexable) :
    ∀ row ∈ rowsOf index value.objects, row.Nodup := by
  intro row hrow
  obtain ⟨object, ho, rfl⟩ := List.mem_map.1 hrow
  exact (hwf.referents object ho).map_on fun a ha b hb => h.slotOf_inj (h.referent_mem ho ha) (h.referent_mem ho hb)

/-- The slots in the rows are positions. -/
theorem Numbered.rows_lt (h : Numbered value index nodes) :
    ∀ row ∈ rowsOf index value.objects, ∀ node ∈ row, node < nodes.length := by
  intro row hrow node hnode
  obtain ⟨object, ho, rfl⟩ := List.mem_map.1 hrow
  obtain ⟨address, ha, rfl⟩ := List.mem_map.1 hnode
  exact h.slotOf_lt (h.referent_mem ho ha)

/-- The references fit an array with offsets of 64 bits. -/
theorem Numbered.rows_total (h : Numbered value index nodes) (hwf : value.Indexable) (hfits : value.FitsIndex) :
    (rowsOf index value.objects).flatten.length < 2 ^ 64 := by
  have hrow : ∀ row ∈ rowsOf index value.objects, row.length ≤ 2 ^ 32 := fun row hr => by
    refine le_trans ?_ (h.length_le hfits)
    rw [← List.toFinset_card_of_nodup (h.rows_nodup hwf row hr), ← @List.length_range nodes.length,
      ← List.toFinset_card_of_nodup List.nodup_range]
    exact Finset.card_le_card fun node hn =>
      List.mem_toFinset.2 (List.mem_range.2 (h.rows_lt row hr node (List.mem_toFinset.1 hn)))
  have hle := length_flatten_le hrow
  have hcount := hwf.count
  have hmul : (rowsOf index value.objects).length * 2 ^ 32 ≤ (2 ^ 32 - 1) * 2 ^ 32 :=
    Nat.mul_le_mul_right _ (by rw [length_rowsOf]; exact hcount)
  omega

/-- As many objects refer to a node as there are objects, at most. -/
theorem Numbered.column_le (h : Numbered value index nodes) (hwf : value.Indexable) (v : ℕ) :
    (entriesOf (edgesOf (rowsOf index value.objects)) v).length ≤ 2 ^ 32 - 1 := by
  have hle := length_entriesOf_edgesOf_le (h.rows_nodup hwf) v
  rw [length_rowsOf] at hle
  exact le_trans hle hwf.count

/-- The inbound references fit an array with offsets of 64 bits. -/
theorem Numbered.columns_total (h : Numbered value index nodes) (hwf : value.Indexable) (hfits : value.FitsIndex) :
    (table (edgesOf (rowsOf index value.objects)) nodes.length
      (edgesOf (rowsOf index value.objects))).flatten.length < 2 ^ 64 := by
  have hrow : ∀ row ∈ table (edgesOf (rowsOf index value.objects)) nodes.length
      (edgesOf (rowsOf index value.objects)), row.length ≤ 2 ^ 32 - 1 := fun row hr => by
    obtain ⟨v, -, rfl⟩ := List.mem_map.1 hr
    rw [paddedRow_all]
    exact h.column_le hwf v
  have hle := length_flatten_le hrow
  have hnodes := h.length_le hfits
  have hmul := Nat.mul_le_mul_right (2 ^ 32 - 1) hnodes
  rw [table, List.length_map, List.length_range] at hle
  rw [table]
  omega

end Rows

/-! ### The loops that fill the arrays -/

/-- Where a loop over numbered elements stands. -/
theorem zipIdx_split {α : Type} {xs : List α} {seen rest : List (α × ℕ)} {x : α} {i : ℕ}
    (h : seen ++ (x, i) :: rest = xs.zipIdx) : i = seen.length ∧ xs[i]? = some x := by
  have hget : (xs.zipIdx)[seen.length]? = some (x, i) := by
    rw [← h, List.getElem?_append_right (Nat.le_refl _), Nat.sub_self, List.getElem?_cons_zero]
  have hmem : (x, i) ∈ xs.zipIdx := List.mem_of_getElem? hget
  refine ⟨?_, List.mk_mem_zipIdx_iff_getElem?.1 hmem⟩
  rw [List.getElem?_zipIdx] at hget
  cases hx : xs[seen.length]? with
  | none => rw [hx] at hget; cases hget
  | some y =>
    rw [hx, Option.map_some, Option.some_inj, Prod.mk.injEq] at hget
    omega

/-- What holds of `referents` and `inboundCount` once these referents and these
edges are in. -/
structure EdgesAt (total n : ℕ) (done : List ℕ) (seen : List (ℕ × ℕ)) (edges : Edges) : Prop where
  referents : Filled total done edges.referents
  inboundCount : Counted n (fun _ => 0) seen edges.inboundCount

/-- **One edge.** -/
theorem addEdge_ok {index : OrderedDict ℕ ℕ} {total n : ℕ} {done : List ℕ} {seen : List (ℕ × ℕ)} {edges : Edges}
    (h : EdgesAt total n done seen edges) {start edgeIndex address : ℕ} (source : ℕ)
    (hposition : start + edgeIndex = done.length) (hfree : done.length < total) (htotal : total < 2 ^ 64)
    (hnode : slotOf index address < n) (hcount : (entriesOf seen (slotOf index address)).length + 1 < 2 ^ 32) :
    ∃ edges', addEdge index start edges (address, edgeIndex) = .ok edges' ∧
      EdgesAt total n (done ++ [slotOf index address]) (seen ++ [(source, slotOf index address)]) edges' := by
  have hlen := h.referents.length (Nat.le_of_lt hfree)
  obtain ⟨hget, hcounted⟩ := h.inboundCount.count hnode source
  rw [Nat.zero_add] at hget hcounted
  have hlt : slotOf index address < edges.inboundCount.length := (List.getElem?_eq_some_iff.1 hget).1
  refine ⟨⟨edges.referents.set done.length (slotOf index address), edges.inboundCount.set (slotOf index address)
    ((entriesOf seen (slotOf index address)).length + 1)⟩, ?_, h.referents.write hfree _, hcounted⟩
  rw [addEdge, hposition, Nat.mod_eq_of_lt (Nat.lt_trans hfree htotal)]
  change (setAt edges.referents done.length (slotOf index address) >>= _) = _
  rw [bind_ok (setAt_ok (hlen ▸ hfree) _)]
  change (getAt edges.inboundCount (slotOf index address) >>= _) = _
  rw [bind_ok (getAt_ok hget), Nat.mod_eq_of_lt hcount]
  change (setAt edges.inboundCount (slotOf index address) _ >>= _) = _
  rw [bind_ok (setAt_ok hlt _)]
  rfl

variable {index : OrderedDict ℕ ℕ} {nodes : List ℕ}

/-- The rows of a heap with what the loops need to know of them. -/
structure RowsOk (rows : List (List ℕ)) (n : ℕ) : Prop where
  nodup : ∀ row ∈ rows, row.Nodup
  lt : ∀ row ∈ rows, ∀ node ∈ row, node < n
  count : rows.length ≤ 2 ^ 32 - 1
  nodes : n ≤ 2 ^ 32
  objects : rows.length ≤ n
  total : rows.flatten.length < 2 ^ 64
  inboundTotal : (table (edgesOf rows) n (edgesOf rows)).flatten.length < 2 ^ 64

/-- The rows of a numbered heap are in order. -/
theorem Numbered.rowsOk (h : Numbered value index nodes) (hwf : value.Indexable) (hfits : value.FitsIndex) :
    RowsOk (rowsOf index value.objects) nodes.length where
  nodup := h.rows_nodup hwf
  lt := h.rows_lt
  count := length_rowsOf ▸ hwf.count
  nodes := h.length_le hfits
  objects := length_rowsOf ▸ h.objects_le
  total := h.rows_total hwf hfits
  inboundTotal := h.columns_total hwf hfits

/-- The number of referrers has 32 bits. -/
theorem RowsOk.column_lt {rows : List (List ℕ)} {n : ℕ} (h : RowsOk rows n) (v : ℕ) :
    (entriesOf (edgesOf rows) v).length < 2 ^ 32 := by
  have hle := length_entriesOf_edgesOf_le h.nodup v
  have hcount := h.count
  omega

/-- **The referents of one object.** -/
theorem addEdges_ok {objects : List Object} {n : ℕ} (hrows : RowsOk (rowsOf index objects) n) {edges : Edges}
    {object : Object} {i : ℕ} (hi : objects[i]? = some object)
    (h : EdgesAt (rowsOf index objects).flatten.length n ((rowsOf index objects).take i).flatten
      (edgesOf ((rowsOf index objects).take i)) edges) :
    ∃ edges', addEdges index (prefixSums (2 ^ 64) (objects.map fun object => object.referents.length)) edges
        (object, i) = .ok edges' ∧
      EdgesAt (rowsOf index objects).flatten.length n ((rowsOf index objects).take (i + 1)).flatten
        (edgesOf ((rowsOf index objects).take (i + 1))) edges' := by
  set rows := rowsOf index objects with hrowsdef
  set row := object.referents.map (slotOf index) with hrow
  have hget : rows[i]? = some row := by
    rw [hrowsdef, getElem?_rowsOf, hi, Option.map_some]
  have hilt : i < rows.length := (List.getElem?_eq_some_iff.1 hget).1
  obtain ⟨after, hafter⟩ := edgesOf_split hget
  have hrowmem : row ∈ rows := List.mem_of_getElem? hget
  have hflat := flatten_split hget
  let inv (seen : List (ℕ × ℕ)) (edges : Edges) : Prop :=
    EdgesAt rows.flatten.length n ((rows.take i).flatten ++ seen.map fun entry => slotOf index entry.1)
      (edgesOf (rows.take i) ++ seen.map fun entry => (i, slotOf index entry.1)) edges
  have hround : ∀ seen entry rest edges, seen ++ entry :: rest = object.referents.zipIdx → inv seen edges →
      ∃ edges', addEdge index (start rows i) edges entry = .ok edges' ∧ inv (seen ++ [entry]) edges' := by
    rintro seen ⟨address, edgeIndex⟩ rest edges hsplit hseen
    obtain ⟨hindex, hreferent⟩ := zipIdx_split hsplit
    have hslot : slotOf index address ∈ row := List.mem_map_of_mem (List.mem_of_getElem? hreferent)
    have hrowsplit : seen.map (fun entry => slotOf index entry.1) ++
        slotOf index address :: rest.map (fun entry => slotOf index entry.1) = row := by
      have hmap := congrArg (List.map fun entry => slotOf index entry.1) hsplit
      have hfst : object.referents.zipIdx.map (fun entry => slotOf index entry.1) = row := by
        rw [hrow, ← List.zipIdx_map_fst 0 object.referents, List.map_map, List.zipIdx_map_fst]
        rfl
      rwa [List.map_append, List.map_cons, hfst] at hmap
    have hposition : start rows i + edgeIndex =
        ((rows.take i).flatten ++ seen.map fun entry => slotOf index entry.1).length := by
      rw [List.length_append, List.length_map, start, hindex]
    have hfree : ((rows.take i).flatten ++ seen.map fun entry => slotOf index entry.1).length <
        rows.flatten.length := by
      rw [← hposition, hindex]
      refine start_add_lt hget ?_
      rw [← hrowsplit, List.length_append, List.length_map, List.length_cons]
      omega
    -- the edges so far, this one and the rest of the row, are part of all edges
    have hall : (edgesOf (rows.take i) ++ seen.map fun entry => (i, slotOf index entry.1)) ++
        (i, slotOf index address) :: (rest.map (fun entry => (i, slotOf index entry.1)) ++ after) =
          edgesOf rows := by
      rw [← hafter, ← hrowsplit, List.map_append, List.map_cons, List.map_map, List.map_map]
      simp only [List.append_assoc, List.cons_append, Function.comp_def]
    have hcount := entriesOf_lt hall
    have hcolumn := hrows.column_lt (slotOf index address)
    obtain ⟨edges', hrun, hedges'⟩ := addEdge_ok hseen i hposition hfree hrows.total
      (hrows.lt row hrowmem _ hslot) (by omega)
    refine ⟨edges', hrun, ?_⟩
    simp only [inv, List.map_append, List.map_cons, List.map_nil, ← List.append_assoc]
    exact hedges'
  have hstart : inv [] edges := by
    simp only [inv, List.map_nil, List.append_nil]
    exact h
  obtain ⟨edges', hrun, hedges'⟩ := foldlM_ok inv hstart hround
  have hoffset : (prefixSums (2 ^ 64) (objects.map fun object => object.referents.length))[i]? =
      some (start rows i) := by
    rw [← @lengths_rowsOf index]
    exact getElem?_prefixSums hrows.total (Nat.le_of_lt hilt)
  refine ⟨edges', ?_, ?_⟩
  · rw [addEdges, bind_ok (getAt_ok hoffset)]
    exact hrun
  · have hfst : object.referents.zipIdx.map (fun entry => slotOf index entry.1) = row := by
      rw [hrow, ← List.zipIdx_map_fst 0 object.referents, List.map_map, List.zipIdx_map_fst]
      rfl
    have hedge : object.referents.zipIdx.map (fun entry => (i, slotOf index entry.1)) =
        row.map fun target => (i, target) := by
      rw [← hfst, List.map_map]
      rfl
    simp only [inv, hfst, hedge] at hedges'
    rw [edgesOf_take_succ hget, List.take_add_one, hget, List.flatten_append, Option.toList_some,
      List.flatten_singleton]
    exact hedges'

/-- **The referents of all objects.** -/
theorem allEdges_ok {objects : List Object} {n : ℕ} (hrows : RowsOk (rowsOf index objects) n) :
    ∃ edges, objects.zipIdx.foldlM
        (addEdges index (prefixSums (2 ^ 64) (objects.map fun object => object.referents.length)))
        ⟨List.replicate (rowsOf index objects).flatten.length 0, List.replicate n 0⟩ = .ok edges ∧
      edges.referents = (rowsOf index objects).flatten ∧
      Counted n (fun _ => 0) (edgesOf (rowsOf index objects)) edges.inboundCount := by
  set rows := rowsOf index objects with hrowsdef
  let inv (seen : List (Object × ℕ)) (edges : Edges) : Prop :=
    EdgesAt rows.flatten.length n (rows.take seen.length).flatten (edgesOf (rows.take seen.length)) edges
  have hround : ∀ seen entry rest edges, seen ++ entry :: rest = objects.zipIdx → inv seen edges →
      ∃ edges', addEdges index (prefixSums (2 ^ 64) (objects.map fun object => object.referents.length)) edges
        entry = .ok edges' ∧ inv (seen ++ [entry]) edges' := by
    rintro seen ⟨object, i⟩ rest edges hsplit hseen
    obtain ⟨rfl, hobject⟩ := zipIdx_split hsplit
    simp only [inv, List.length_append, List.length_singleton]
    exact addEdges_ok hrows hobject hseen
  have hstart : inv [] ⟨List.replicate rows.flatten.length 0, List.replicate n 0⟩ := by
    refine ⟨Filled.init _, ?_⟩
    refine List.ext_getElem (by simp) fun i hi hi' => ?_
    simp [entriesOf, edgesOf]
  obtain ⟨edges, hrun, hedges⟩ := foldlM_ok inv hstart hround
  have hlen : rows.take objects.zipIdx.length = rows := by
    rw [List.length_zipIdx, List.take_of_length_le (by rw [hrowsdef, length_rowsOf])]
  simp only [inv, hlen] at hedges
  exact ⟨edges, hrun, hedges.referents.full rfl, hedges.inboundCount⟩

/-- What holds of `inbound` and `cursor` once these edges are placed. -/
abbrev PlacedAt (rows : List (List ℕ)) (n : ℕ) (seen : List (ℕ × ℕ)) (placing : Placing) : Prop :=
  Scattered (edgesOf rows) n seen placing.inbound placing.cursor

/-- **The places of one object** in the lists of those it refers to. -/
theorem placeEdges_ok {rows : List (List ℕ)} {n : ℕ} (hrows : RowsOk rows n) {placing : Placing} {source : ℕ}
    (hsource : source < rows.length) (h : PlacedAt rows n (edgesOf (rows.take source)) placing) :
    ∃ placing', placeEdges (prefixSums (2 ^ 64) (rows.map List.length)) rows.flatten placing source = .ok placing' ∧
      PlacedAt rows n (edgesOf (rows.take (source + 1))) placing' := by
  have hget : rows[source]? = some rows[source] := List.getElem?_eq_getElem hsource
  obtain ⟨after, hafter⟩ := edgesOf_split hget
  have hcount := hrows.count
  let inv (seen : List ℕ) (placing : Placing) : Prop :=
    PlacedAt rows n (edgesOf (rows.take source) ++ seen.map fun target => (source, target)) placing
  have hround : ∀ seen target rest placing, seen ++ target :: rest = rows[source] → inv seen placing →
      ∃ placing', placeSource source placing target = .ok placing' ∧ inv (seen ++ [target]) placing' := by
    intro seen target rest placing hsplit hseen
    have htarget : target < n := hrows.lt rows[source] (List.getElem_mem hsource) target
      (hsplit ▸ List.mem_append_right _ List.mem_cons_self)
    have hall : (edgesOf (rows.take source) ++ seen.map fun target => (source, target)) ++
        (source, target) :: (rest.map (fun target => (source, target)) ++ after) = edgesOf rows := by
      rw [← hafter, ← hsplit, List.map_append, List.map_cons]
      simp only [List.append_assoc, List.cons_append]
    obtain ⟨position, hcursor, hposition, hplaced⟩ := hseen.place hall htarget
    have hcursorlt : target < placing.cursor.length := (List.getElem?_eq_some_iff.1 hcursor).1
    have hlen : placing.inbound.length < 2 ^ 64 := by
      rw [hseen.data, List.length_flatten, lengths_table hall, ← lengths_table (List.append_nil (edgesOf rows)),
        ← List.length_flatten]
      exact hrows.inboundTotal
    refine ⟨⟨placing.inbound.set position source, placing.cursor.set target (position + 1)⟩, ?_, ?_⟩
    · rw [placeSource, bind_ok (getAt_ok hcursor), Nat.mod_eq_of_lt (by omega), bind_ok (setAt_ok hposition _),
        Nat.mod_eq_of_lt (by omega), bind_ok (setAt_ok hcursorlt _)]
      rfl
    · simp only [inv, List.map_append, List.map_cons, List.map_nil, ← List.append_assoc]
      exact hplaced
  have hstart : inv [] placing := by
    simp only [inv, List.map_nil, List.append_nil]
    exact h
  obtain ⟨placing', hrun, hplaced⟩ := foldlM_ok inv hstart hround
  have hlow := getElem?_prefixSums hrows.total (Nat.le_of_lt hsource)
  have hhigh := getElem?_prefixSums hrows.total (Nat.succ_le_of_lt hsource)
  refine ⟨placing', ?_, ?_⟩
  · rw [placeEdges, bind_ok (getAt_ok hlow), bind_ok (getAt_ok hhigh), bind_ok (sliceOf_row hget)]
    exact hrun
  · rw [edgesOf_take_succ hget]
    exact hplaced

/-- **The places of all objects.** -/
theorem allPlaces_ok {rows : List (List ℕ)} {n : ℕ} (hrows : RowsOk rows n) :
    ∃ placing, (List.range rows.length).foldlM
        (placeEdges (prefixSums (2 ^ 64) (rows.map List.length)) rows.flatten)
        ⟨List.replicate (table (edgesOf rows) n (edgesOf rows)).flatten.length 0,
          (List.range n).map (start (table (edgesOf rows) n (edgesOf rows)))⟩ = .ok placing ∧
      placing.inbound = (table (edgesOf rows) n (edgesOf rows)).flatten := by
  let inv (seen : List ℕ) (placing : Placing) : Prop :=
    PlacedAt rows n (edgesOf (rows.take seen.length)) placing
  have hround : ∀ seen source rest placing, seen ++ source :: rest = List.range rows.length → inv seen placing →
      ∃ placing', placeEdges (prefixSums (2 ^ 64) (rows.map List.length)) rows.flatten placing source = .ok placing' ∧
        inv (seen ++ [source]) placing' := by
    intro seen source rest placing hsplit hseen
    have hget : (List.range rows.length)[seen.length]? = some source := by
      rw [← hsplit, List.getElem?_append_right (Nat.le_refl _), Nat.sub_self, List.getElem?_cons_zero]
    obtain ⟨hlt, hsource⟩ := List.getElem?_eq_some_iff.1 hget
    rw [List.getElem_range] at hsource
    rw [List.length_range] at hlt
    subst hsource
    simp only [inv, List.length_append, List.length_singleton]
    exact placeEdges_ok hrows hlt hseen
  have hstart : inv [] ⟨List.replicate (table (edgesOf rows) n (edgesOf rows)).flatten.length 0,
      (List.range n).map (start (table (edgesOf rows) n (edgesOf rows)))⟩ :=
    Scattered.init (edgesOf rows) n
  obtain ⟨placing, hrun, hplaced⟩ := foldlM_ok inv hstart hround
  simp only [inv, List.length_range, List.take_length] at hplaced
  exact ⟨placing, hrun, hplaced.data⟩

/-! ### The graph -/

/-- The rows as a graph holds them. -/
structure Laid (rows : List (List ℕ)) (n : ℕ) (graph : Graph) : Prop where
  ok : RowsOk rows n
  objectCount : graph.objectCount = rows.length
  refOffsets : graph.refOffsets = prefixSums (2 ^ 64) (rows.map List.length)
  referents : graph.referents = rows.flatten
  inboundOffset : graph.inboundOffset = prefixSums (2 ^ 64) ((table (edgesOf rows) n (edgesOf rows)).map List.length)
  inbound : graph.inbound = (table (edgesOf rows) n (edgesOf rows)).flatten

/-- **`BuildGraph` succeeds** and lays out the references. -/
theorem buildGraph_ok (orders : Orders) (hwf : value.Indexable) (hfits : value.FitsIndex) :
    ∃ graph nodes, buildGraph orders value = .ok graph ∧ Numbered value graph.addressIndex nodes ∧
      Laid (rowsOf graph.addressIndex value.objects) nodes.length graph := by
  obtain ⟨index, nodes, hindex, hnumbered⟩ := indexAddresses_ok orders hwf hfits
  have hrows := hnumbered.rowsOk hwf hfits
  set rows := rowsOf index value.objects with hrowsdef
  have hcount : checkObjectCount value = .ok () := by
    rw [checkObjectCount, if_neg (Nat.not_lt.2 hwf.count)]
    rfl
  have hlengths : (value.objects.map fun object => object.referents.length) = rows.map List.length :=
    lengths_rowsOf.symm
  have hlast : getAt (prefixSums (2 ^ 64) (rows.map List.length))
      ((prefixSums (2 ^ 64) (rows.map List.length)).length - 1) = .ok rows.flatten.length := by
    rw [length_prefixSums, Nat.add_sub_cancel, List.length_map]
    refine getAt_ok ((getElem?_prefixSums hrows.total (Nat.le_refl _)).trans ?_)
    rw [start, List.take_length]
  obtain ⟨edges, hedges, hreferents, hcounted⟩ := allEdges_ok hrows
  have hcounts : edges.inboundCount =
      (table (edgesOf rows) nodes.length (edgesOf rows)).map List.length := by
    rw [hcounted, lengths_table (List.append_nil (edgesOf rows))]
    exact List.map_congr_left fun v _ => Nat.zero_add _
  set columns := table (edgesOf rows) nodes.length (edgesOf rows) with hcolumns
  have hinboundLast : getAt (prefixSums (2 ^ 64) (columns.map List.length))
      ((prefixSums (2 ^ 64) (columns.map List.length)).length - 1) = .ok columns.flatten.length := by
    rw [length_prefixSums, Nat.add_sub_cancel, List.length_map]
    refine getAt_ok ((getElem?_prefixSums hrows.inboundTotal (Nat.le_refl _)).trans ?_)
    rw [start, List.take_length]
  have hcursor : (prefixSums (2 ^ 64) (columns.map List.length)).dropLast =
      (List.range nodes.length).map (start columns) := by
    have hlen : columns.length = nodes.length := by rw [hcolumns, table, List.length_map, List.length_range]
    refine List.ext_getElem? fun v => ?_
    rw [List.getElem?_dropLast, length_prefixSums, Nat.add_sub_cancel, List.length_map, hlen, List.getElem?_map]
    split_ifs with hv
    · rw [getElem?_prefixSums hrows.inboundTotal (by rw [← hcolumns, hlen]; omega), List.getElem?_range hv,
        Option.map_some]
    · rw [List.getElem?_eq_none (by rw [List.length_range]; omega)]
      rfl
  obtain ⟨placing, hplacing, hinbound⟩ := allPlaces_ok hrows
  rw [hrowsdef, length_rowsOf, ← hrowsdef] at hplacing
  have hmod : value.objects.length % 2 ^ 32 = rows.length := by
    have := hwf.count
    rw [hrowsdef, length_rowsOf, Nat.mod_eq_of_lt (by omega)]
  have hrun : buildGraph orders value = .ok ⟨value.objects.length % 2 ^ 32, index,
      prefixSums (2 ^ 64) (rows.map List.length), edges.referents,
      prefixSums (2 ^ 64) edges.inboundCount, placing.inbound⟩ := by
    rw [buildGraph, bind_ok hcount, bind_ok hindex, hlengths, bind_ok hlast, hnumbered.interned.length,
      ← hlengths, bind_ok hedges, hcounts, hreferents, hlengths, bind_ok hinboundLast, hcursor, bind_ok hplacing]
    rfl
  exact ⟨_, nodes, hrun, hnumbered, hrows, hmod, rfl, hreferents, by rw [hcounts], hinbound⟩

/-- The rows as a reference graph on the numbers of the nodes. -/
def nodeGraph (rows : List (List ℕ)) : RefGraph ℕ where
  objects := Finset.range rows.length
  succ i := ((rows[i]?).getD []).toFinset
  succ_eq_empty i hi := by
    rw [List.getElem?_eq_none (Nat.not_lt.1 fun hlt => hi (Finset.mem_range.2 hlt))]
    rfl

/-- `InboundCount`, a number in any case. -/
def Graph.countOf (graph : Graph) (node : ℕ) : ℤ :=
  match graph.inboundCount node with
  | .ok count => count
  | .error _ => 0

section Laid

variable {rows : List (List ℕ)} {n : ℕ} {graph : Graph}

/-- The graph refers from a row to what it holds. -/
theorem nodeGraph_succ {i : ℕ} {row : List ℕ} (h : rows[i]? = some row) : (nodeGraph rows).succ i = row.toFinset := by
  change ((rows[i]?).getD []).toFinset = _
  rw [h, Option.getD_some]

/-- The referrers in the table are those of the graph. -/
theorem RowsOk.toFinset_entriesOf (h : RowsOk rows n) (v : ℕ) :
    (entriesOf (edgesOf rows) v).toFinset = (nodeGraph rows).inbound v := by
  ext i
  rw [List.mem_toFinset, mem_entriesOf_edgesOf h.nodup, RefGraph.mem_inbound]
  constructor
  · rintro ⟨row, hi, hv⟩
    rw [nodeGraph_succ hi]
    exact List.mem_toFinset.2 hv
  · intro hv
    have hi : i < rows.length := Finset.mem_range.1 (RefGraph.mem_objects_of_succ hv)
    rw [nodeGraph_succ (List.getElem?_eq_getElem hi)] at hv
    exact ⟨_, List.getElem?_eq_getElem hi, List.mem_toFinset.1 hv⟩

/-- A row of the table is as long as there are referrers. -/
theorem RowsOk.length_entriesOf (h : RowsOk rows n) (v : ℕ) :
    (entriesOf (edgesOf rows) v).length = ((nodeGraph rows).inbound v).card := by
  rw [← h.toFinset_entriesOf, List.toFinset_card_of_nodup (nodup_entriesOf_edgesOf h.nodup v)]

/-- The graph refers to rows. -/
theorem RowsOk.succ_lt (h : RowsOk rows n) {i y : ℕ} (hy : y ∈ (nodeGraph rows).succ i) : y < n := by
  have hi : i < rows.length := Finset.mem_range.1 (RefGraph.mem_objects_of_succ hy)
  rw [nodeGraph_succ (List.getElem?_eq_getElem hi)] at hy
  exact h.lt _ (List.getElem_mem hi) y (List.mem_toFinset.1 hy)

/-- The number of an object, and the next one, are numbers of 32 bits. -/
theorem RowsOk.succ_small (h : RowsOk rows n) {i : ℕ} (hi : i < rows.length) : i + 1 < 2 ^ 32 := by
  have := h.count
  omega

/-- **`ObjectReferents`** -/
theorem Laid.objectReferents (h : Laid rows n graph) {i : ℕ} {row : List ℕ} (hi : rows[i]? = some row) :
    graph.objectReferents i = .ok row := by
  have hlt : i < rows.length := (List.getElem?_eq_some_iff.1 hi).1
  rw [Graph.objectReferents, h.refOffsets, h.referents, Nat.mod_eq_of_lt (h.ok.succ_small hlt),
    bind_ok (getAt_ok (getElem?_prefixSums h.ok.total (Nat.le_of_lt hlt))),
    bind_ok (getAt_ok (getElem?_prefixSums h.ok.total hlt))]
  exact sliceOf_row hi

/-- The table has its number of rows. -/
theorem length_table (all seen : List (ℕ × ℕ)) (n : ℕ) : (table all n seen).length = n := by
  rw [table, List.length_map, List.length_range]

/-- **`InboundReferences`** -/
theorem Laid.inboundReferences (h : Laid rows n graph) {v : ℕ} (hv : v < n) (hsmall : v + 1 < 2 ^ 32) :
    graph.inboundReferences v = .ok (entriesOf (edgesOf rows) v) := by
  have hlen := length_table (edgesOf rows) (edgesOf rows) n
  have hrow : (table (edgesOf rows) n (edgesOf rows))[v]? = some (entriesOf (edgesOf rows) v) := by
    rw [getElem?_table hv, paddedRow_all]
  rw [Graph.inboundReferences, h.inboundOffset, h.inbound, Nat.mod_eq_of_lt hsmall,
    bind_ok (getAt_ok (getElem?_prefixSums h.ok.inboundTotal (by omega))),
    bind_ok (getAt_ok (getElem?_prefixSums h.ok.inboundTotal (by omega)))]
  exact sliceOf_row hrow

/-- **`InboundCount`** fails for no node. -/
theorem Laid.inboundCount (h : Laid rows n graph) {v : ℕ} (hv : v < n) :
    graph.inboundCount v = .ok (graph.countOf v) := by
  have hlen := length_table (edgesOf rows) (edgesOf rows) n
  have hnext : (v + 1) % 2 ^ 32 ≤ n := le_trans (Nat.mod_le _ _) hv
  have hrun : ∃ count, graph.inboundCount v = .ok count := by
    rw [Graph.inboundCount, h.inboundOffset,
      bind_ok (getAt_ok (getElem?_prefixSums h.ok.inboundTotal (by rw [hlen]; exact hnext))),
      bind_ok (getAt_ok (getElem?_prefixSums h.ok.inboundTotal (by omega)))]
    exact ⟨_, rfl⟩
  obtain ⟨count, hcount⟩ := hrun
  rw [Graph.countOf, hcount]

/-- **It counts the referrers**, unless the next number wraps. -/
theorem Laid.countOf_eq (h : Laid rows n graph) {v : ℕ} (hv : v < n) (hsmall : v + 1 < 2 ^ 32) :
    graph.countOf v = ((nodeGraph rows).inbound v).card := by
  have hlen := length_table (edgesOf rows) (edgesOf rows) n
  have hrow : (table (edgesOf rows) n (edgesOf rows))[v]? = some (entriesOf (edgesOf rows) v) := by
    rw [getElem?_table hv, paddedRow_all]
  have hcolumn := h.ok.column_lt v
  have htotal := h.ok.inboundTotal
  have hstart := start_succ hrow
  have hle : start (table (edgesOf rows) n (edgesOf rows)) (v + 1) ≤
      (table (edgesOf rows) n (edgesOf rows)).flatten.length := by
    rw [flatten_split hrow, hstart, start, List.length_append, List.length_append]
    omega
  have hrun : graph.inboundCount v = .ok ((entriesOf (edgesOf rows) v).length : ℤ) := by
    rw [Graph.inboundCount, h.inboundOffset, Nat.mod_eq_of_lt hsmall,
      bind_ok (getAt_ok (getElem?_prefixSums h.ok.inboundTotal (by omega))),
      bind_ok (getAt_ok (getElem?_prefixSums h.ok.inboundTotal (by omega)))]
    have hdiff : (start (table (edgesOf rows) n (edgesOf rows)) (v + 1) + 2 ^ 64 -
        start (table (edgesOf rows) n (edgesOf rows)) v) % 2 ^ 64 = (entriesOf (edgesOf rows) v).length := by
      omega
    rw [hdiff, toInt, if_pos (by omega)]
    rfl
  rw [Graph.countOf, hrun, h.ok.length_entriesOf]

end Laid

end Go
end Pydump
