/-
# The graph represents the heap

`Graph.Represents` says what the compact graph is for: the addresses of the heap
have the numbers from 0 on, the objects first; `ObjectReferents` is the list of
referents by their numbers, `InboundReferences` the objects that refer to a node
in ascending order, and `InboundCount` says how many they are.

`BuildGraph` never leaves an array on a heap without repetitions
(`buildGraph_error`), and what it returns is laid out as `Laid` says
(`laid_of_buildGraph`).  The accessors read the start of the next row at
`node + 1` in 32 bits.  `addAddress` lets the index grow to 2^32 addresses, and for
the last of these the next row is row 0: what the graph returns there is right
only when nothing is referred to at all.
-/

import Mathlib.Data.Set.Function
import Pydump.Go.GraphSpec

namespace Pydump
namespace Go

open ExceptLoop
open RowTable

variable {value : Heap} {graph : Graph}

/-! ### The addresses of a heap -/

/-- The addresses that the threads hold. -/
def Heap.localAddresses (value : Heap) : Finset ℕ :=
  value.threads.foldr (fun thread addresses => thread.localAddresses ∪ addresses) ∅

/-- The addresses of the objects, their referents and the locals. -/
def Heap.addresses (value : Heap) : Finset ℕ :=
  (value.objects.flatMap fun object => object.address :: object.referents).toFinset ∪ value.localAddresses

/-- The addresses of the locals are those of the threads. -/
theorem mem_localAddresses {address : ℕ} :
    address ∈ value.localAddresses ↔ ∃ thread ∈ value.threads, address ∈ thread.localAddresses := by
  rw [Heap.localAddresses]
  induction value.threads with
  | nil => simp
  | cons thread threads ih => rw [List.foldr_cons, Finset.mem_union, ih, List.exists_mem_cons_iff]

/-- The addresses of a heap are its nodes. -/
theorem mem_addresses {address : ℕ} : address ∈ value.addresses ↔ value.IsNode address := by
  rw [Heap.addresses, Finset.mem_union, List.mem_toFinset, List.mem_flatMap, mem_localAddresses, Heap.IsNode]
  simp only [List.mem_cons]

/-- The object at index `source` refers to the node `target`. -/
def Graph.RefersTo (graph : Graph) (value : Heap) (source target : ℕ) : Prop :=
  ∃ object, value.objects[source]? = some object ∧
    ∃ address ∈ object.referents, graph.addressIndex.find? address = some target

/-- The graph represents the heap. -/
structure Graph.Represents (graph : Graph) (value : Heap) : Prop where
  /-- The index is a bijection from the addresses of the heap to the first numbers. -/
  keys : ∀ address, address ∈ graph.addressIndex.keys ↔ value.IsNode address
  bijective : Set.BijOn (slotOf graph.addressIndex) {address | value.IsNode address}
    (Set.Iio graph.addressIndex.entries.length)
  /-- No number has wrapped. -/
  nodes : graph.addressIndex.entries.length ≤ 2 ^ 32
  /-- The objects come first. -/
  objects : ∀ i object, value.objects[i]? = some object → graph.addressIndex.find? object.address = some i
  objectCount : graph.objectCount = value.objects.length
  referents : ∀ i object, value.objects[i]? = some object →
    graph.objectReferents i = .ok (object.referents.map (slotOf graph.addressIndex))
  /-- The counts of the first loop, the inbound references and `InboundCount` agree. -/
  inbound : ∃ counts, value.objects.zipIdx.foldlM (addEdges graph.addressIndex graph.refOffsets)
      ⟨List.replicate graph.referents.length 0, List.replicate graph.addressIndex.entries.length 0⟩ =
        .ok ⟨graph.referents, counts⟩ ∧
    ∀ node < graph.addressIndex.entries.length, ∃ sources, graph.inboundReferences node = .ok sources ∧
      sources.Pairwise (· < ·) ∧ (∀ source, source ∈ sources ↔ graph.RefersTo value source node) ∧
      graph.inboundCount node = .ok (sources.length : ℤ) ∧
      counts[node]? = some sources.length ∧ sources.length < 2 ^ 32

/-! ### What `BuildGraph` returns -/

/-- `addAddress` fails with a message only. -/
theorem addAddress_error {index : OrderedDict ℕ ℕ} {address : ℕ} :
    addAddress index address ≠ .error .indexOutOfRange := by
  unfold addAddress
  split_ifs
  · exact fun h => by cases h
  · exact fun h => by cases h
  · exact fun h => by cases h

/-- Addresses are added or there are too many. -/
theorem addAddresses_error (index : OrderedDict ℕ ℕ) (addresses : List ℕ) :
    addresses.foldlM addAddress index ≠ .error .indexOutOfRange := by
  intro h
  rcases foldlM_cases addAddress addresses index with ⟨index', hrun⟩ | ⟨_, _, _, _, _, _, _, hadd, hrun⟩
  · rw [hrun] at h
    cases h
  · rw [hrun] at h
    rw [Except.error.inj h] at hadd
    exact addAddress_error hadd

/-- **The index fails with a message only.** -/
theorem indexAddresses_error (orders : Orders) (value : Heap) :
    indexAddresses orders value ≠ .error .indexOutOfRange := by
  have hloop : ∀ {β : Type} (addresses : β → List ℕ) (xs : List β) (index : OrderedDict ℕ ℕ),
      xs.foldlM (fun index x => (addresses x).foldlM addAddress index) index ≠ .error .indexOutOfRange := by
    intro β addresses xs index h
    rcases foldlM_cases (fun index x => (addresses x).foldlM addAddress index) xs index with
      ⟨index', hrun⟩ | ⟨_, _, _, _, _, _, _, hadd, hrun⟩
    · rw [hrun] at h
      cases h
    · rw [hrun] at h
      rw [Except.error.inj h] at hadd
      exact addAddresses_error _ _ hadd
  rw [indexAddresses]
  exact bind_ne_error (hloop Object.referents value.objects _) fun index =>
    hloop (fun entry => orders.walk (.graphLocals entry.2) entry.1.localAddresses) value.threads.zipIdx index

section Build

variable {orders : Orders}

/-- What a call that returns has checked. -/
theorem count_of_buildGraph (h : buildGraph orders value = .ok graph) : value.objects.length ≤ 2 ^ 32 - 1 := by
  rw [buildGraph, bind_eq_ok] at h
  obtain ⟨_, hcheck, -⟩ := h
  unfold checkObjectCount at hcheck
  split_ifs at hcheck with hmany
  · exact Nat.not_lt.1 hmany

/-- A graph that is built has no more nodes than fit. -/
theorem fitsIndex_of_buildGraph (hwf : value.Indexable) (h : buildGraph orders value = .ok graph) :
    value.FitsIndex := by
  rw [buildGraph, bind_eq_ok] at h
  obtain ⟨-, -, h⟩ := h
  rw [bind_eq_ok] at h
  obtain ⟨index, hindex, -⟩ := h
  exact fitsIndex_of_indexAddresses orders hwf hindex

/-- **A graph that was built** is laid out by rows. -/
theorem laid_of_buildGraph (hwf : value.Indexable) (h : buildGraph orders value = .ok graph) :
    ∃ nodes, Numbered value graph.addressIndex nodes ∧
      Laid (rowsOf graph.addressIndex value.objects) nodes.length graph := by
  obtain ⟨graph', nodes, hgraph, hnumbered, hlaid⟩ := buildGraph_ok orders hwf (fitsIndex_of_buildGraph hwf h)
  rw [h] at hgraph
  obtain rfl := Except.ok.inj hgraph
  exact ⟨nodes, hnumbered, hlaid⟩

/-- **No index is out of range** while the graph is built. -/
theorem buildGraph_error (haddresses : (value.objects.map Object.address).Nodup)
    (hreferents : ∀ object ∈ value.objects, object.referents.Nodup) :
    buildGraph orders value ≠ .error .indexOutOfRange := by
  rcases Nat.lt_or_ge (2 ^ 32 - 1) value.objects.length with hmany | hcount
  · have hcheck : checkObjectCount value = .error (.failed
        s!"heap has too many objects for uint32 graph indexes: {value.objects.length}") := if_pos hmany
    rw [buildGraph, bind_error hcheck]
    exact fun h => by cases h
  · have hwf : value.Indexable := ⟨haddresses, hreferents, hcount⟩
    cases hindex : indexAddresses orders value with
    | ok index =>
      obtain ⟨graph, -, hgraph, -⟩ := buildGraph_ok orders hwf (fitsIndex_of_indexAddresses orders hwf hindex)
      rw [hgraph]
      exact fun h => by cases h
    | error e =>
      have hcheck : checkObjectCount value = .ok () := if_neg (Nat.not_lt.2 hcount)
      rw [buildGraph, bind_ok hcheck, bind_error hindex]
      exact fun h => indexAddresses_error orders value (hindex.trans (by rw [Except.error.inj h]))

end Build

/-! ### The index -/

variable {index : OrderedDict ℕ ℕ} {nodes : List ℕ}

/-- **The index is a bijection** from the addresses to the first numbers. -/
theorem Numbered.bijOn (h : Numbered value index nodes) :
    Set.BijOn (slotOf index) {address | value.IsNode address} (Set.Iio nodes.length) := by
  refine ⟨fun a ha => h.slotOf_lt ((h.mem a).2 ha), fun a ha b hb hab => ?_, fun node hnode => ?_⟩
  · exact h.slotOf_inj ((h.mem a).2 ha) ((h.mem b).2 hb) hab
  · obtain ⟨address, haddress⟩ : ∃ address, nodes[node]? = some address :=
      ⟨_, List.getElem?_eq_getElem (Set.mem_Iio.1 hnode)⟩
    refine ⟨address, (h.mem address).1 (List.mem_of_getElem? haddress), ?_⟩
    rw [slotOf, h.interned.find?.2 haddress, Option.getD_some]

/-- There are as many addresses as nodes. -/
theorem Numbered.card_addresses (h : Numbered value index nodes) : value.addresses.card = nodes.length := by
  rw [← List.toFinset_card_of_nodup h.interned.nodup]
  refine congrArg Finset.card (Finset.ext fun a => ?_)
  rw [mem_addresses, List.mem_toFinset, h.mem]

/-- An object is looked up under its place. -/
theorem Numbered.find?_object (h : Numbered value index nodes) {i : ℕ} {object : Object}
    (hi : value.objects[i]? = some object) : index.find? object.address = some i :=
  h.interned.find?.2 (h.getElem?_object hi)

/-- A referent is looked up as the source does. -/
theorem Numbered.find?_eq_some_iff (h : Numbered value index nodes) {address node : ℕ} (ha : address ∈ nodes) :
    index.find? address = some node ↔ slotOf index address = node := by
  have hfind := h.interned.find?.2 (h.getElem?_slotOf ha)
  rw [hfind, Option.some_inj]

/-- The rows that hold a node are those of the objects that refer to it. -/
theorem Numbered.mem_entriesOf (h : Numbered value graph.addressIndex nodes)
    (hrows : ∀ row ∈ rowsOf graph.addressIndex value.objects, row.Nodup) {source target : ℕ} :
    source ∈ entriesOf (edgesOf (rowsOf graph.addressIndex value.objects)) target ↔
      graph.RefersTo value source target := by
  rw [mem_entriesOf_edgesOf hrows]
  constructor
  · rintro ⟨row, hrow, ht⟩
    rw [getElem?_rowsOf, Option.map_eq_some_iff] at hrow
    obtain ⟨object, hobject, rfl⟩ := hrow
    obtain ⟨address, ha, hslot⟩ := List.mem_map.1 ht
    exact ⟨object, hobject, address, ha,
      (h.find?_eq_some_iff (h.referent_mem (List.mem_of_getElem? hobject) ha)).2 hslot⟩
  · rintro ⟨object, hobject, address, ha, hfind⟩
    refine ⟨_, by rw [getElem?_rowsOf, hobject, Option.map_some], List.mem_map.2 ⟨address, ha, ?_⟩⟩
    exact (h.find?_eq_some_iff (h.referent_mem (List.mem_of_getElem? hobject) ha)).1 hfind

/-! ### The accessors at the last number -/

section Laid

variable {rows : List (List ℕ)} {n : ℕ}

/-- **At the number 2^32 - 1** the row ends where row 0 begins. -/
theorem Laid.inboundReferences_last (h : Laid rows n graph) (hn : n = 2 ^ 32) :
    graph.inboundReferences (2 ^ 32 - 1) =
      sliceOf graph.inbound (start (table (edgesOf rows) n (edgesOf rows)) (2 ^ 32 - 1)) 0 := by
  have hlen := length_table (edgesOf rows) (edgesOf rows) n
  have hnext : (2 ^ 32 - 1 + 1) % 2 ^ 32 = 0 := by decide
  rw [Graph.inboundReferences, h.inboundOffset, hnext,
    bind_ok (getAt_ok (getElem?_prefixSums h.ok.inboundTotal (by omega))),
    bind_ok (getAt_ok (getElem?_prefixSums h.ok.inboundTotal (by omega)))]
  rfl

/-- **There is no such row** when anything refers to a node before it. -/
theorem Laid.inboundReferences_panics (h : Laid rows n graph) (hn : n = 2 ^ 32) {target : ℕ}
    (htarget : target < 2 ^ 32 - 1) (hentries : entriesOf (edgesOf rows) target ≠ []) :
    graph.inboundReferences (2 ^ 32 - 1) = .error .indexOutOfRange := by
  have hrow : (table (edgesOf rows) n (edgesOf rows))[target]? = some (entriesOf (edgesOf rows) target) := by
    rw [getElem?_table (by omega), paddedRow_all]
  have hpos : start (table (edgesOf rows) n (edgesOf rows)) (2 ^ 32 - 1) ≠ 0 := by
    intro hzero
    rw [start, List.length_eq_zero_iff, List.flatten_eq_nil_iff] at hzero
    refine hentries (hzero _ (List.mem_of_getElem? (i := target) ?_))
    rw [List.getElem?_take_of_lt htarget, hrow]
  rw [h.inboundReferences_last hn, sliceOf, if_neg fun hle => hpos (Nat.le_zero.1 hle.1)]

/-- **When it can be read there**, nothing is referred to. -/
theorem Laid.edgeless_of_last (h : Laid rows n graph) (hn : n = 2 ^ 32) {sources : List ℕ}
    (hread : graph.inboundReferences (2 ^ 32 - 1) = .ok sources)
    (hsources : ∀ source, source ∈ sources ↔ source ∈ entriesOf (edgesOf rows) (2 ^ 32 - 1)) (target : ℕ)
    (htarget : target < n) : entriesOf (edgesOf rows) target = [] := by
  by_cases hlast : target = 2 ^ 32 - 1
  · rw [h.inboundReferences_last hn] at hread
    unfold sliceOf at hread
    split_ifs at hread with hle
    · obtain rfl := Except.ok.inj hread
      rw [hlast, List.eq_nil_iff_forall_not_mem]
      refine fun source hm => absurd ((hsources source).2 hm) ?_
      rw [slice, Nat.zero_sub, List.take_zero]
      exact List.not_mem_nil
  · by_contra hentries
    rw [h.inboundReferences_panics hn (by omega) hentries] at hread
    cases hread

/-- Without references every row of the inbound array is empty. -/
theorem Laid.inbound_of_edgeless (h : Laid rows n graph) (hrows : ∀ row ∈ rows, row = []) {v : ℕ} (hv : v < n) :
    entriesOf (edgesOf rows) v = [] ∧ graph.inboundReferences v = .ok [] ∧ graph.inboundCount v = .ok 0 := by
  have hempty : ∀ u, entriesOf (edgesOf rows) u = [] := fun u => by
    rw [List.eq_nil_iff_forall_not_mem]
    intro source hm
    obtain ⟨row, hrow, hu⟩ := (mem_entriesOf_edgesOf h.ok.nodup).1 hm
    rw [hrows row (List.mem_of_getElem? hrow)] at hu
    exact absurd hu List.not_mem_nil
  have hcolumns : ∀ row ∈ table (edgesOf rows) n (edgesOf rows), row = [] := fun row hrow => by
    obtain ⟨u, -, rfl⟩ := List.mem_map.1 hrow
    rw [paddedRow_all, hempty]
  have hstart : ∀ i, start (table (edgesOf rows) n (edgesOf rows)) i = 0 := fun i => by
    rw [start, List.length_eq_zero_iff, List.flatten_eq_nil_iff]
    exact fun row hrow => hcolumns row (List.mem_of_mem_take hrow)
  have hlen := length_table (edgesOf rows) (edgesOf rows) n
  have hnext : (v + 1) % 2 ^ 32 ≤ n := le_trans (Nat.mod_le _ _) hv
  have hlow := getElem?_prefixSums h.ok.inboundTotal (Nat.le_of_lt (hlen.symm ▸ hv))
  have hhigh := getElem?_prefixSums h.ok.inboundTotal (hlen.symm ▸ hnext)
  rw [hstart] at hlow hhigh
  refine ⟨hempty v, ?_, ?_⟩
  · rw [Graph.inboundReferences, h.inboundOffset, bind_ok (getAt_ok hlow), bind_ok (getAt_ok hhigh), sliceOf,
      if_pos ⟨Nat.le_refl 0, Nat.zero_le _⟩]
    rfl
  · rw [Graph.inboundCount, h.inboundOffset, bind_ok (getAt_ok hhigh), bind_ok (getAt_ok hlow)]
    rfl

end Laid

/-! ### When the graph represents the heap -/

/-- The inbound array is read right below the number 2^32 - 1, and anywhere when nothing is
referred to. -/
theorem Laid.inbound_ok {rows : List (List ℕ)} {n : ℕ} (h : Laid rows n graph)
    (hfine : n < 2 ^ 32 ∨ ∀ row ∈ rows, row = []) {v : ℕ} (hv : v < n) :
    graph.inboundReferences v = .ok (entriesOf (edgesOf rows) v) ∧
      graph.inboundCount v = .ok ((entriesOf (edgesOf rows) v).length : ℤ) := by
  rcases hfine with hsmall | hrows
  · have hnext : v + 1 < 2 ^ 32 := by omega
    refine ⟨h.inboundReferences hv hnext, ?_⟩
    rw [h.inboundCount hv, h.countOf_eq hv hnext, h.ok.length_entriesOf]
  · obtain ⟨hempty, hread, hcount⟩ := h.inbound_of_edgeless hrows hv
    rw [hempty]
    exact ⟨hread, hcount⟩

/-- **The graph represents the heap** when the addresses leave the number `2 ^ 32 - 1` free, or
nothing is referred to. -/
theorem Laid.represents (hnumbered : Numbered value graph.addressIndex nodes)
    (h : Laid (rowsOf graph.addressIndex value.objects) nodes.length graph)
    (hfine : nodes.length < 2 ^ 32 ∨ ∀ object ∈ value.objects, object.referents = []) :
    graph.Represents value where
  keys address := by rw [hnumbered.interned.keys, hnumbered.mem]
  bijective := by
    rw [hnumbered.interned.length]
    exact hnumbered.bijOn
  nodes := by
    rw [hnumbered.interned.length]
    exact h.ok.nodes
  objects i object hi := hnumbered.find?_object hi
  objectCount := h.objectCount.trans length_rowsOf
  referents i object hi := h.objectReferents (by rw [getElem?_rowsOf, hi, Option.map_some])
  inbound := by
    obtain ⟨edges, hrun, hreferents, hcounted⟩ := allEdges_ok h.ok
    have hoffsets : graph.refOffsets = prefixSums (2 ^ 64)
        (value.objects.map fun object => object.referents.length) := by
      rw [h.refOffsets, lengths_rowsOf]
    refine ⟨edges.inboundCount, ?_, fun v hv => ?_⟩
    · rw [hoffsets, h.referents, hnumbered.interned.length, hrun, ← hreferents]
    · rw [hnumbered.interned.length] at hv
      have hrows : nodes.length < 2 ^ 32 ∨ ∀ row ∈ rowsOf graph.addressIndex value.objects, row = [] := by
        refine hfine.imp_right fun hnone row hrow => ?_
        obtain ⟨object, ho, rfl⟩ := List.mem_map.1 hrow
        rw [hnone object ho, List.map_nil]
      obtain ⟨hread, hcount⟩ := h.inbound_ok hrows hv
      refine ⟨_, hread, pairwise_entriesOf_edgesOf h.ok.nodup v, fun source => hnumbered.mem_entriesOf h.ok.nodup,
        hcount, ?_, h.ok.column_lt v⟩
      rw [hcounted, List.getElem?_map, List.getElem?_range hv, Option.map_some, Nat.zero_add]

/-- **Where the last number is in use** and the graph represents the heap, nothing is referred to. -/
theorem Graph.Represents.edgeless (hrep : graph.Represents value) (hnumbered : Numbered value graph.addressIndex nodes)
    (h : Laid (rowsOf graph.addressIndex value.objects) nodes.length graph) (hfull : nodes.length = 2 ^ 32) :
    ∀ object ∈ value.objects, object.referents = [] := by
  obtain ⟨counts, -, hinbound⟩ := hrep.inbound
  obtain ⟨sources, hread, -, hsources, -⟩ := hinbound (2 ^ 32 - 1) (by rw [hnumbered.interned.length]; omega)
  have hempty := h.edgeless_of_last hfull hread fun source => by
    rw [hsources, hnumbered.mem_entriesOf h.ok.nodup]
  intro object ho
  rw [List.eq_nil_iff_forall_not_mem]
  intro address ha
  obtain ⟨i, hi⟩ := List.mem_iff_getElem?.1 ho
  have hnode := hnumbered.referent_mem ho ha
  have hm : i ∈ entriesOf (edgesOf (rowsOf graph.addressIndex value.objects)) (slotOf graph.addressIndex address) :=
    (hnumbered.mem_entriesOf h.ok.nodup).2 ⟨object, hi, address, ha, (hnumbered.find?_eq_some_iff hnode).2 rfl⟩
  rw [hempty _ (hnumbered.slotOf_lt hnode)] at hm
  exact absurd hm List.not_mem_nil

/-- **The compact graph represents the heap** exactly when its addresses leave the number 2^32 - 1
free, or no object refers to anything.  On every heap without repetitions, whatever order Go walks
the locals in, `BuildGraph` reads and writes inside its arrays. -/
theorem graph_represents_iff (haddresses : (value.objects.map Object.address).Nodup)
    (hreferents : ∀ object ∈ value.objects, object.referents.Nodup) (orders : Orders) :
    buildGraph orders value ≠ .error .indexOutOfRange ∧
      ∀ graph, buildGraph orders value = .ok graph →
        (graph.Represents value ↔ value.addresses.card < 2 ^ 32 ∨ ∀ object ∈ value.objects, object.referents = []) := by
  refine ⟨buildGraph_error haddresses hreferents, fun graph hgraph => ?_⟩
  have hwf : value.Indexable := ⟨haddresses, hreferents, count_of_buildGraph hgraph⟩
  obtain ⟨nodes, hnumbered, hlaid⟩ := laid_of_buildGraph hwf hgraph
  rw [hnumbered.card_addresses]
  constructor
  · intro hrep
    rcases Nat.lt_or_ge nodes.length (2 ^ 32) with hlt | hge
    · exact .inl hlt
    · exact .inr (hrep.edgeless hnumbered hlaid (le_antisymm hlaid.ok.nodes hge))
  · exact hlaid.represents hnumbered

/-- Two objects that refer to each other, a dangling referent and a local that is neither. -/
def pairHeap : Heap where
  header := ⟨1, "", false, .empty⟩
  threads := [⟨"MainThread", true, false, [⟨"main.py", 1, "run", .ofPairs [("x", 7)]⟩]⟩]
  objects := [⟨1, 0, 10, [2, 3], .none, [], [], -1⟩, ⟨2, 0, 20, [1, 3], .none, [], [], -1⟩]
  objectByAddress := .ofPairs [(1, 0), (2, 1)]
  types := .empty
  source := none

/-- The graph of two objects represents them. -/
theorem graph_represents_pair :
    ∃ graph, buildGraph .ascending pairHeap = .ok graph ∧ graph.Represents pairHeap := by
  have hwf : pairHeap.Indexable := ⟨by decide, by decide, by decide⟩
  have hcard : pairHeap.addresses.card < 2 ^ 32 := by decide
  obtain ⟨graph, -, hgraph, -⟩ := buildGraph_ok .ascending hwf
    ⟨pairHeap.addresses, Nat.le_of_lt hcard, fun address => mem_addresses.2⟩
  exact ⟨graph, hgraph, ((graph_represents_iff hwf.addresses hwf.referents .ascending).2 graph hgraph).2 (.inl hcard)⟩

/-- One object that refers to 2^32 - 1 others, none of which is in the heap. -/
def crowdedHeap : Heap where
  header := ⟨1, "", false, .empty⟩
  threads := []
  objects := [⟨0, 0, 0, List.range' 1 (2 ^ 32 - 1), .none, [], [], -1⟩]
  objectByAddress := .ofPairs [(0, 0)]
  types := .empty
  source := none

/-- The addresses of the crowded heap. -/
theorem mem_addresses_crowdedHeap {address : ℕ} : address ∈ crowdedHeap.addresses ↔ address < 2 ^ 32 := by
  have hlocals : address ∉ crowdedHeap.localAddresses := Finset.notMem_empty address
  rw [Heap.addresses, Finset.mem_union, or_iff_left hlocals, List.mem_toFinset, List.mem_flatMap]
  constructor
  · rintro ⟨object, ho, hm⟩
    obtain rfl := List.mem_singleton.1 ho
    rcases List.mem_cons.1 hm with rfl | hm
    · exact Nat.two_pow_pos 32
    · have hrange := List.mem_range'_1.1 hm
      omega
  · intro hlt
    refine ⟨_, List.mem_singleton_self _, ?_⟩
    rcases Nat.eq_zero_or_pos address with rfl | hpos
    · exact List.mem_cons_self
    · exact List.mem_cons_of_mem _ (List.mem_range'_1.2 (by omega))

/-- The crowded heap has one address more than a graph can have nodes. -/
theorem card_addresses_crowdedHeap : crowdedHeap.addresses.card = 2 ^ 32 := by
  rw [← Finset.card_range (2 ^ 32)]
  refine congrArg Finset.card (Finset.ext fun address => ?_)
  rw [mem_addresses_crowdedHeap, Finset.mem_range]

/-- **The last address has no inbound references to read.** -/
theorem last_address_panics :
    ∃ graph, buildGraph .ascending crowdedHeap = .ok graph ∧ ¬graph.Represents crowdedHeap ∧
      graph.addressIndex.entries.length = 2 ^ 32 ∧
      graph.inboundReferences (2 ^ 32 - 1) = .error .indexOutOfRange := by
  have hwf : crowdedHeap.Indexable := by
    refine ⟨List.nodup_singleton 0, fun object ho => ?_, by decide⟩
    obtain rfl := List.mem_singleton.1 ho
    exact List.nodup_range' ..
  have hfits : crowdedHeap.FitsIndex :=
    ⟨crowdedHeap.addresses, card_addresses_crowdedHeap.le, fun address => mem_addresses.2⟩
  obtain ⟨graph, nodes, hgraph, hnumbered, hlaid⟩ := buildGraph_ok .ascending hwf hfits
  have hfull : nodes.length = 2 ^ 32 := by rw [← hnumbered.card_addresses, card_addresses_crowdedHeap]
  -- the object refers to more than one node, so to one before the last
  have hentries : ∀ address, 0 < address → address < 2 ^ 32 →
      slotOf graph.addressIndex address < 2 ^ 32 ∧
        entriesOf (edgesOf (rowsOf graph.addressIndex crowdedHeap.objects)) (slotOf graph.addressIndex address) ≠
          [] := by
    intro address hpos hlt
    have hnode : address ∈ nodes := by rwa [hnumbered.mem, ← mem_addresses, mem_addresses_crowdedHeap]
    refine ⟨hfull ▸ hnumbered.slotOf_lt hnode, List.ne_nil_of_mem (a := 0) ?_⟩
    rw [hnumbered.mem_entriesOf hlaid.ok.nodup]
    exact ⟨_, rfl, address, List.mem_range'_1.2 (by omega), (hnumbered.find?_eq_some_iff hnode).2 rfl⟩
  obtain ⟨hone, hone'⟩ := hentries 1 (by omega) (by omega)
  obtain ⟨htwo, htwo'⟩ := hentries 2 (by omega) (by omega)
  have hne : slotOf graph.addressIndex 1 ≠ slotOf graph.addressIndex 2 := fun heq => by
    have hmem : ∀ address < 2 ^ 32, address ∈ nodes := fun address hlt => by
      rwa [hnumbered.mem, ← mem_addresses, mem_addresses_crowdedHeap]
    exact absurd (hnumbered.slotOf_inj (hmem 1 (by omega)) (hmem 2 (by omega)) heq) (by omega)
  have hpanics : graph.inboundReferences (2 ^ 32 - 1) = .error .indexOutOfRange := by
    rcases Nat.lt_or_ge (slotOf graph.addressIndex 1) (2 ^ 32 - 1) with hlt | hge
    · exact hlaid.inboundReferences_panics hfull hlt hone'
    · exact hlaid.inboundReferences_panics hfull (by omega) htwo'
  refine ⟨graph, hgraph, fun hrep => ?_, by rw [hnumbered.interned.length, hfull], hpanics⟩
  obtain ⟨_, -, hinbound⟩ := hrep.inbound
  obtain ⟨sources, hread, -⟩ := hinbound (2 ^ 32 - 1) (by rw [hnumbered.interned.length]; omega)
  rw [hpanics] at hread
  cases hread

end Go
end Pydump
