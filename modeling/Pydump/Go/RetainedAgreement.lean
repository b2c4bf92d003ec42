/-
# Python and Go retained sizes agree

The two calculations on one heap (`LikeHeap`).  `nameOf` renames the node graph of
the Go calculation to the graph of the Python heap, and with `RefGraph.Renaming`
what was shown on the numbers holds on the addresses.  For the objects both return
`RefGraph.retained`.
-/

import Pydump.Analyzer.CalculatorSpec
import Pydump.Analyzer.ReaderFacts
import Pydump.Go.CalculatorSpec
import Pydump.Go.ReaderAgreement

namespace Pydump
namespace Go

open ExceptLoop
open RowTable
open RefGraph (Marking Renaming)

variable {heap : Analyzer.Heap} {other : Heap} {R : ContentRelation}

/-! ### One heap in both models -/

/-- The locals of a frame have the same values. -/
theorem SameFrame.values {frame : Analyzer.HeapThreadFrame} {other : ThreadFrame} (h : SameFrame frame other) :
    frame.locals.values = other.locals.values := by
  rw [h.locals]

/-- The locals of the frames have the same values. -/
theorem foldl_locals {frames : List Analyzer.HeapThreadFrame} {others : List ThreadFrame}
    (h : List.Forall₂ SameFrame frames others) (s : Finset ℕ) :
    frames.foldl (fun result frame => result ∪ frame.locals.values.toFinset) s =
      others.foldl (fun result frame => result ∪ frame.locals.values.toFinset) s := by
  induction h generalizing s with
  | nil => rfl
  | cons hframe _ ih => rw [List.foldl_cons, List.foldl_cons, hframe.values, ih]

/-- The threads have the same locals. -/
theorem SameThread.locals {thread : Analyzer.HeapThread} {other : Thread} (h : SameThread thread other) :
    thread.locals = other.localAddresses :=
  foldl_locals h.stackTrace ∅

/-- The locals of the threads, thread by thread. -/
theorem LikeHeap.threadLocals (h : LikeHeap R heap other) :
    other.threads.map Thread.localAddresses = heap.threads.map Analyzer.HeapThread.locals := by
  refine (List.forall₂_eq_eq_eq ▸ List.forall₂_map_left_iff.2 (List.forall₂_map_right_iff.2 ?_) : _ = _).symm
  exact h.threads.imp fun _ _ ht => ht.locals

/-- The object of the Python heap for an object of the Go heap. -/
theorem LikeHeap.object_of_getElem? (h : LikeHeap R heap other) {i : ℕ} {object : Object}
    (hi : other.objects[i]? = some object) :
    ∃ obj, heap.objects.find? object.address = some obj ∧ LikeObject R obj object := by
  obtain ⟨obj, hentry, hobj⟩ := h.object hi
  exact ⟨obj, OrderedDict.find?_eq_some.2 (List.mem_of_getElem? hentry), hobj⟩

/-- An object of one heap is like one of the other. -/
theorem LikeHeap.object_of_mem (h : LikeHeap R heap other) {object : Object} (ho : object ∈ other.objects) :
    ∃ obj, heap.objects.find? object.address = some obj ∧ LikeObject R obj object := by
  obtain ⟨i, hi⟩ := List.mem_iff_getElem?.1 ho
  exact h.object_of_getElem? hi

/-- What an artifact bounds: the number of objects and their sizes have 32 bits. -/
structure Bounded (heap : Analyzer.Heap) : Prop where
  count : heap.objects.keys.length ≤ 2 ^ 32 - 1
  sizes : ∀ address, heap.size address < 2 ^ 32

/-- The sizes of any objects have a sum of 64 bits. -/
theorem Bounded.sum_size_lt (h : Bounded heap) {s : Finset ℕ} (hs : s ⊆ heap.graph.objects) :
    s.sum heap.size < 2 ^ 64 := by
  have hcard : s.card ≤ 2 ^ 32 - 1 := by
    refine (Finset.card_le_card hs).trans ?_
    have hobjects : heap.graph.objects = heap.objects.keys.toFinset := by
      ext a
      rw [Analyzer.mem_graph_objects, List.mem_toFinset]
    rw [hobjects]
    exact (List.toFinset_card_le _).trans h.count
  have hsum := Finset.sum_le_card_nsmul s heap.size (2 ^ 32 - 1) fun a _ => by
    have := h.sizes a
    omega
  rw [Nat.nsmul_eq_mul] at hsum
  have hproduct := Nat.mul_le_mul_right (2 ^ 32 - 1) hcard
  omega

/-- A heap that was read is bounded. -/
theorem bounded_of_readHeap {source : List UInt8} (h : Analyzer.readHeap source = .ok heap) : Bounded heap := by
  obtain ⟨known, hstored⟩ := Analyzer.storedIn_of_readHeap h
  constructor
  · have hcount := hstored.count
    rw [OrderedDict.keys, List.length_map]
    omega
  · intro address
    cases hfind : heap.objects.find? address with
    | none =>
      rw [Analyzer.size_of_not_mem address (Analyzer.mem_graph_objects.not.2 (OrderedDict.find?_eq_none.1 hfind))]
      exact Nat.two_pow_pos 32
    | some obj =>
      rw [Analyzer.size_of_find? hfind]
      exact (hstored.stored _ (OrderedDict.find?_eq_some.1 hfind)).2.size

/-- A bounded heap is well formed in Go. -/
theorem LikeHeap.wellFormed (h : LikeHeap R heap other) (hbounded : Bounded heap) : other.WellFormed where
  addresses := h.keys ▸ heap.objects.keys_nodup
  referents object ho := by
    obtain ⟨obj, -, hobj⟩ := h.object_of_mem ho
    exact hobj.referents.1.imp fun hlt => Nat.ne_of_lt hlt
  sizes object ho := by
    obtain ⟨obj, hfind, hobj⟩ := h.object_of_mem ho
    rw [← hobj.size, ← Analyzer.size_of_find? hfind]
    exact hbounded.sizes _
  count := by
    have hcount := hbounded.count
    rwa [h.keys, List.length_map] at hcount

/-- **A heap that the Go reader returns** is well formed. -/
theorem wellFormed_of_load {source : List UInt8} (h : load source = .ok other) : other.WellFormed := by
  obtain ⟨hiff, hlike⟩ := @readers_like BothContainers source fun _ _ _ known _ => agreeOnContent_both known
  obtain ⟨heap, hread⟩ := hiff.2 ⟨other, h⟩
  exact (hlike heap other hread h).wellFormed (bounded_of_readHeap hread)

/-- The addresses the Go graph numbers: the nodes of the heap and the locals. -/
theorem LikeHeap.isNode_iff (h : LikeHeap R heap other) (address : ℕ) :
    other.IsNode address ↔ address ∈ heap.nodes ∨ ∃ thread ∈ heap.threads, address ∈ thread.locals := by
  refine or_congr ?_ ?_
  · rw [Analyzer.mem_nodes, Analyzer.mem_graph_objects]
    constructor
    · rintro ⟨object, ho, rfl | ha⟩
      · exact .inl (h.keys ▸ List.mem_map_of_mem ho)
      · obtain ⟨obj, hfind, hobj⟩ := h.object_of_mem ho
        refine .inr ⟨object.address, ?_⟩
        rw [Analyzer.graph_succ_of_find? hfind, ← hobj.referents.2]
        exact List.mem_toFinset.2 ha
    · rintro (ha | ⟨source, ha⟩)
      · rw [h.keys] at ha
        obtain ⟨object, ho, rfl⟩ := List.mem_map.1 ha
        exact ⟨object, ho, .inl rfl⟩
      · have hsource := Analyzer.mem_graph_objects.1 (RefGraph.mem_objects_of_succ ha)
        rw [h.keys] at hsource
        obtain ⟨object, ho, rfl⟩ := List.mem_map.1 hsource
        obtain ⟨obj, hfind, hobj⟩ := h.object_of_mem ho
        rw [Analyzer.graph_succ_of_find? hfind, ← hobj.referents.2] at ha
        exact ⟨object, ho, .inr (List.mem_toFinset.1 ha)⟩
  · have hlocals := h.threadLocals
    constructor
    · rintro ⟨thread, ht, ha⟩
      have hm : thread.localAddresses ∈ other.threads.map Thread.localAddresses := List.mem_map_of_mem ht
      rw [hlocals] at hm
      obtain ⟨thread', ht', heq⟩ := List.mem_map.1 hm
      exact ⟨thread', ht', heq ▸ ha⟩
    · rintro ⟨thread, ht, ha⟩
      have hm : thread.locals ∈ heap.threads.map Analyzer.HeapThread.locals := List.mem_map_of_mem ht
      rw [← hlocals] at hm
      obtain ⟨thread', ht', heq⟩ := List.mem_map.1 hm
      exact ⟨thread', ht', heq ▸ ha⟩

/-! ### Numbers and addresses -/

/-- The graph of the Python heap is the graph of the Go heap. -/
theorem LikeHeap.hasGraph (hlike : LikeHeap R heap other) : other.HasGraph heap.graph where
  objects := by
    ext address
    rw [Analyzer.mem_graph_objects, hlike.keys, List.mem_toFinset]
  succ object ho := by
    obtain ⟨obj, hfind, hobj⟩ := hlike.object_of_mem ho
    rw [Analyzer.graph_succ_of_find? hfind, ← hobj.referents.2]

variable {index : OrderedDict ℕ ℕ} {nodes : List ℕ}

/-- An object has the same size under its number and under its address. -/
theorem Numbered.size_nameOf (hlike : LikeHeap R heap other) (h : Numbered other index nodes) {i : ℕ}
    (hi : i < nodes.length) : heap.size (nameOf nodes i) = other.nodeSize i := by
  rcases Nat.lt_or_ge i other.objects.length with hlt | hge
  · have hget := List.getElem?_eq_getElem hlt
    obtain ⟨obj, hfind, hobj⟩ := hlike.object_of_getElem? hget
    rw [h.nameOf_object hget, Analyzer.size_of_find? hfind, hobj.size, nodeSize_eq hget]
  · have hout : nameOf nodes i ∉ heap.graph.objects := by
      intro hm
      rw [(h.renaming hlike.hasGraph).objects, Finset.mem_image] at hm
      obtain ⟨j, hj, hij⟩ := hm
      have hj' := (h.renaming hlike.hasGraph).objects_subset hj
      have heq : j = i := (h.renaming hlike.hasGraph).inj hj' (Finset.mem_coe.2 (Finset.mem_range.2 hi)) hij
      rw [mem_nodeGraph_objects, length_rowsOf] at hj
      omega
    rw [Analyzer.size_of_not_mem _ hout, Heap.nodeSize, List.getElem?_eq_none hge]

/-! ### The threads -/

section Threads

variable {c : Calculator}

/-- The nodes of the locals of a thread. -/
def slotsOf (index : OrderedDict ℕ ℕ) (locals : Finset ℕ) : Finset ℕ := locals.image (slotOf index)

/-- A run for the locals of a thread which `others` threads besides hold. -/
def localSeeds (graph : Graph) (nodes : List ℕ) (others : ℕ → ℕ) (locals : Finset ℕ) : Seeds where
  start := (· ∈ slotsOf graph.addressIndex locals)
  need y := graph.countOf y + (if y ∈ slotsOf graph.addressIndex locals then others (nameOf nodes y) else 0 : ℕ)

/-- **The counts of the locals.** -/
theorem addLocals_ok (hlaid : Laid (rowsOf c.graph.addressIndex other.objects) nodes.length c.graph)
    (hnumbered : Numbered other c.graph.addressIndex nodes) (threadLocals : List (Finset ℕ)) (i : ℕ)
    {front : List ℕ} (hknown : ∀ a ∈ front, a ∈ nodes) :
    ∃ locals, front.foldlM (addLocal c.graph threadLocals i) ⟨.empty, []⟩ = .ok locals ∧
      locals.front = front.map (slotOf c.graph.addressIndex) ∧
      ∀ y, locals.view.find? y = if y ∈ front.map (slotOf c.graph.addressIndex) then
        some (c.graph.countOf y + otherThreads threadLocals i (nameOf nodes y)) else none := by
  let inv (seen : List ℕ) (locals : Locals) : Prop :=
    locals.front = seen.map (slotOf c.graph.addressIndex) ∧
      ∀ y, locals.view.find? y = if y ∈ seen.map (slotOf c.graph.addressIndex) then
        some (c.graph.countOf y + otherThreads threadLocals i (nameOf nodes y)) else none
  refine foldlM_ok inv ⟨rfl, fun y => by simp⟩ ?_
  rintro seen a rest locals hsplit ⟨hfront, hview⟩
  have ha : a ∈ nodes := hknown a (hsplit ▸ List.mem_append_right _ List.mem_cons_self)
  have hcount : c.graph.inboundCount (slotOf c.graph.addressIndex a) =
      .ok (c.graph.countOf (slotOf c.graph.addressIndex a)) := hlaid.inboundCount (hnumbered.slotOf_lt ha)
  have hname := hnumbered.nameOf_slotOf ha
  refine ⟨_, bind_ok hcount, ?_, fun y => ?_⟩
  · rw [List.map_append, ← hfront]
    rfl
  · change (locals.view.insert (slotOf c.graph.addressIndex a) _).find? y = _
    rw [OrderedDict.find?_insert, hview y]
    by_cases hy : slotOf c.graph.addressIndex a = y
    · subst hy
      rw [if_pos rfl, if_pos (by simp), hname]
    · simp [hy, Ne.symm hy]

/-- What holds of the calculator when it comes to the threads. -/
structure Prepared (R : ContentRelation) (heap : Analyzer.Heap) (other : Heap) (nodes : List ℕ) (c : Calculator) :
    Prop where
  heap_eq : c.heap = other
  like : LikeHeap R heap other
  numbered : Numbered other c.graph.addressIndex nodes
  view : ViewOk c false (rowsOf c.graph.addressIndex other.objects) nodes.length

/-- The thread results do not matter for it. -/
theorem Prepared.withThreads (hc : Prepared R heap other nodes c) (threadRetained : OrderedDict String ℕ) :
    Prepared R heap other nodes { c with threadRetained } :=
  ⟨hc.heap_eq, hc.like, hc.numbered, hc.view.graphOf, hc.view.flags, hc.view.marks, hc.view.sums⟩

/-- The plain view follows every reference. -/
theorem followed_plain (c : Calculator) (rows : List (List ℕ)) : followed c false rows = (nodeGraph rows).succ := by
  funext x
  exact if_neg (Finset.notMem_empty x)

/-- The plain view counts every size. -/
theorem cost_plain (c : Calculator) (rows : List (List ℕ)) : c.cost false rows = c.heap.nodeSize := by
  funext x
  exact if_neg (Finset.notMem_empty x)

/-- A local under its number. -/
theorem Prepared.mem_slotsOf (hc : Prepared R heap other nodes c) {locals : Finset ℕ}
    (hlocals : ∀ a ∈ locals, a ∈ nodes) {y : ℕ} (hy : y ∈ Finset.range nodes.length) :
    nameOf nodes y ∈ locals ↔ y ∈ slotsOf c.graph.addressIndex locals := by
  rw [slotsOf, Finset.mem_image]
  constructor
  · intro ha
    have hslot : slotOf c.graph.addressIndex (nameOf nodes y) ∈ Finset.range nodes.length :=
      Finset.mem_range.2 (hc.numbered.slotOf_lt (hlocals _ ha))
    exact ⟨_, ha, (hc.numbered.renaming hc.like.hasGraph).inj hslot hy (hc.numbered.nameOf_slotOf (hlocals _ ha))⟩
  · rintro ⟨a, ha, rfl⟩
    rwa [hc.numbered.nameOf_slotOf (hlocals a ha)]

/-- The slots of the locals are nodes. -/
theorem Prepared.slotsOf_lt (hc : Prepared R heap other nodes c) {locals : Finset ℕ}
    (hlocals : ∀ a ∈ locals, a ∈ nodes) :
    ∀ y ∈ slotsOf c.graph.addressIndex locals, y ∈ Finset.range nodes.length := by
  intro y hy
  obtain ⟨a, ha, rfl⟩ := Finset.mem_image.1 hy
  exact Finset.mem_range.2 (hc.numbered.slotOf_lt (hlocals a ha))

open Classical in
/-- **What dies with the locals**, summed on the numbers and on the addresses. -/
theorem sum_cost_locals (hc : Prepared R heap other nodes c) (others : ℕ → ℕ) {locals : Finset ℕ}
    (hlocals : ∀ a ∈ locals, a ∈ nodes) {deleted : Finset ℕ}
    (hdeleted : ∀ y, y ∈ deleted ↔ RefCount.Dead (followed c false (rowsOf c.graph.addressIndex other.objects))
      (localSeeds c.graph nodes others locals).need (localSeeds c.graph nodes others locals).start y) :
    ∑ x ∈ deleted, c.cost false (rowsOf c.graph.addressIndex other.objects) x = heap.localsRetained others locals := by
  have hf := hc.numbered.renaming hc.like.hasGraph
  have hlocalNames : ∀ a ∈ locals, a ∈ (Finset.range nodes.length).image (nameOf nodes) := fun a ha =>
    Finset.mem_image.2 ⟨_, Finset.mem_range.2 (hc.numbered.slotOf_lt (hlocals a ha)),
      hc.numbered.nameOf_slotOf (hlocals a ha)⟩
  -- the same with the counts that `InboundCount` returns for objects only
  let need (y : ℕ) : ℤ := ((nodeGraph (rowsOf c.graph.addressIndex other.objects)).inbound y).card +
    (if y ∈ slotsOf c.graph.addressIndex locals then others (nameOf nodes y) else 0 : ℕ)
  obtain ⟨proper, hproper⟩ := @RefCount.exists_deadSet _
    (nodeGraph (rowsOf c.graph.addressIndex other.objects)).succ need _ _ (hc.slotsOf_lt hlocals) hf.succ_subset
  obtain ⟨named, hnamed⟩ := @RefCount.exists_deadSet _ heap.graph.succ (heap.localsNeed others locals) _ _
    hlocalNames hf.succ_image_subset
  have hproperSum : ∑ x ∈ deleted, c.cost false (rowsOf c.graph.addressIndex other.objects) x =
      ∑ x ∈ proper, other.nodeSize x := by
    rw [cost_plain, hc.heap_eq]
    rw [followed_plain] at hdeleted
    refine RefCount.sum_congr_need (fun x hx => ?_) hdeleted hproper
    have hobject : x < (rowsOf c.graph.addressIndex other.objects).length := by
      refine hc.view.object_of_matters ?_
      rw [followed_plain, cost_plain, hc.heap_eq]
      exact hx
    simp only [localSeeds, need, hc.view.countOf_object hobject]
  have hnamedSum : ∑ z ∈ named, heap.size z = ∑ x ∈ proper, other.nodeSize x := by
    refine hf.sum_dead (fun y hy => ?_) (fun y hy => hc.mem_slotsOf hlocals hy) hlocalNames (hc.slotsOf_lt hlocals)
      (fun y hy => ?_) hproper hnamed
    · simp only [Analyzer.Heap.localsNeed, hf.card_inbound hy, need, hc.mem_slotsOf hlocals hy]
    · exact hc.numbered.size_nameOf hc.like (Finset.mem_range.1 hy)
  rw [hproperSum, ← hnamedSum, Analyzer.Heap.localsRetained]
  refine (Finset.sum_subset (fun x hx => (hnamed x).2 (Finset.mem_filter.1 hx).2) fun x hx hx' => ?_).symm
  exact Analyzer.size_of_not_mem x fun hobj => hx' (Finset.mem_filter.2 ⟨hobj, (hnamed x).1 hx⟩)

/-- What the thread at `i` retains: it is told from the others by its index. -/
noncomputable def indexRetained (heap : Analyzer.Heap) (i : ℕ) (thread : Analyzer.HeapThread) : ℕ :=
  heap.localsRetained (otherThreads (heap.threads.map Analyzer.HeapThread.locals) i) thread.locals

/-- **One thread.** -/
theorem calculateThread_ok (orders : Orders) (hc : Prepared R heap other nodes c) {i : ℕ} {thread : Thread}
    {thread' : Analyzer.HeapThread} (hthread : heap.threads[i]? = some thread') {rounds : ℕ}
    (hrounds : nodes.length < rounds) :
    Calculator.calculateThread orders rounds (heap.threads.map Analyzer.HeapThread.locals) c (thread, i) =
      .ok { c with threadRetained := c.threadRetained.insert thread.name (indexRetained heap i thread') } := by
  have hget : getAt (heap.threads.map Analyzer.HeapThread.locals) i = .ok thread'.locals := by
    refine getAt_ok ?_
    rw [List.getElem?_map, hthread, Option.map_some]
  have hlocals : ∀ a ∈ thread'.locals, a ∈ nodes := fun a ha =>
    (hc.numbered.mem a).2 ((hc.like.isNode_iff a).2 (.inr ⟨thread', List.mem_of_getElem? hthread, ha⟩))
  let others := otherThreads (heap.threads.map Analyzer.HeapThread.locals) i
  have hmem : ∀ a, a ∈ orders.walk (.locals i) thread'.locals ↔ a ∈ thread'.locals := fun a => orders.mem_walk _ _ a
  have hlaid : Laid (rowsOf c.graph.addressIndex other.objects) nodes.length c.graph := hc.view.graphOf.laid
  obtain ⟨locals, hlocalsRun, hfront, hview⟩ := addLocals_ok hlaid hc.numbered
    (heap.threads.map Analyzer.HeapThread.locals) i fun a ha => hlocals a ((hmem a).1 ha)
  have hslots : ∀ y, y ∈ (orders.walk (.locals i) thread'.locals).map (slotOf c.graph.addressIndex) ↔
      y ∈ slotsOf c.graph.addressIndex thread'.locals := fun y => by
    rw [slotsOf, List.mem_map, Finset.mem_image]
    simp only [hmem]
  have haffordable : (localSeeds c.graph nodes others thread'.locals).Affordable c false
      (rowsOf c.graph.addressIndex other.objects) := fun s _ => by
    rw [cost_plain]
    exact hc.view.graphOf.sum_lt s
  obtain ⟨deleted, hdeleted, hrun⟩ := @retained_spec _ _ c false (localSeeds c.graph nodes others thread'.locals)
    orders hc.view
    (fun y hy => by
      have hy' : y ∉ slotsOf c.graph.addressIndex thread'.locals := hy
      simp only [localSeeds, if_neg hy', Nat.cast_zero, add_zero])
    haffordable (.thread i) (fun y hy => Finset.mem_range.1 (hc.slotsOf_lt hlocals y hy)) locals.view locals.front
    (fun y d hd => by
      rw [hview] at hd
      split_ifs at hd with hy
      have hstart := (hslots y).1 hy
      refine ⟨hstart, ?_⟩
      rw [← Option.some_inj.1 hd]
      simp only [localSeeds, if_pos hstart, others])
    (fun y hy hstart => by rw [hview, if_pos ((hslots y).2 hstart)] at hy; cases hy)
    (fun y => by rw [← OrderedDict.find?_isSome, hview, hfront]; split_ifs <;> simp_all)
    rounds hrounds
  rw [sum_cost_locals hc others hlocals hdeleted] at hrun
  rw [Calculator.calculateThread, bind_ok hget]
  simp only
  rw [bind_ok hlocalsRun, bind_ok hrun]
  rfl

/-- The results for the threads, stored under the threads' names in their order. -/
noncomputable def indexResults (heap : Analyzer.Heap) (threads : List (Analyzer.HeapThread × ℕ)) :
    OrderedDict String ℕ :=
  .ofPairs (threads.map fun entry => (entry.1.name, indexRetained heap entry.2 entry.1))

/-- The result of one thread more. -/
theorem indexResults_append (heap : Analyzer.Heap) (threads : List (Analyzer.HeapThread × ℕ))
    (entry : Analyzer.HeapThread × ℕ) :
    indexResults heap (threads ++ [entry]) =
      (indexResults heap threads).insert entry.1.name (indexRetained heap entry.2 entry.1) := by
  simp only [indexResults, OrderedDict.ofPairs, List.map_append, List.foldl_append, List.map_cons, List.map_nil,
    List.foldl_cons, List.foldl_nil]

/-- **All threads.** -/
theorem calculateThreads_ok (orders : Orders) (hc : Prepared R heap other nodes c) {rounds : ℕ}
    (hrounds : nodes.length < rounds) (hempty : c.threadRetained = .empty) :
    c.calculateThreads orders rounds = .ok { c with threadRetained := indexResults heap heap.threads.zipIdx } := by
  let inv (seen : List (Thread × ℕ)) (c' : Calculator) : Prop :=
    c' = { c with threadRetained := indexResults heap (heap.threads.zipIdx.take seen.length) }
  have hround : ∀ seen entry rest c', seen ++ entry :: rest = other.threads.zipIdx → inv seen c' →
      ∃ c'', Calculator.calculateThread orders rounds (heap.threads.map Analyzer.HeapThread.locals) c' entry =
        .ok c'' ∧ inv (seen ++ [entry]) c'' := by
    rintro seen ⟨thread, i⟩ rest c' hsplit rfl
    obtain ⟨rfl, hthread⟩ := zipIdx_split hsplit
    obtain ⟨hlt, rfl⟩ := List.getElem?_eq_some_iff.1 hthread
    have hlt' : seen.length < heap.threads.length := hc.like.threads.length_eq ▸ hlt
    have hname := hc.like.threads.get hlt' hlt
    rw [List.get_eq_getElem, List.get_eq_getElem] at hname
    have hget : heap.threads.zipIdx[seen.length]? = some (heap.threads[seen.length], seen.length) := by
      rw [List.getElem?_zipIdx, List.getElem?_eq_getElem hlt', Option.map_some, Nat.zero_add]
    refine ⟨_, calculateThread_ok orders (hc.withThreads _) (List.getElem?_eq_getElem hlt') hrounds, ?_⟩
    simp only [inv, List.length_append, List.length_singleton]
    rw [List.take_add_one, hget, Option.toList_some, indexResults_append, hname.name]
  have hstart : inv [] c := by
    simp only [inv, List.length_nil, List.take_zero, indexResults, List.map_nil, OrderedDict.ofPairs, List.foldl_nil,
      ← hempty]
  obtain ⟨c', hrun, hc'⟩ := foldlM_ok inv hstart hround
  have hlen : other.threads.zipIdx.length = heap.threads.zipIdx.length := by
    rw [List.length_zipIdx, List.length_zipIdx, hc.like.threads.length_eq]
  have hthreads : c.heap.threads = other.threads := by rw [hc.heap_eq]
  rw [Calculator.calculateThreads, hthreads, hc.like.threadLocals, hrun, hc', hlen, List.take_length]

end Threads

/-! ### The whole calculation -/

/-- Rounds that suffice for every loop. -/
def Heap.rounds (value : Heap) : ℕ := subtreeRounds value.objects.length + 2 ^ 32 + 1

/-- `CalculateRetainedHeap` as far as the threads. -/
def beforeThreads (orders : Orders) (rounds : ℕ) (value : Heap) : Except AnalysisError Calculator := do
  let graph ← buildGraph orders value
  let calculator ← Calculator.findStrictSubtrees orders rounds ⟨value, graph,
    List.replicate graph.objectCount false, List.replicate graph.objectCount 0, .empty⟩
  (List.range graph.objectCount).foldlM (Calculator.calculateObject orders rounds) calculator

/-- The calculation, up to the threads and from there. -/
theorem calculateRetainedHeap_eq (orders : Orders) (rounds : ℕ) (value : Heap) :
    calculateRetainedHeap orders rounds value =
      beforeThreads orders rounds value >>= fun c =>
        c.calculateThreads orders rounds >>= fun c' => pure ⟨c'.objectRetained, c'.threadRetained⟩ := by
  rw [calculateRetainedHeap, beforeThreads]
  simp only [bind_assoc]

/-- **`CalculateRetainedHeap` comes to the threads** on a heap whose addresses fit the index. -/
theorem beforeThreads_ok (hlike : LikeHeap R heap other) (hbounded : Bounded heap) (hfits : other.FitsIndex)
    (orders : Orders) {rounds : ℕ} (hrounds : other.rounds ≤ rounds) :
    ∃ c nodes, beforeThreads orders rounds other = .ok c ∧ Prepared R heap other nodes c ∧ nodes.length < rounds ∧
      c.threadRetained = .empty ∧ c.objectRetained = heap.objects.keys.map (heap.graph.retained heap.size) := by
  have hwf := hlike.wellFormed hbounded
  obtain ⟨graph, nodes, hgraph, hnumbered, hlaid⟩ := buildGraph_ok orders hwf.indexable hfits
  set rows := rowsOf graph.addressIndex other.objects with hrows
  have hlen : rows.length = other.objects.length := length_rowsOf
  have hgraphOf : GraphOf other graph rows nodes.length := ⟨hwf, hlaid, hlen⟩
  have hcount : graph.objectCount = rows.length := hlaid.objectCount
  have hnodes : nodes.length < rounds := by
    have := hnumbered.length_le hfits
    rw [Heap.rounds] at hrounds
    omega
  -- the strict subtrees
  have hsized : Subtrees.Sized ⟨List.replicate rows.length false, List.replicate rows.length 0, ∅⟩ rows :=
    ⟨List.length_replicate, List.length_replicate⟩
  have hsubtreeRounds : subtreeRounds rows.length ≤ rounds := by
    rw [hlen]
    rw [Heap.rounds] at hrounds
    omega
  obtain ⟨st, hsubtrees, hsized', hfound⟩ :=
    findStrictSubtrees_spec orders hgraphOf hsubtreeRounds hsized (marking_init _) rfl .empty
  -- the objects
  have hready : SubtreesReady ⟨other, graph, st.subtreeRoots, st.objectRetained, .empty⟩ rows nodes.length :=
    ⟨hgraphOf, ⟨hsized'.subtreeRoots, hsized'.objectRetained⟩,
      ⟨⟨hfound.ok.marks, hfound.ok.sums, hfound.ok.unmarked, Finset.empty_subset _⟩, hfound.complete⟩⟩
  obtain ⟨c, hobjects, hc⟩ := calculateObjects_ok orders hready hnodes
  have hprepared : Prepared R heap other nodes c := by
    rw [hc]
    refine ⟨rfl, hlike, hnumbered, hgraphOf, hsized'.subtreeRoots,
      ⟨by simp [Calculator.marked], by simp [Calculator.marked]⟩, by simp [Calculator.marked]⟩
  have hbefore : beforeThreads orders rounds other = .ok c := by
    rw [beforeThreads, bind_ok hgraph, hcount, bind_ok hsubtrees, hobjects]
  refine ⟨c, nodes, hbefore, hprepared, hnodes, by rw [hc], ?_⟩
  rw [hc, hlike.keys, List.map_map]
  refine List.ext_getElem (by rw [List.length_map, List.length_range, List.length_map, hlen]) fun i hi hi' => ?_
  rw [List.getElem_map, List.getElem_map, List.getElem_range]
  rw [List.length_map] at hi'
  have hobject := List.getElem?_eq_getElem hi'
  have hinode : i ∈ Finset.range nodes.length := Finset.mem_range.2 (Nat.lt_of_lt_of_le hi' hnumbered.objects_le)
  have hretained := (hnumbered.renaming hlike.hasGraph).retained_eq hinode fun x hx =>
    hnumbered.size_nameOf hlike (Finset.mem_range.1 ((hnumbered.renaming hlike.hasGraph).objects_subset hx))
  rw [hnumbered.nameOf_object hobject] at hretained
  exact hretained.symm

/-- **`CalculateRetainedHeap`** on a heap whose addresses fit the index. -/
theorem calculateRetainedHeap_ok (hlike : LikeHeap R heap other) (hbounded : Bounded heap) (hfits : other.FitsIndex)
    (orders : Orders) {rounds : ℕ} (hrounds : other.rounds ≤ rounds) :
    ∃ result, calculateRetainedHeap orders rounds other = .ok result ∧
      result.objects = heap.objects.keys.map (heap.graph.retained heap.size) ∧
      result.threads = indexResults heap heap.threads.zipIdx := by
  obtain ⟨c, nodes, hbefore, hprepared, hnodes, hempty, hobjects⟩ :=
    beforeThreads_ok hlike hbounded hfits orders hrounds
  have hthreads := calculateThreads_ok orders hprepared hnodes hempty
  refine ⟨⟨c.objectRetained, indexResults heap heap.threads.zipIdx⟩, ?_, hobjects, rfl⟩
  rw [calculateRetainedHeap_eq, bind_ok hbefore, bind_ok hthreads]
  rfl

/-- **Addresses that do not fit the index** make the calculation fail. -/
theorem fitsIndex_of_ok {value : Heap} (hwf : value.WellFormed) {orders : Orders} {rounds : ℕ} {result : RetainedHeap}
    (h : calculateRetainedHeap orders rounds value = .ok result) : value.FitsIndex := by
  rw [calculateRetainedHeap, bind_eq_ok] at h
  obtain ⟨graph, hgraph, -⟩ := h
  rw [buildGraph, bind_eq_ok] at hgraph
  obtain ⟨-, -, hgraph⟩ := hgraph
  rw [bind_eq_ok] at hgraph
  obtain ⟨index, hindex, -⟩ := hgraph
  exact fitsIndex_of_indexAddresses orders hwf.indexable hindex

/-! ### The objects -/

/-- The addresses fit the index when the heap has at most 2^32 of them. -/
theorem LikeHeap.fitsIndex (hlike : LikeHeap R heap other) (hlocals : heap.LocalsKnown)
    (hnodes : heap.nodes.card ≤ 2 ^ 32) : other.FitsIndex := by
  refine ⟨heap.nodes, hnodes, fun address ha => ?_⟩
  rcases (hlike.isNode_iff address).1 ha with ha | ⟨thread, ht, ha⟩
  · exact ha
  · exact hlocals thread ht address ha

/-- **Both analyzers compute the same object sizes.**  On every heap of at most
2^32 - 1 objects whose sizes have 32 bits and whose nodes can be numbered with 32
bits, whatever orders the two runtimes choose, the Go calculation succeeds with the
size that the Python calculation has for the address of each object; the numbers
of the Python calculation are unbounded, so that no sum of the other one wraps. -/
theorem object_sizes_agree (hsame : SameHeap heap other) (hbounded : Bounded heap) (hlocals : heap.LocalsKnown)
    (hnodes : heap.nodes.card ≤ 2 ^ 32) (orders : Analyzer.Orders) (goOrders : Orders) {rounds goRounds : ℕ}
    (hrounds : heap.rounds ≤ rounds) (hgoRounds : other.rounds ≤ goRounds) :
    ∃ result goResult, Analyzer.calculateRetained orders rounds heap = .ok result ∧
      calculateRetainedHeap goOrders goRounds other = .ok goResult ∧
      goResult.objects.length = other.objects.length ∧
      ∀ (i : ℕ) (object : Object), other.objects[i]? = some object → ∃ size, goResult.objects[i]? = some size ∧
        result.objects.find? object.address = some size := by
  obtain ⟨result, hrun, hobjects, -⟩ := Analyzer.calculateRetained_ok orders hlocals hrounds
  obtain ⟨goResult, hgoRun, hgoObjects, -⟩ :=
    calculateRetainedHeap_ok hsame hbounded (hsame.fitsIndex hlocals hnodes) goOrders hgoRounds
  refine ⟨result, goResult, hrun, hgoRun, ?_, fun i object hi => ?_⟩
  · rw [hgoObjects, List.length_map, hsame.keys, List.length_map]
  · refine ⟨heap.graph.retained heap.size object.address, ?_, ?_⟩
    · rw [hgoObjects, hsame.keys, List.map_map, List.getElem?_map, hi]
      rfl
    · rw [hobjects, if_pos]
      rw [Analyzer.mem_graph_objects, hsame.keys]
      exact List.mem_map_of_mem (List.mem_of_getElem? hi)

/-- `Analyzer.cyclicHeap` as the Go reader holds it. -/
def cyclicHeap : Heap where
  header := ⟨1, "", false, .empty⟩
  threads := [⟨"MainThread", true, false, [⟨"main.py", 1, "run", .ofPairs [("x", 1)]⟩]⟩]
  objects := [⟨1, 0, 10, [2, 3], .none, [], [], -1⟩, ⟨2, 0, 20, [1, 3], .none, [], [], -1⟩,
    ⟨3, 0, 30, [99], .none, [], [], -1⟩]
  objectByAddress := .ofPairs [(1, 0), (2, 1), (3, 2)]
  types := .empty
  source := none

/-- Both cyclic heaps are the same. -/
theorem cyclicHeap_same : SameHeap Analyzer.cyclicHeap cyclicHeap where
  header := ⟨rfl, rfl, rfl, rfl⟩
  threads := .cons ⟨rfl, rfl, rfl, .cons ⟨rfl, rfl, rfl, rfl⟩ .nil⟩ .nil
  objects := by
    have hobject : ∀ address size (referents : List ℕ), referents.Pairwise (· < ·) →
        SameObject ⟨address, 0, size, referents.toFinset, .none, none⟩
          ⟨address, 0, size, referents, .none, [], [], -1⟩ :=
      fun _ _ _ hsorted => ⟨rfl, rfl, rfl, ⟨hsorted, rfl⟩, ⟨rfl, rfl, rfl⟩, rfl⟩
    exact .cons ⟨rfl, hobject 1 10 [2, 3] (by decide)⟩ (.cons ⟨rfl, hobject 2 20 [1, 3] (by decide)⟩
      (.cons ⟨rfl, hobject 3 30 [99] (by decide)⟩ .nil))
  index := by decide
  types := rfl
  source := rfl

/-- The cyclic heap is bounded. -/
theorem cyclicHeap_bounded : Bounded Analyzer.cyclicHeap where
  count := by decide
  sizes address := by
    by_cases ha : address ∈ Analyzer.cyclicHeap.graph.objects
    · have hall : ∀ x ∈ Analyzer.cyclicHeap.graph.objects, Analyzer.cyclicHeap.size x < 2 ^ 32 := by decide
      exact hall address ha
    · rw [Analyzer.size_of_not_mem address ha]
      decide

/-- Both analyzers give every object of the cyclic heap the same size. -/
theorem object_sizes_agree_cyclic :
    ∃ result goResult, Analyzer.calculateRetained .ascending Analyzer.cyclicHeap.rounds Analyzer.cyclicHeap =
      .ok result ∧
      calculateRetainedHeap .ascending cyclicHeap.rounds cyclicHeap = .ok goResult ∧
      goResult.objects.length = 3 ∧
      ∀ (i : ℕ) (object : Object), cyclicHeap.objects[i]? = some object → ∃ size, goResult.objects[i]? = some size ∧
        result.objects.find? object.address = some size :=
  object_sizes_agree cyclicHeap_same cyclicHeap_bounded Analyzer.cyclicHeap_localsKnown (by decide) .ascending
    .ascending le_rfl le_rfl

end Go
end Pydump
