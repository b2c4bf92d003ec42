/-
# `RetainedHeapCalculator.calculate`

From the parts in `Pydump.Analyzer.RetainedSpec`: on every heap whose thread
locals occur in its graph `calculate` returns, whatever orders Python chooses and
for every bound on the rounds from `Heap.rounds` on.  Each object gets the sum of
what dies with it (`RefGraph.retained`), and each thread the sum of what dies with
its locals (`Heap.threadRetained`), the counts of the locals being raised by the
other threads that hold them.
-/

import Pydump.Analyzer.RetainedSpec

namespace Pydump
namespace Analyzer

open ExceptLoop
open RefGraph (Marking)

variable {heap : Heap}

/-- Every address a run can meet. -/
def Heap.nodes (heap : Heap) : Finset ℕ :=
  heap.graph.objects ∪ heap.graph.objects.biUnion heap.graph.succ

/-- Rounds that suffice for every loop of `calculate`. -/
def Heap.rounds (heap : Heap) : ℕ := subtreeRounds heap + heap.nodes.card + 1

/-- The locals of the threads are objects or referents of objects. -/
def Heap.LocalsKnown (heap : Heap) : Prop :=
  ∀ thread ∈ heap.threads, ∀ address ∈ thread.locals, address ∈ heap.nodes

/-- Referents are nodes. -/
theorem succ_subset_nodes (x : ℕ) : heap.graph.succ x ⊆ heap.nodes := by
  intro y hy
  exact Finset.mem_union_right _ (Finset.mem_biUnion.2 ⟨x, RefGraph.mem_objects_of_succ hy, hy⟩)

/-- The nodes are the objects and what they refer to. -/
theorem mem_nodes {y : ℕ} : y ∈ heap.nodes ↔ y ∈ heap.graph.objects ∨ ∃ source, y ∈ heap.graph.succ source := by
  rw [Heap.nodes, Finset.mem_union, Finset.mem_biUnion]
  exact or_congr_right ⟨fun ⟨x, _, hy⟩ => ⟨x, hy⟩, fun ⟨x, hy⟩ => ⟨x, RefGraph.mem_objects_of_succ hy, hy⟩⟩

/-- What a view shows of the referents are nodes. -/
theorem cut_subset_nodes (view : View) (x : ℕ) : view.succ x ⊆ view.heap.nodes :=
  fun _ hy => succ_subset_nodes x (RefGraph.mem_cut.1 hy).2

/-! ### One object -/

/-- A run for the object `o`: `o` starts with the count zero. -/
def objectSeeds (view : View) (o : ℕ) : Seeds := ⟨(· = o), view.heap.graph.need o⟩

/-- The deletion of an object starts within its view. -/
theorem objectSeeds_fits (view : View) (o : ℕ) : (objectSeeds view o).Fits view :=
  fun _ hy => if_neg hy

/-- **One object**, with the strict subtrees that the view shows. -/
theorem retainedHeap_object (orders : Orders) {view : View} (hview : ViewOk view) {o : ℕ}
    (ho : o ∈ view.heap.graph.objects) {rounds : ℕ} (hrounds : view.heap.nodes.card < rounds) :
    retainedHeap orders rounds view (.object o) (.ofPairs [(o, 0)]) [o] =
      .ok (view.heap.graph.retained view.heap.size o) := by
  have hfind : ∀ y, (OrderedDict.ofPairs [(o, (0 : ℤ))]).find? y = if o = y then some 0 else none := fun y => by
    rw [OrderedDict.find?_ofPairs]
    rfl
  obtain ⟨deleted, hdeleted, hrun⟩ := @retainedHeap_spec view (objectSeeds view o) orders hview
    (objectSeeds_fits view o) (.object o) view.heap.nodes
    (fun y hy => mem_nodes.2 (.inl (show y ∈ _ from hy ▸ ho))) (cut_subset_nodes view) (.ofPairs [(o, 0)]) [o]
    (fun y c hc => by
      rw [hfind] at hc
      split_ifs at hc with hy
      exact ⟨hy.symm, by simpa [objectSeeds, RefGraph.need, hy] using hc.symm⟩)
    (fun y hy hstart => by rw [hfind, if_pos (show o = y from hstart.symm)] at hy; cases hy)
    (fun y => by rw [← OrderedDict.find?_isSome, hfind, List.mem_singleton]; split_ifs <;> simp_all [eq_comm])
    rounds hrounds
  rw [hrun]
  congr 1
  exact RefGraph.sum_cut hview.marks size_of_not_mem hdeleted

/-! ### The loop over the objects -/

/-- The calculator after `_find_strict_subtrees` and the objects `seen`. -/
structure ObjectsDone (heap : Heap) (c₀ : Calculator) (seen : Finset ℕ) (c : Calculator) : Prop where
  rest : c = { c₀ with objectRetained := c.objectRetained }
  sizes : ∀ x, c.objectRetained.find? x =
    if x ∈ seen ∨ x ∈ c₀.subtreeRoots then some (heap.graph.retained heap.size x) else none

/-- A calculator whose subtrees have been found. -/
structure SubtreesReady (heap : Heap) (c : Calculator) : Prop where
  heap_eq : c.heap = heap
  index : IndexOf heap c.inbound
  found : Marking.Found heap.graph heap.size ⟨c.subtreeRoots, c.objectRetained.find?, c.heap.graph.objects⟩

/-- The sums stored for the strict subtrees stay what they are. -/
theorem ObjectsDone.viewOk {c₀ c : Calculator} (hready : SubtreesReady heap c₀) {seen : Finset ℕ}
    (h : ObjectsDone heap c₀ seen c) : ViewOk (c.view true) := by
  obtain ⟨rfl, hindex, hfound⟩ := hready
  have hc := h.rest
  refine ⟨?_, ?_, fun x hx => ?_⟩
  · rw [hc]
    exact hindex
  · rw [hc]
    exact hfound.ok.marks
  · have hx' : x ∈ c₀.subtreeRoots := by
      rw [hc] at hx
      exact hx
    have hstrict := hfound.ok.marks.strict x hx'
    have hheap : (c.view true).heap = c₀.heap := by rw [hc]; rfl
    rw [hheap]
    change c.objectRetained.find? x = _
    rw [h.sizes x, if_pos (.inr hx'), hstrict.retained_eq]

/-- **The loop over the objects.** -/
theorem calculateObjects_ok (orders : Orders) {c₀ : Calculator} (hready : SubtreesReady heap c₀) {rounds : ℕ}
    (hrounds : heap.nodes.card < rounds) :
    ∃ c, heap.objects.keys.foldlM (Calculator.calculateObject orders rounds) c₀ = .ok c ∧
      ObjectsDone heap c₀ heap.graph.objects c := by
  let inv (seen : List ℕ) (c : Calculator) : Prop := ObjectsDone heap c₀ seen.toFinset c
  have hstart : inv [] c₀ := by
    refine ⟨rfl, fun x => ?_⟩
    by_cases hx : x ∈ c₀.subtreeRoots
    · rw [if_pos (.inr hx), (hready.found.ok.marks.strict x hx).retained_eq]
      exact hready.found.ok.sums x hx
    · rw [if_neg (by simpa using hx)]
      exact hready.found.ok.unmarked x hx
  have hround : ∀ seen x rest c, seen ++ x :: rest = heap.objects.keys → inv seen c →
      ∃ c', Calculator.calculateObject orders rounds c x = .ok c' ∧ inv (seen ++ [x]) c' := by
    intro seen x rest c hsplit hc
    have hx : x ∈ heap.graph.objects :=
      mem_graph_objects.2 (hsplit ▸ List.mem_append_right _ List.mem_cons_self)
    have hheap : (c.view true).heap = heap := by
      rw [hc.rest, ← hready.heap_eq]
      rfl
    have hrun := @retainedHeap_object orders _ (hc.viewOk hready) x (by rw [hheap]; exact hx) rounds
      (by rw [hheap]; exact hrounds)
    rw [hheap] at hrun
    refine ⟨_, bind_ok hrun, ⟨?_, fun y => ?_⟩⟩
    · rw [hc.rest]
    · rw [OrderedDict.find?_insert, hc.sizes y]
      by_cases hxy : x = y
      · rw [if_pos hxy, if_pos (.inl (by simp [hxy])), hxy]
      · simp [hxy, Ne.symm hxy]
  obtain ⟨c, hrun, hc⟩ := foldlM_ok inv hstart hround
  exact ⟨c, hrun, hc⟩

/-! ### The threads -/

/-- The count that an address starts with, or would have started with, when `others`
threads besides hold the locals. -/
def Heap.localsNeed (heap : Heap) (others : ℕ → ℕ) (locals : Finset ℕ) (y : ℕ) : ℤ :=
  (heap.graph.inbound y).card + if y ∈ locals then others y else 0

open Classical in
/-- The sizes of the objects that die with the locals. -/
noncomputable def Heap.localsRetained (heap : Heap) (others : ℕ → ℕ) (locals : Finset ℕ) : ℕ :=
  ∑ x ∈ heap.graph.objects with RefCount.Dead heap.graph.succ (heap.localsNeed others locals) (· ∈ locals) x,
    heap.size x

/-- What a thread retains. -/
noncomputable def Heap.threadRetained (heap : Heap) (thread : HeapThread) : ℕ :=
  heap.localsRetained (otherThreads heap.threads thread) thread.locals

/-- **The counts of the locals.** -/
theorem localCounts_ok {inbound : OrderedDict ℕ (Finset ℕ)} (hin : IndexOf heap inbound) (thread : HeapThread)
    {front : List ℕ} (hnodes : ∀ y ∈ front, y ∈ heap.nodes) :
    ∃ inboundView, front.foldlM (localCount inbound heap.threads thread) .empty = .ok inboundView ∧
      ∀ y, inboundView.find? y =
        if y ∈ front then some (((heap.graph.inbound y).card : ℤ) + otherThreads heap.threads thread y)
        else none := by
  let inv (seen : List ℕ) (inboundView : OrderedDict ℕ ℤ) : Prop := ∀ y, inboundView.find? y =
    if y ∈ seen then some (((heap.graph.inbound y).card : ℤ) + otherThreads heap.threads thread y) else none
  refine foldlM_ok inv (fun y => by simp) ?_
  intro seen x rest view hsplit hview
  have hx : x ∈ heap.nodes := hnodes x (hsplit ▸ List.mem_append_right _ List.mem_cons_self)
  refine ⟨_, bind_ok (getItem_ok (hin x (mem_nodes.1 hx))), fun y => ?_⟩
  rw [OrderedDict.find?_insert, hview y]
  by_cases hxy : x = y
  · simp [hxy]
  · simp [hxy, Ne.symm hxy]

/-- The view without the strict subtrees. -/
theorem viewOk_plain {c : Calculator} (hin : IndexOf c.heap c.inbound) : ViewOk (c.view false) where
  index := hin
  marks := ⟨by simp [Calculator.view], by simp [Calculator.view]⟩
  sums := by simp [Calculator.view]

/-- The plain view shows every reference. -/
theorem succ_plain (c : Calculator) : (c.view false).succ = c.heap.graph.succ := by
  funext x
  exact if_neg (Finset.notMem_empty x)

/-- The plain view counts every size. -/
theorem cost_plain (c : Calculator) : (c.view false).cost = c.heap.size := by
  funext x
  exact if_neg (Finset.notMem_empty x)

/-- A run for the locals of a thread. -/
def threadSeeds (heap : Heap) (thread : HeapThread) : Seeds :=
  ⟨(· ∈ thread.locals), heap.localsNeed (otherThreads heap.threads thread) thread.locals⟩

/-- The deletion of a thread starts within the plain view. -/
theorem threadSeeds_fits (c : Calculator) (thread : HeapThread) :
    (threadSeeds c.heap thread).Fits (c.view false) := by
  intro y hy
  have hy' : y ∉ thread.locals := hy
  simp only [threadSeeds, Heap.localsNeed, if_neg hy']
  rfl

open Classical in
/-- **One thread.** -/
theorem calculateThread_ok (orders : Orders) {c : Calculator} (hin : IndexOf c.heap c.inbound) {thread : HeapThread}
    (hlocals : ∀ address ∈ thread.locals, address ∈ c.heap.nodes) (index : ℕ) {rounds : ℕ}
    (hrounds : c.heap.nodes.card < rounds) :
    Calculator.calculateThread orders rounds c (thread, index) =
      .ok { c with threadRetained := c.threadRetained.insert thread.name (c.heap.threadRetained thread) } := by
  set front := orders.walk (.locals index) thread.locals with hfront
  have hmem : ∀ y, y ∈ front ↔ y ∈ thread.locals := fun y => orders.mem_walk _ _ y
  obtain ⟨inboundView, hview, hcounts⟩ := localCounts_ok hin thread fun y hy => hlocals y ((hmem y).1 hy)
  obtain ⟨deleted, hdeleted, hrun⟩ := @retainedHeap_spec (c.view false) (threadSeeds c.heap thread) orders
    (viewOk_plain hin) (threadSeeds_fits c thread) (.thread index) c.heap.nodes hlocals
    (cut_subset_nodes (c.view false)) inboundView front
    (fun y d hd => by
      rw [hcounts] at hd
      split_ifs at hd with hy
      refine ⟨(hmem y).1 hy, ?_⟩
      rw [← Option.some_inj.1 hd]
      simp only [threadSeeds, Heap.localsNeed, if_pos ((hmem y).1 hy)])
    (fun y hy hstart => by rw [hcounts, if_pos ((hmem y).2 hstart)] at hy; cases hy)
    (fun y => by rw [← OrderedDict.find?_isSome, hcounts]; split_ifs <;> simp_all)
    rounds hrounds
  have hsum : ∑ x ∈ deleted, (c.view false).cost x = c.heap.threadRetained thread := by
    rw [cost_plain, Heap.threadRetained, Heap.localsRetained]
    rw [succ_plain] at hdeleted
    refine (Finset.sum_subset (fun x hx => (hdeleted x).2 (Finset.mem_filter.1 hx).2) fun x hx hx' => ?_).symm
    exact size_of_not_mem x fun hobj => hx' (Finset.mem_filter.2 ⟨hobj, (hdeleted x).1 hx⟩)
  rw [Calculator.calculateThread]
  simp only
  rw [← hfront, bind_ok hview, bind_ok hrun, hsum]
  rfl

/-- The results for `threads`, stored under the threads' names in their order. -/
noncomputable def Heap.threadResults (heap : Heap) (threads : List HeapThread) : OrderedDict String ℕ :=
  .ofPairs (threads.map fun thread => (thread.name, heap.threadRetained thread))

/-- The result of one thread more. -/
theorem threadResults_append (heap : Heap) (threads : List HeapThread) (thread : HeapThread) :
    heap.threadResults (threads ++ [thread]) =
      (heap.threadResults threads).insert thread.name (heap.threadRetained thread) := by
  simp only [Heap.threadResults, OrderedDict.ofPairs, List.map_append, List.foldl_append, List.map_cons,
    List.map_nil, List.foldl_cons, List.foldl_nil]

/-- **All threads.** -/
theorem calculateThreads_ok (orders : Orders) {c : Calculator} (hin : IndexOf c.heap c.inbound)
    (hlocals : c.heap.LocalsKnown) {rounds : ℕ} (hrounds : c.heap.nodes.card < rounds)
    (hempty : c.threadRetained = .empty) :
    c.calculateThreads orders rounds = .ok { c with threadRetained := c.heap.threadResults c.heap.threads } := by
  let inv (seen : List (HeapThread × ℕ)) (c' : Calculator) : Prop :=
    c' = { c with threadRetained := c.heap.threadResults (seen.map Prod.fst) }
  have hround : ∀ seen entry rest c', seen ++ entry :: rest = c.heap.threads.zipIdx → inv seen c' →
      ∃ c'', Calculator.calculateThread orders rounds c' entry = .ok c'' ∧ inv (seen ++ [entry]) c'' := by
    rintro seen ⟨thread, index⟩ rest c' hsplit rfl
    have hthread : thread ∈ c.heap.threads :=
      List.fst_mem_of_mem_zipIdx (hsplit ▸ List.mem_append_right _ List.mem_cons_self)
    refine ⟨_, @calculateThread_ok orders { c with threadRetained := c.heap.threadResults (seen.map Prod.fst) } hin
      thread (hlocals thread hthread) index rounds hrounds, ?_⟩
    simp only [inv, List.map_append, List.map_cons, List.map_nil, threadResults_append]
  have hstart : inv [] c := by
    simp only [inv, List.map_nil, Heap.threadResults, OrderedDict.ofPairs, List.foldl_nil, ← hempty]
  obtain ⟨c', hrun, hc'⟩ := foldlM_ok inv hstart hround
  rw [Calculator.calculateThreads, hrun, hc', List.zipIdx_map_fst]

/-! ### The whole calculation -/

/-- The rounds suffice for every deletion. -/
theorem nodes_lt_rounds {rounds : ℕ} (hrounds : heap.rounds ≤ rounds) : heap.nodes.card < rounds := by
  rw [Heap.rounds] at hrounds
  omega

/-- `calculate` as far as the threads. -/
def beforeThreads (orders : Orders) (rounds : ℕ) (heap : Heap) : Except RetainedError Calculator := do
  let c := Calculator.new heap (inboundReferences orders heap)
  let subtrees ← findStrictSubtrees orders rounds c.heap c.inbound
  c.heap.objects.keys.foldlM (Calculator.calculateObject orders rounds)
    { c with subtreeRoots := subtrees.subtreeRoots, objectRetained := subtrees.objectRetained }

/-- The calculation, up to the threads and from there. -/
theorem calculateRetained_eq (orders : Orders) (rounds : ℕ) (heap : Heap) :
    calculateRetained orders rounds heap =
      beforeThreads orders rounds heap >>= fun c =>
        c.calculateThreads orders rounds >>= fun c' => pure ⟨c'.objectRetained, c'.threadRetained⟩ := by
  have hfresh : (Calculator.new heap (inboundReferences orders heap)).checkFresh = .ok () := rfl
  rw [calculateRetained, Calculator.calculate, bind_ok hfresh, beforeThreads]
  simp only [bind_assoc]
  rfl

/-- **`calculate` comes to the threads** on every heap, with the sizes of the objects. -/
theorem beforeThreads_ok (orders : Orders) {rounds : ℕ} (hrounds : heap.rounds ≤ rounds) :
    ∃ c : Calculator, beforeThreads orders rounds heap = .ok c ∧ c.heap = heap ∧
      c.inbound = inboundReferences orders heap ∧ c.threadRetained = .empty ∧
      ∀ x, c.objectRetained.find? x =
        if x ∈ heap.graph.objects then some (heap.graph.retained heap.size x) else none := by
  have hindex := @indexOf_inboundReferences heap orders
  have hsub : subtreeRounds heap ≤ rounds := by
    rw [Heap.rounds] at hrounds
    omega
  have hnodes := nodes_lt_rounds hrounds
  obtain ⟨subtrees, hsubtrees, hfound⟩ := findStrictSubtrees_spec orders hindex hsub
  set c₀ : Calculator := { Calculator.new heap (inboundReferences orders heap) with
    subtreeRoots := subtrees.subtreeRoots, objectRetained := subtrees.objectRetained } with hc₀
  have hready : SubtreesReady heap c₀ :=
    ⟨rfl, hindex, ⟨⟨hfound.ok.marks, hfound.ok.sums, hfound.ok.unmarked, subset_rfl⟩, hfound.complete⟩⟩
  obtain ⟨c₁, hobjects, hdone⟩ := calculateObjects_ok orders hready hnodes
  refine ⟨c₁, (bind_ok hsubtrees).trans hobjects, by rw [hdone.rest]; rfl, by rw [hdone.rest]; rfl,
    by rw [hdone.rest]; rfl, fun x => ?_⟩
  rw [hdone.sizes x]
  refine if_congr (or_iff_left_of_imp fun hx => ?_) rfl rfl
  exact (hfound.ok.marks.strict x hx).object

/-- **`calculate`** on a heap whose thread locals occur in its graph. -/
theorem calculateRetained_ok (orders : Orders) (hlocals : heap.LocalsKnown) {rounds : ℕ}
    (hrounds : heap.rounds ≤ rounds) :
    ∃ result, calculateRetained orders rounds heap = .ok result ∧
      (∀ x, result.objects.find? x =
        if x ∈ heap.graph.objects then some (heap.graph.retained heap.size x) else none) ∧
      result.threads = heap.threadResults heap.threads := by
  obtain ⟨c, hbefore, hheap, hinbound, hempty, hobjects⟩ := beforeThreads_ok orders hrounds
  have hindex : IndexOf c.heap c.inbound := by
    rw [hheap, hinbound]
    exact indexOf_inboundReferences orders
  have hthreads := calculateThreads_ok orders hindex (hheap ▸ hlocals) (hheap ▸ nodes_lt_rounds hrounds) hempty
  exact ⟨_, (calculateRetained_eq orders rounds heap).trans ((bind_ok hbefore).trans (bind_ok hthreads)), hobjects, by
    rw [hheap]⟩

/-- **A local that does not occur in the graph** makes `calculate` fail. -/
theorem localsKnown_of_ok (orders : Orders) {rounds : ℕ} (hrounds : heap.rounds ≤ rounds) {result : RetainedHeap}
    (h : calculateRetained orders rounds heap = .ok result) : heap.LocalsKnown := by
  obtain ⟨c, hbefore, hheap, hinbound, -⟩ := beforeThreads_ok orders hrounds
  rw [calculateRetained_eq, bind_ok hbefore, bind_eq_ok] at h
  obtain ⟨c', hthreads, -⟩ := h
  let inv (seen : List (HeapThread × ℕ)) (c' : Calculator) : Prop :=
    c'.inbound = inboundReferences orders heap ∧ ∀ entry ∈ seen, ∀ address ∈ entry.1.locals, address ∈ heap.nodes
  have hstep : ∀ seen entry c₁ c₂, inv seen c₁ → Calculator.calculateThread orders rounds c₁ entry = .ok c₂ →
      inv (seen ++ [entry]) c₂ := by
    rintro seen entry c₁ c₂ ⟨hinbound₁, hseen⟩ hthread
    rw [Calculator.calculateThread, bind_eq_ok] at hthread
    obtain ⟨inboundView, hview, hrest⟩ := hthread
    rw [bind_eq_ok] at hrest
    obtain ⟨retained, -, hc₂⟩ := hrest
    cases hc₂
    refine ⟨hinbound₁, fun entry' hentry' => ?_⟩
    rcases List.mem_append.1 hentry' with hentry' | hentry'
    · exact hseen entry' hentry'
    · obtain rfl := List.mem_singleton.1 hentry'
      intro address ha
      have hall := foldlM_inv (fun (walked : List ℕ) (_ : OrderedDict ℕ ℤ) => ∀ address ∈ walked, address ∈ heap.nodes)
        (fun _ hm => absurd hm List.not_mem_nil) (fun walked x view view' hwalked hx address hm => by
          rw [localCount, bind_eq_ok] at hx
          obtain ⟨referrers, hget, -⟩ := hx
          rcases List.mem_append.1 hm with hm | hm
          · exact hwalked address hm
          · obtain rfl := List.mem_singleton.1 hm
            rw [getItem, hinbound₁] at hget
            cases hfind : (inboundReferences orders heap).find? address with
            | none => rw [hfind] at hget; cases hget
            | some _ => exact mem_nodes.2 (mem_of_inboundReferences orders hfind)) hview
      exact hall address ((orders.mem_walk _ _ _).2 ha)
  have hinv := foldlM_inv inv ⟨hinbound, by simp⟩ hstep hthreads
  intro thread ht
  rw [← hheap] at ht
  obtain ⟨i, hi⟩ := List.mem_iff_getElem?.1 ht
  exact hinv.2 (thread, i) (List.mk_mem_zipIdx_iff_getElem?.2 hi)

/-- **The retained size of an object is its reference-count closure.**  On every
heap whose thread locals occur in its graph, whatever orders Python chooses,
`calculate` returns for each object the sizes of what dies with it, and so does a
run of `_retained_heap` that looks at no strict subtree. -/
theorem calculate_retains_closure (hlocals : heap.LocalsKnown) (orders : Orders) {rounds : ℕ}
    (hrounds : heap.rounds ≤ rounds) :
    ∃ result, calculateRetained orders rounds heap = .ok result ∧
      ∀ o ∈ heap.objects.keys, result.objects.find? o = some (heap.graph.retained heap.size o) ∧
        retainedHeap orders rounds ((Calculator.new heap (inboundReferences orders heap)).view false)
          (.object o) (.ofPairs [(o, 0)]) [o] = .ok (heap.graph.retained heap.size o) := by
  obtain ⟨result, hrun, hobjects, -⟩ := calculateRetained_ok orders hlocals hrounds
  refine ⟨result, hrun, fun o ho => ⟨?_, ?_⟩⟩
  · rw [hobjects, if_pos (mem_graph_objects.2 ho)]
  · have hplain : ViewOk ((Calculator.new heap (inboundReferences orders heap)).view false) :=
      viewOk_plain (indexOf_inboundReferences orders)
    exact retainedHeap_object orders hplain (mem_graph_objects.2 ho)
      (lt_of_lt_of_le (Nat.lt_succ_of_le (Nat.le_add_left _ _)) hrounds)

/-- Two objects that refer to each other above a shared one, a dangling referent,
and a thread that holds the first. -/
def cyclicHeap : Heap where
  header := ⟨1, "", ⟨false⟩, .empty⟩
  threads := [⟨"MainThread", true, false, [⟨"main.py", 1, "run", .ofPairs [("x", 1)]⟩]⟩]
  objects := .ofPairs [(1, ⟨1, 0, 10, {2, 3}, .none, none⟩), (2, ⟨2, 0, 20, {1, 3}, .none, none⟩),
    (3, ⟨3, 0, 30, {99}, .none, none⟩)]
  types := .empty
  source := none

/-- The cyclic heap knows its locals. -/
theorem cyclicHeap_localsKnown : cyclicHeap.LocalsKnown := by
  have h : ∀ thread ∈ cyclicHeap.threads, ∀ address ∈ thread.locals, address ∈ cyclicHeap.nodes := by decide
  exact h

/-- The closure of every object of the cyclic heap. -/
theorem calculate_retains_closure_cyclic :
    ∃ result, calculateRetained .ascending cyclicHeap.rounds cyclicHeap = .ok result ∧
      ∀ o ∈ cyclicHeap.objects.keys,
        result.objects.find? o = some (cyclicHeap.graph.retained cyclicHeap.size o) := by
  obtain ⟨result, hrun, hobjects⟩ := calculate_retains_closure cyclicHeap_localsKnown .ascending le_rfl
  exact ⟨result, hrun, fun o ho => (hobjects o ho).1⟩

end Analyzer
end Pydump
