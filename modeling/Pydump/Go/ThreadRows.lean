/-
# Whose size stands in the row of a thread

Both analyzers compute a size for every thread and keep it under the name of the thread, in
a map that goes to the report at once or through the cache.  Of several threads of one name
the last one is kept, and all of them show its size.

`thread_rows_own_iff` says for which heaps every row still has its own size.
-/

import Pydump.Analyzer.ThreadRows
import Pydump.Go.CacheExchange
import Pydump.Go.Report
import Pydump.Go.ThreadAgreement

namespace Pydump
namespace Go

open ExceptLoop
open Analyzer (CachedHeap OwnRows ThreadSummary ownRows_iff)
open Sorting (FreeSort)

variable {heap : Analyzer.Heap} {value : Heap} {R : ContentRelation}

/-! ### The runs -/

/-- The run for one thread, up to the assignment. -/
def Calculator.threadRun (orders : Orders) (rounds : ℕ) (threadLocals : List (Finset ℕ)) (c : Calculator)
    (entry : Thread × ℕ) : Except AnalysisError ℕ := do
  let removedLocals ← getAt threadLocals entry.2
  let locals ← (orders.walk (.locals entry.2) removedLocals).foldlM (addLocal c.graph threadLocals entry.2) ⟨.empty, []⟩
  c.retained orders rounds (.thread entry.2) locals.view locals.front false

/-- A round of the loop over the threads is a run and an assignment. -/
theorem calculateThread_eq (orders : Orders) (rounds : ℕ) (threadLocals : List (Finset ℕ)) (c : Calculator)
    (entry : Thread × ℕ) :
    Calculator.calculateThread orders rounds threadLocals c entry =
      Calculator.threadRun orders rounds threadLocals c entry >>= fun retained =>
        .ok { c with threadRetained := c.threadRetained.insert entry.1.name retained } := by
  rw [Calculator.calculateThread, Calculator.threadRun]
  simp only [bind_assoc]
  rfl

/-- The results of the runs, thread by thread. -/
def threadRuns (orders : Orders) (rounds : ℕ) (value : Heap) : Except AnalysisError (List ℕ) := do
  let c ← beforeThreads orders rounds value
  c.heap.threads.zipIdx.mapM (Calculator.threadRun orders rounds (c.heap.threads.map Thread.localAddresses) c)

/-- A run for a thread returns its size. -/
theorem threadRun_ok {nodes : List ℕ} {c : Calculator} (orders : Orders) (hc : Prepared R heap value nodes c) {i : ℕ}
    {thread : Thread} {thread' : Analyzer.HeapThread} (hthread : heap.threads[i]? = some thread') {rounds : ℕ}
    (hrounds : nodes.length < rounds) :
    Calculator.threadRun orders rounds (heap.threads.map Analyzer.HeapThread.locals) c (thread, i) =
      .ok (indexRetained heap i thread') := by
  have hround : Calculator.calculateThread orders rounds (heap.threads.map Analyzer.HeapThread.locals) c (thread, i) =
      .ok { c with threadRetained := c.threadRetained.insert thread.name (indexRetained heap i thread') } :=
    calculateThread_ok orders hc hthread hrounds
  rw [calculateThread_eq, bind_eq_ok] at hround
  obtain ⟨retained, hrun, hassigned⟩ := hround
  have hkept := congrArg (fun c : Calculator => c.threadRetained.find? thread.name) (Except.ok.inj hassigned)
  simp only [OrderedDict.find?_insert, if_pos] at hkept
  rw [hrun, Option.some.inj hkept]

/-- **The runs** of a calculation that succeeds. -/
theorem threadRuns_ok (hlike : LikeHeap R heap value) (hbounded : Bounded heap) (hfits : value.FitsIndex)
    (orders : Orders) {rounds : ℕ} (hrounds : value.rounds ≤ rounds) :
    threadRuns orders rounds value = .ok (heap.threads.zipIdx.map fun entry => indexRetained heap entry.2 entry.1) := by
  obtain ⟨c, nodes, hbefore, hprepared, hnodes, -⟩ := beforeThreads_ok hlike hbounded hfits orders hrounds
  have hlength : value.threads.length = heap.threads.length := hlike.threads.length_eq.symm
  rw [threadRuns, bind_ok hbefore, hprepared.heap_eq, hlike.threadLocals]
  refine mapM_of_forall₂ (List.forall₂_iff_get.2 ⟨by simp [hlength], fun i hi hi' => ?_⟩)
  have hlt : i < heap.threads.length := by simpa using hi'
  simp only [List.get_eq_getElem, List.getElem_zipIdx, List.getElem_map, Nat.zero_add]
  exact threadRun_ok orders hprepared (List.getElem?_eq_getElem hlt) hnodes

/-! ### The reports -/

/-- What the Go report is made from: what was calculated, or what is loaded of it. -/
inductive Served (mapOrder : MapOrder) (value : Heap) (retained : RetainedHeap) : RetainedHeap → Prop
  | calculated : Served mapOrder value retained retained
  | loaded {shown : RetainedHeap}
      (h : loadRetainedCache mapOrder (.document (retainedDocument value retained)) value = .ok (some shown)) :
      Served mapOrder value retained shown

/-- What is served has the calculated sizes of the threads. -/
theorem Served.threads {mapOrder : MapOrder} {retained shown : RetainedHeap} (hindexed : value.Indexed)
    (h : Served mapOrder value retained shown) : shown.threads.find? = retained.threads.find? := by
  cases h with
  | calculated => rfl
  | loaded h => exact (shows_of_loadRetainedCache hindexed (holds_retainedDocument hindexed) h).threads

/-- The rows of the Python report have their own sizes exactly if `condition`. -/
def PythonRowsIff (heap : Analyzer.Heap) (shown : CachedHeap) (runs : List ℕ) (condition : Prop) : Prop :=
  ∃ rows, Analyzer.threadSummaries heap (some shown) = .ok rows ∧ (OwnRows rows runs ↔ condition)

/-- The rows of the Go report have their own sizes exactly if `condition`. -/
def GoRowsIff (value : Heap) (shown : RetainedHeap) (runs : List ℕ) (condition : Prop) : Prop :=
  ∀ (order : RangeOrder) (sorter : FreeSort),
    OwnRows (threadSummaries order sorter value (some shown)) runs ↔ condition

/-- **The Python report** shows what is kept under the names. -/
theorem pythonRowsIff_of_shows {α : Type} {xs : List α} {thread : α → Analyzer.HeapThread} {result : α → ℕ}
    (hthreads : heap.threads = xs.map thread) {shown : CachedHeap} {sizes : Analyzer.Sizes} (hshows : shown.Shows sizes)
    (hsizes : sizes.threads = (OrderedDict.ofPairs (xs.map fun x => ((thread x).name, result x))).find?) :
    PythonRowsIff heap shown (xs.map result)
      (∀ x ∈ xs, ∀ y ∈ xs, (thread x).name = (thread y).name → result x = result y) := by
  have hfound : ∀ t ∈ heap.threads, ∃ size, sizes.threads t.name = some size := by
    intro t ht
    rw [hthreads] at ht
    obtain ⟨x, hx, rfl⟩ := List.mem_map.1 ht
    rw [hsizes]
    refine OrderedDict.exists_find?_of_mem_keys (OrderedDict.mem_keys_ofPairs.2 ?_)
    rw [List.map_map]
    exact List.mem_map_of_mem hx
  obtain ⟨rows, hrun, hrows⟩ := Analyzer.threadSummaries_ok hshows hfound
  refine ⟨rows, hrun, ownRows_iff xs (fun x => (thread x).name) result ?_⟩
  rw [hrows, hthreads, List.map_map, hsizes]
  rfl

/-- **The Go report** shows what is kept under the names. -/
theorem goRowsIff_of_threads {α : Type} {xs : List α} {thread : α → Analyzer.HeapThread} {result : α → ℕ}
    (hthreads : heap.threads = xs.map thread) (hlike : LikeHeap R heap value) {shown : RetainedHeap}
    (hshown : shown.threads.find? = (OrderedDict.ofPairs (xs.map fun x => ((thread x).name, result x))).find?) :
    GoRowsIff value shown (xs.map result)
      (∀ x ∈ xs, ∀ y ∈ xs, (thread x).name = (thread y).name → result x = result y) := by
  intro order sorter
  refine ownRows_iff xs (fun x => (thread x).name) result ?_
  have hnames : value.threads.map Thread.name = heap.threads.map Analyzer.HeapThread.name :=
    (List.forall₂_eq_eq_eq ▸ List.forall₂_map_left_iff.2 (List.forall₂_map_right_iff.2
      (hlike.threads.imp fun _ _ ht => ht.name)) : heap.threads.map _ = value.threads.map _).symm
  have hrows : (threadSummaries order sorter value (some shown)).map ThreadSummary.retainedSizeBytes =
      (value.threads.map Thread.name).map fun name => some (((shown.threads.find? name).getD 0 : ℕ) : ℤ) := by
    rw [threadSummaries, List.map_map, List.map_map]
    rfl
  rw [hrows, hnames, hthreads, List.map_map, List.map_map, hshown]
  rfl

/-! ### Threads of one name -/

/-- Every chain of references to `address` begins at a local of the thread at `i`, and no
local of the thread on such a chain is held by a thread at another index. -/
def OnlyThroughIndex (heap : Analyzer.Heap) (i : ℕ) (thread : Analyzer.HeapThread) (address : ℕ) : Prop :=
  heap.graph.FreedWith (· ∈ thread.locals) (fun y => y ∈ thread.locals ∧ HeldAt heap i y) address

/-- Of two threads of one name, the objects to which only the one is the way have the same
total size as those to which only the other is. -/
def NamesakesAlike (heap : Analyzer.Heap) : Prop :=
  ∀ thread ∈ heap.threads, ∀ other ∈ heap.threads, thread.name = other.name →
    heap.graph.weight heap.size (fun x => OnlyThroughFields heap thread x ∧ ¬OnlyThroughFields heap other x) =
      heap.graph.weight heap.size fun x => OnlyThroughFields heap other x ∧ ¬OnlyThroughFields heap thread x

/-- The same, where threads are told by their indices. -/
def NamesakesAlikeAt (heap : Analyzer.Heap) : Prop :=
  ∀ entry ∈ heap.threads.zipIdx, ∀ other ∈ heap.threads.zipIdx, entry.1.name = other.1.name →
    heap.graph.weight heap.size
        (fun x => OnlyThroughIndex heap entry.2 entry.1 x ∧ ¬OnlyThroughIndex heap other.2 other.1 x) =
      heap.graph.weight heap.size
        fun x => OnlyThroughIndex heap other.2 other.1 x ∧ ¬OnlyThroughIndex heap entry.2 entry.1 x

/-- Namesakes are alike if and only if their sizes are equal. -/
theorem namesakesAlike_iff : NamesakesAlike heap ↔
    ∀ thread ∈ heap.threads, ∀ other ∈ heap.threads, thread.name = other.name →
      heap.threadRetained thread = heap.threadRetained other := by
  unfold NamesakesAlike
  simp only [Analyzer.threadRetained_eq]
  exact forall₂_congr fun _ _ => forall₂_congr fun _ _ => imp_congr_right fun _ => RefGraph.weight_eq_iff.symm

/-- Namesakes are alike by index if and only if their sizes are equal. -/
theorem namesakesAlikeAt_iff : NamesakesAlikeAt heap ↔
    ∀ entry ∈ heap.threads.zipIdx, ∀ other ∈ heap.threads.zipIdx, entry.1.name = other.1.name →
      indexRetained heap entry.2 entry.1 = indexRetained heap other.2 other.1 := by
  unfold NamesakesAlikeAt
  simp only [indexRetained_eq]
  exact forall₂_congr fun _ _ => forall₂_congr fun _ _ => imp_congr_right fun _ => RefGraph.weight_eq_iff.symm

/-- Two workers with the same local are alike. -/
theorem workerHeap_alike : NamesakesAlike (workerHeap [1, 1]) ∧ NamesakesAlikeAt (workerHeap [1, 1]) := by
  have hthread : ∀ thread ∈ (workerHeap [1, 1]).threads, thread = worker 1 := by
    intro thread hthread
    simpa [workerHeap] using hthread
  constructor
  · intro thread ht other ho _
    rw [hthread thread ht, hthread other ho]
  · rw [namesakesAlikeAt_iff]
    have hzero : ∀ i thread, (workerHeap [1, 1]).threads[i]? = some thread →
        indexRetained (workerHeap [1, 1]) i thread = 0 := by
      -- the other worker holds the local
      intro i thread hi
      have hlt : i < 2 := (List.getElem?_eq_some_iff.1 hi).1
      have hheld : ∀ y ∈ thread.locals, HeldAt (workerHeap [1, 1]) i y := by
        intro y hy
        rw [hthread thread (List.mem_of_getElem? hi)] at hy
        obtain rfl | rfl : i = 0 ∨ i = 1 := by omega
        · exact ⟨1, worker 1, Nat.one_ne_zero, rfl, hy⟩
        · exact ⟨0, worker 1, Nat.zero_ne_one, rfl, hy⟩
      rw [indexRetained_eq, RefGraph.freed, Finset.sum_filter]
      exact Finset.sum_eq_zero fun x _ => if_neg (RefGraph.not_freedWith_of_held fun y hy => ⟨hy, hheld y hy⟩)
    intro entry he other ho _
    rw [hzero _ _ (List.mem_zipIdx_iff_getElem?.1 he), hzero _ _ (List.mem_zipIdx_iff_getElem?.1 ho)]

/-- The runs of both analyzers over one heap, and what the maps keep of them. -/
theorem pythonRuns_ok (orders : Analyzer.Orders) {rounds : ℕ} (hrounds : heap.rounds ≤ rounds)
    {result : Analyzer.RetainedHeap} (hrun : Analyzer.calculateRetained orders rounds heap = .ok result) :
    Analyzer.threadRuns orders rounds heap = .ok (heap.threads.map heap.threadRetained) ∧
      result.threads.find? =
        (OrderedDict.ofPairs (heap.threads.map fun thread => (thread.name, heap.threadRetained thread))).find? := by
  have hlocals := Analyzer.localsKnown_of_ok orders hrounds hrun
  obtain ⟨result', hrun', -, hthreads⟩ := Analyzer.calculateRetained_ok orders hlocals hrounds
  cases hrun.symm.trans hrun'
  exact ⟨Analyzer.threadRuns_ok orders hlocals hrounds, by rw [hthreads, Analyzer.Heap.threadResults]⟩

/-- The runs for the threads return their sizes. -/
theorem goRuns_ok (hlike : LikeHeap R heap value) (hbounded : Bounded heap) (orders : Orders) {rounds : ℕ}
    (hrounds : value.rounds ≤ rounds) {result : RetainedHeap}
    (hrun : calculateRetainedHeap orders rounds value = .ok result) :
    threadRuns orders rounds value = .ok (heap.threads.zipIdx.map fun entry => indexRetained heap entry.2 entry.1) ∧
      result.threads.find? = (OrderedDict.ofPairs (heap.threads.zipIdx.map fun entry =>
        (entry.1.name, indexRetained heap entry.2 entry.1))).find? := by
  have hfits := fitsIndex_of_ok (hlike.wellFormed hbounded) hrun
  obtain ⟨result', hrun', -, hthreads⟩ := calculateRetainedHeap_ok hlike hbounded hfits orders hrounds
  cases hrun.symm.trans hrun'
  exact ⟨threadRuns_ok hlike hbounded hfits orders hrounds, by rw [hthreads, indexResults]⟩

/-- **When every row has the size of its own thread.**  Whether the sizes were calculated
or loaded, and whichever analyzer wrote them: the rows of both reports have what the run for
each thread returned, if and only if of two threads of one name the one is the only way to
as much as the other.  The calculators do not agree on what counts as another thread. -/
theorem thread_rows_own_iff (python : Analyzer.Interpreter) (mapOrder : MapOrder) (heap : Analyzer.Heap) :
    (∀ (orders : Analyzer.Orders) (rounds : ℕ) (result : Analyzer.RetainedHeap), heap.rounds ≤ rounds →
      Analyzer.calculateRetained orders rounds heap = .ok result →
      ∃ runs, Analyzer.threadRuns orders rounds heap = .ok runs ∧
        (∀ shown, Analyzer.Served python result shown → PythonRowsIff heap shown runs (NamesakesAlike heap)) ∧
        ∀ (R : ContentRelation) (value : Heap) (shown : RetainedHeap), LikeHeap R heap value →
          loadRetainedCache mapOrder (.document result.dump) value = .ok (some shown) →
            GoRowsIff value shown runs (NamesakesAlike heap)) ∧
    ∀ (R : ContentRelation) (value : Heap), LikeHeap R heap value → Bounded heap →
      ∀ (orders : Orders) (rounds : ℕ) (result : RetainedHeap), value.rounds ≤ rounds →
        calculateRetainedHeap orders rounds value = .ok result →
        ∃ runs, threadRuns orders rounds value = .ok runs ∧
          (∀ shown, Served mapOrder value result shown → GoRowsIff value shown runs (NamesakesAlikeAt heap)) ∧
          ∀ shown, Analyzer.loadCache python (.document (retainedDocument value result)) = .ok (some shown) →
            PythonRowsIff heap shown runs (NamesakesAlikeAt heap) := by
  constructor
  · intro orders rounds result hrounds hrun
    obtain ⟨hruns, hkept⟩ := pythonRuns_ok orders hrounds hrun
    have hthreads : heap.threads = heap.threads.map id := (List.map_id _).symm
    refine ⟨_, hruns, fun shown hserved => ?_, fun R value shown hlike hload => ?_⟩
    · rw [namesakesAlike_iff]
      exact pythonRowsIff_of_shows hthreads hserved.shows hkept
    · rw [namesakesAlike_iff]
      have hshows := shows_of_loadRetainedCache hlike.index (Analyzer.holds_dump result) hload
      exact goRowsIff_of_threads hthreads hlike (hshows.threads.trans hkept)
  · intro R value hlike hbounded orders rounds result hrounds hrun
    obtain ⟨hruns, hkept⟩ := goRuns_ok hlike hbounded orders hrounds hrun
    have hthreads : heap.threads = heap.threads.zipIdx.map Prod.fst := (List.zipIdx_map_fst 0 _).symm
    refine ⟨_, hruns, fun shown hserved => ?_, fun shown hload => ?_⟩
    · rw [namesakesAlikeAt_iff]
      exact goRowsIff_of_threads hthreads hlike ((hserved.threads hlike.index).trans hkept)
    · rw [namesakesAlikeAt_iff]
      have hshows := (holds_retainedDocument hlike.index).shows hload
      exact pythonRowsIff_of_shows hthreads hshows hkept

/-- Two workers of one name with the same local: each row has the size of its own worker,
whichever analyzer has calculated the sizes, and whichever loads them from the cache. -/
theorem thread_rows_own_workers :
    (∃ result runs shown rows goShown,
      Analyzer.calculateRetained .ascending (workerHeap [1, 1]).rounds (workerHeap [1, 1]) = .ok result ∧
      Analyzer.threadRuns .ascending (workerHeap [1, 1]).rounds (workerHeap [1, 1]) = .ok runs ∧
      Analyzer.loadCache asciiPython (.document result.dump) = .ok (some shown) ∧
      Analyzer.threadSummaries (workerHeap [1, 1]) (some shown) = .ok rows ∧ OwnRows rows runs ∧
      loadRetainedCache .inserted (.document result.dump) (goWorkerHeap [1, 1]) = .ok (some goShown) ∧
      OwnRows (threadSummaries .inserted .stable (goWorkerHeap [1, 1]) (some goShown)) runs) ∧
    ∃ result runs goShown shown rows,
      calculateRetainedHeap .ascending (goWorkerHeap [1, 1]).rounds (goWorkerHeap [1, 1]) = .ok result ∧
      threadRuns .ascending (goWorkerHeap [1, 1]).rounds (goWorkerHeap [1, 1]) = .ok runs ∧
      loadRetainedCache .inserted (.document (retainedDocument (goWorkerHeap [1, 1]) result)) (goWorkerHeap [1, 1]) =
        .ok (some goShown) ∧
      OwnRows (threadSummaries .inserted .stable (goWorkerHeap [1, 1]) (some goShown)) runs ∧
      Analyzer.loadCache asciiPython (.document (retainedDocument (goWorkerHeap [1, 1]) result)) = .ok (some shown) ∧
      Analyzer.threadSummaries (workerHeap [1, 1]) (some shown) = .ok rows ∧ OwnRows rows runs := by
  have hsame := workerHeap_same [1, 1]
  have hbounded := workerHeap_bounded [1, 1]
  have hpythonSound : asciiPython.Sound := ⟨by decide, by decide⟩
  have haddresses : ∀ a ∈ (workerHeap [1, 1]).objects.keys, a < 2 ^ 64 := by
    have h : ∀ a ∈ [1], a < 2 ^ 64 := by decide
    exact h
  have hlocals : (workerHeap [1, 1]).LocalsKnown := by
    have h : ∀ thread ∈ (workerHeap [1, 1]).threads, ∀ address ∈ thread.locals,
        address ∈ (workerHeap [1, 1]).nodes := by decide
    exact h
  obtain ⟨halike, halikeAt⟩ := workerHeap_alike
  obtain ⟨hpython, hgo⟩ := thread_rows_own_iff asciiPython .inserted (workerHeap [1, 1])
  constructor
  · obtain ⟨result, hrun, -⟩ :=
      Analyzer.calculateRetained_ok .ascending hlocals (le_refl (workerHeap [1, 1]).rounds)
    have hcovers := covers_of_calculateRetained hbounded le_rfl hrun
    have hkeys := hcovers.addresses.trans (.of_eq hsame.keys)
    have hrange : ∀ a ∈ result.objects.keys, a < 2 ^ 64 := fun a ha =>
      haddresses a (hcovers.addresses.mem_iff.1 ha)
    obtain ⟨shown, hload, -⟩ := Analyzer.loadCache_cacheEntry hpythonSound result.objects result.threads hrange
      hcovers.objectSizes hcovers.threadSizes
    obtain ⟨goShown, hgoLoad, -⟩ :=
      loadRetainedCache_cacheEntry .inserted hsame.index result.objects result.threads hkeys
      hrange hcovers.objectSizes hcovers.threadSizes
    obtain ⟨runs, hruns, hserved, hgoLoaded⟩ := hpython .ascending _ result le_rfl hrun
    obtain ⟨rows, hrows, hown⟩ := hserved shown (.loaded hload)
    exact ⟨result, runs, shown, rows, goShown, hrun, hruns, hload, hrows, hown.2 halike, hgoLoad,
      (hgoLoaded _ _ goShown hsame hgoLoad .inserted .stable).2 halike⟩
  · obtain ⟨result, hrun, -⟩ := calculateRetainedHeap_ok hsame hbounded (workerHeap_fitsIndex [1, 1] (by decide))
      .ascending (le_refl (goWorkerHeap [1, 1]).rounds)
    obtain ⟨objects, threads, hdoc, -, -, hkeys, hobjectSizes, hthreadSizes⟩ :=
      retainedDocument_facts hsame.index (covers_of_calculateRetainedHeap hsame hbounded le_rfl hrun)
    have hrange : ∀ a ∈ objects.keys, a < 2 ^ 64 := fun a ha =>
      haddresses a (by rw [hsame.keys]; exact hkeys.mem_iff.1 ha)
    obtain ⟨shown, hload, -⟩ :=
      Analyzer.loadCache_cacheEntry hpythonSound objects threads hrange hobjectSizes hthreadSizes
    obtain ⟨goShown, hgoLoad, -⟩ := loadRetainedCache_cacheEntry .inserted hsame.index objects threads hkeys hrange
      hobjectSizes hthreadSizes
    rw [← hdoc] at hload hgoLoad
    obtain ⟨runs, hruns, hserved, hpythonLoaded⟩ := hgo _ _ hsame hbounded .ascending _ result le_rfl hrun
    obtain ⟨rows, hrows, hown⟩ := hpythonLoaded shown hload
    exact ⟨result, runs, goShown, shown, rows, hrun, hruns, hgoLoad,
      (hserved goShown (.loaded hgoLoad) .inserted .stable).2 halikeAt, hload, hrows, hown.2 halikeAt⟩

/-- Two threads of one name, each with an object of its own. -/
def namesakesHeap : Analyzer.Heap where
  header := ⟨1, "", ⟨false⟩, .empty⟩
  threads := [worker 1, worker 2]
  objects := .ofPairs [(1, ⟨1, 0, 10, ∅, .none, none⟩), (2, ⟨2, 0, 20, ∅, .none, none⟩)]
  types := .empty
  source := none

/-- `namesakesHeap` as the Go reader holds it. -/
def goNamesakesHeap : Heap where
  header := ⟨1, "", false, .empty⟩
  threads := [goWorker 1, goWorker 2]
  objects := [⟨1, 0, 10, [], .none, [], [], -1⟩, ⟨2, 0, 20, [], .none, [], [], -1⟩]
  objectByAddress := .ofPairs [(1, 0), (2, 1)]
  types := .empty
  source := none

/-- Both heaps of the namesakes are the same. -/
theorem namesakesHeap_same : SameHeap namesakesHeap goNamesakesHeap where
  header := ⟨rfl, rfl, rfl, rfl⟩
  threads := .cons ⟨rfl, rfl, rfl, .cons ⟨rfl, rfl, rfl, rfl⟩ .nil⟩
    (.cons ⟨rfl, rfl, rfl, .cons ⟨rfl, rfl, rfl, rfl⟩ .nil⟩ .nil)
  objects :=
    .cons ⟨rfl, @sameObject_plain 1 10 [] (by decide)⟩ (.cons ⟨rfl, @sameObject_plain 2 20 [] (by decide)⟩ .nil)
  index := by decide
  types := rfl
  source := rfl

/-- The heap of the namesakes is bounded. -/
theorem namesakesHeap_bounded : Bounded namesakesHeap := bounded_of_objects (by decide) (by decide)

/-- Without references a thread frees its own local. -/
theorem namesakesHeap_freed {a : ℕ} {held : ℕ → Prop} (ha : a ∈ namesakesHeap.graph.objects) (hfree : ¬held a) :
    namesakesHeap.graph.freed namesakesHeap.size (· ∈ (worker a).locals) held = namesakesHeap.size a := by
  have hnone : ∀ x y, y ∉ namesakesHeap.graph.succ x := by
    intro x y hy
    have hall : ∀ x ∈ namesakesHeap.graph.objects, namesakesHeap.graph.succ x = ∅ := by decide
    rw [hall x (RefGraph.mem_objects_of_succ hy)] at hy
    exact Finset.notMem_empty y hy
  have hfreed : ∀ x, namesakesHeap.graph.FreedWith (· ∈ (worker a).locals) held x ↔ x = a := by
    intro x
    constructor
    · rintro (⟨hx, -, -⟩ | ⟨-, hx, -, -⟩)
      · exact Finset.mem_singleton.1 hx
      · exact absurd hx (hnone _ _)
    · rintro rfl
      exact .root (Finset.mem_singleton_self x) hfree fun z hz => absurd hz (hnone _ _)
  simp only [RefGraph.freed, hfreed]
  rw [Finset.sum_filter, Finset.sum_ite_eq', if_pos ha]

/-- Each namesake is a worker with an object of its own. -/
theorem namesakesHeap_thread {k : ℕ} {thread : Analyzer.HeapThread} (hk : namesakesHeap.threads[k]? = some thread) :
    thread = worker (k + 1) ∧ k + 1 ∈ namesakesHeap.graph.objects := by
  match k, hk with
  | 0, hk => exact ⟨(Option.some.inj hk).symm, by decide⟩
  | 1, hk => exact ⟨(Option.some.inj hk).symm, by decide⟩

/-- In both analyzers the run for a thread returns the size of its object. -/
theorem namesakesHeap_retained {k : ℕ} {thread : Analyzer.HeapThread} (hk : namesakesHeap.threads[k]? = some thread) :
    namesakesHeap.threadRetained thread = namesakesHeap.size (k + 1) ∧
      indexRetained namesakesHeap k thread = namesakesHeap.size (k + 1) := by
  obtain ⟨rfl, hobject⟩ := namesakesHeap_thread hk
  rw [Analyzer.threadRetained_eq, indexRetained_eq]
  refine ⟨namesakesHeap_freed hobject ?_, namesakesHeap_freed hobject ?_⟩
  · rintro ⟨-, other, hother, hdiffer, hheld⟩
    obtain ⟨j, hj⟩ := List.mem_iff_getElem?.1 hother
    obtain ⟨rfl, -⟩ := namesakesHeap_thread hj
    rw [worker_locals, Finset.mem_singleton] at hheld
    rw [hheld] at hdiffer
    exact hdiffer (Analyzer.sameFields_refl _)
  · rintro ⟨-, j, other, hjk, hj, hheld⟩
    obtain ⟨rfl, -⟩ := namesakesHeap_thread hj
    rw [worker_locals, Finset.mem_singleton] at hheld
    omega

/-- Both rows show 20, the size of the last thread, although the first retains 10. -/
theorem thread_rows_mixed_up :
    (∃ result rows, Analyzer.calculateRetained .ascending namesakesHeap.rounds namesakesHeap = .ok result ∧
      Analyzer.threadRuns .ascending namesakesHeap.rounds namesakesHeap = .ok [10, 20] ∧
      Analyzer.threadSummaries namesakesHeap (some result.toReport) = .ok rows ∧
      rows.map ThreadSummary.retainedSizeBytes = [some 20, some 20]) ∧
    ∃ result, calculateRetainedHeap .ascending goNamesakesHeap.rounds goNamesakesHeap = .ok result ∧
      threadRuns .ascending goNamesakesHeap.rounds goNamesakesHeap = .ok [10, 20] ∧
      ∀ (order : RangeOrder) (sorter : FreeSort),
        (threadSummaries order sorter goNamesakesHeap (some result)).map ThreadSummary.retainedSizeBytes =
          [some 20, some 20] := by
  have hfirst := @namesakesHeap_retained 0 (worker 1) rfl
  have hsecond := @namesakesHeap_retained 1 (worker 2) rfl
  have hsizes : namesakesHeap.size 1 = 10 ∧ namesakesHeap.size 2 = 20 := by decide
  rw [hsizes.1] at hfirst
  rw [hsizes.2] at hsecond
  have hlocals : namesakesHeap.LocalsKnown := by
    have h : ∀ thread ∈ namesakesHeap.threads, ∀ address ∈ thread.locals, address ∈ namesakesHeap.nodes := by decide
    exact h
  constructor
  · obtain ⟨result, hrun, -⟩ := Analyzer.calculateRetained_ok .ascending hlocals (le_refl namesakesHeap.rounds)
    obtain ⟨hruns, hkept⟩ := pythonRuns_ok .ascending le_rfl hrun
    have hworker : result.threads.find? "worker" = some 20 := by
      rw [hkept]
      show (OrderedDict.ofPairs [("worker", namesakesHeap.threadRetained (worker 1)),
        ("worker", namesakesHeap.threadRetained (worker 2))]).find? "worker" = some 20
      rw [hfirst.1, hsecond.1]
      rfl
    obtain ⟨rows, hrows, hshown⟩ := @Analyzer.threadSummaries_ok namesakesHeap _ _ (Analyzer.shows_toReport result)
      fun thread hthread => ⟨20, by
        obtain ⟨k, hk⟩ := List.mem_iff_getElem?.1 hthread
        rw [(namesakesHeap_thread hk).1]
        exact hworker⟩
    refine ⟨result, rows, hrun, hruns.trans ?_, hrows, hshown.trans ?_⟩
    · show Except.ok [namesakesHeap.threadRetained (worker 1), namesakesHeap.threadRetained (worker 2)] = _
      rw [hfirst.1, hsecond.1]
    · show [some (((result.threads.find? "worker").getD 0 : ℕ) : ℤ),
        some (((result.threads.find? "worker").getD 0 : ℕ) : ℤ)]
        = _
      rw [hworker]
      rfl
  · have hfits := namesakesHeap_same.fitsIndex hlocals (by decide)
    obtain ⟨result, hrun, -⟩ := calculateRetainedHeap_ok namesakesHeap_same namesakesHeap_bounded hfits .ascending
      (le_refl goNamesakesHeap.rounds)
    obtain ⟨hruns, hkept⟩ := goRuns_ok namesakesHeap_same namesakesHeap_bounded .ascending le_rfl hrun
    have hworker : result.threads.find? "worker" = some 20 := by
      rw [hkept]
      show (OrderedDict.ofPairs [("worker", indexRetained namesakesHeap 0 (worker 1)),
        ("worker", indexRetained namesakesHeap 1 (worker 2))]).find? "worker" = some 20
      rw [hfirst.2, hsecond.2]
      rfl
    refine ⟨result, hrun, hruns.trans ?_, fun order sorter => ?_⟩
    · show Except.ok [indexRetained namesakesHeap 0 (worker 1), indexRetained namesakesHeap 1 (worker 2)] = _
      rw [hfirst.2, hsecond.2]
    · show [some (((result.threads.find? "worker").getD 0 : ℕ) : ℤ),
        some (((result.threads.find? "worker").getD 0 : ℕ) : ℤ)]
        = _
      rw [hworker]
      rfl

end Go
end Pydump
