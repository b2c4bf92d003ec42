/-
# The rows of the threads in the Python report

`_calculate_threads` runs `_retained_heap` once for every thread and keeps the result under
the name of the thread; `_thread_summary` looks the name up.  Between the two the results
may pass through an entry of the cache.
-/

import Pydump.Analyzer.CacheEntries
import Pydump.Analyzer.CalculatorSpec
import Pydump.Analyzer.Report

namespace Pydump
namespace Analyzer

open ExceptLoop

variable {heap : Heap}

/-! ### The runs -/

/-- The run for one thread, up to the assignment. -/
def Calculator.threadRun (orders : Orders) (rounds : ℕ) (c : Calculator) (entry : HeapThread × ℕ) :
    Except RetainedError ℕ := do
  let front := orders.walk (.locals entry.2) entry.1.locals
  let inboundView ← front.foldlM (localCount c.inbound c.heap.threads entry.1) .empty
  retainedHeap orders rounds (c.view false) (.thread entry.2) inboundView front

/-- A round of `_calculate_threads` is a run and an assignment. -/
theorem calculateThread_eq (orders : Orders) (rounds : ℕ) (c : Calculator) (entry : HeapThread × ℕ) :
    c.calculateThread orders rounds entry =
      c.threadRun orders rounds entry >>= fun retained =>
        .ok { c with threadRetained := c.threadRetained.insert entry.1.name retained } := by
  rw [Calculator.calculateThread, Calculator.threadRun, bind_assoc]
  rfl

/-- The results of the runs, thread by thread. -/
def threadRuns (orders : Orders) (rounds : ℕ) (heap : Heap) : Except RetainedError (List ℕ) := do
  let c ← beforeThreads orders rounds heap
  c.heap.threads.zipIdx.mapM (c.threadRun orders rounds)

/-- A run for a thread returns its size. -/
theorem threadRun_ok (orders : Orders) {c : Calculator} (hin : IndexOf c.heap c.inbound) {thread : HeapThread}
    (hlocals : ∀ address ∈ thread.locals, address ∈ c.heap.nodes) (index : ℕ) {rounds : ℕ}
    (hrounds : c.heap.nodes.card < rounds) :
    c.threadRun orders rounds (thread, index) = .ok (c.heap.threadRetained thread) := by
  have hround := calculateThread_ok orders hin hlocals index hrounds
  rw [calculateThread_eq, bind_eq_ok] at hround
  obtain ⟨retained, hrun, hassigned⟩ := hround
  have hkept := congrArg (fun c : Calculator => c.threadRetained.find? thread.name) (Except.ok.inj hassigned)
  simp only [OrderedDict.find?_insert, if_pos] at hkept
  rw [hrun, Option.some.inj hkept]

/-- **The runs** of a calculation that succeeds. -/
theorem threadRuns_ok (orders : Orders) (hlocals : heap.LocalsKnown) {rounds : ℕ} (hrounds : heap.rounds ≤ rounds) :
    threadRuns orders rounds heap = .ok (heap.threads.map heap.threadRetained) := by
  obtain ⟨c, hbefore, rfl, hinbound, -⟩ := beforeThreads_ok orders hrounds
  have hindex : IndexOf c.heap c.inbound := hinbound ▸ indexOf_inboundReferences orders
  have hruns : c.heap.threads.zipIdx.mapM (c.threadRun orders rounds) =
      .ok (c.heap.threads.zipIdx.map fun entry => c.heap.threadRetained entry.1) := by
    refine mapM_ok fun entry hentry => ?_
    exact threadRun_ok orders hindex (hlocals _ (List.fst_mem_of_mem_zipIdx hentry)) entry.2 (nodes_lt_rounds hrounds)
  rw [threadRuns, bind_ok hbefore, hruns]
  conv_rhs => rw [← List.zipIdx_map_fst 0 c.heap.threads, List.map_map]
  rfl

/-! ### The rows -/

/-- Every row has the result of its own run. -/
def OwnRows (rows : List ThreadSummary) (runs : List ℕ) : Prop :=
  rows.map ThreadSummary.retainedSizeBytes = runs.map fun run : ℕ => some (run : ℤ)

/-- A `RetainedHeap` that was calculated, as the report takes it. -/
def RetainedHeap.toReport (retained : RetainedHeap) : CachedHeap where
  objects := ⟨retained.objects.entries.map fun entry => ((entry.1 : ℤ), (entry.2 : ℤ)),
    OrderedDict.nodup_map_key Nat.cast_injective Nat.cast retained.objects.nodup⟩
  threads := ⟨retained.threads.entries.map fun entry => (.ofString entry.1, (entry.2 : ℤ)),
    OrderedDict.nodup_map_key ofString_injective Nat.cast retained.threads.nodup⟩

/-- A report shows the calculated sizes. -/
theorem shows_toReport (retained : RetainedHeap) : retained.toReport.Shows retained.sizes where
  objects address := OrderedDict.lookupEntries_map Nat.cast_injective Nat.cast retained.objects.entries address
  threads name := OrderedDict.lookupEntries_map ofString_injective Nat.cast retained.threads.entries name

/-- What the Python report is made from: what was calculated, or what is loaded of it. -/
inductive Served (python : Interpreter) (retained : RetainedHeap) : CachedHeap → Prop
  | calculated : Served python retained retained.toReport
  | loaded {shown : CachedHeap} (h : loadCache python (.document retained.dump) = .ok (some shown)) :
      Served python retained shown

/-- What is served shows the calculated sizes. -/
theorem Served.shows {python : Interpreter} {retained : RetainedHeap} {shown : CachedHeap}
    (h : Served python retained shown) : shown.Shows retained.sizes := by
  cases h with
  | calculated => exact shows_toReport retained
  | loaded h => exact (holds_dump retained).shows h

/-- **The rows of the report** have what is found under the names. -/
theorem threadSummaries_ok {shown : CachedHeap} {sizes : Sizes} (hshows : shown.Shows sizes)
    (hfound : ∀ thread ∈ heap.threads, ∃ size, sizes.threads thread.name = some size) :
    ∃ rows, threadSummaries heap (some shown) = .ok rows ∧
      rows.map ThreadSummary.retainedSizeBytes =
        heap.threads.map fun thread => some (((sizes.threads thread.name).getD 0 : ℕ) : ℤ) := by
  refine ⟨heap.threads.map fun thread => ⟨thread.name, thread.isAlive, thread.isDaemon,
    some (((sizes.threads thread.name).getD 0 : ℕ) : ℤ), thread.stackTrace.map (frameSummary heap)⟩, ?_, ?_⟩
  · refine mapM_ok fun thread hthread => ?_
    obtain ⟨size, hsize⟩ := hfound thread hthread
    have hget : shown.getForThread thread.name = .ok (size : ℤ) := by
      rw [CachedHeap.getForThread, hshows.threads, hsize]
      rfl
    rw [hsize, threadSummary]
    simp only [hget]
    rfl
  · rw [List.map_map]
    rfl

/-- **What is kept under names** is everyone's own if and only if those of one name have
the same. -/
theorem kept_iff {α : Type} (xs : List α) (name : α → String) (result : α → ℕ) :
    (∀ x ∈ xs, ((OrderedDict.ofPairs (xs.map fun x => (name x, result x))).find? (name x)).getD 0 = result x) ↔
      ∀ x ∈ xs, ∀ y ∈ xs, name x = name y → result x = result y := by
  have hpairs := @OrderedDict.find?_ofPairs_iff _ _ _ (xs.map fun x => (name x, result x))
  simp only [List.forall_mem_map] at hpairs
  rw [← hpairs]
  refine forall₂_congr fun x hx => ?_
  have hkey : name x ∈ (OrderedDict.ofPairs (xs.map fun x => (name x, result x))).keys := by
    rw [OrderedDict.mem_keys_ofPairs, List.map_map]
    exact List.mem_map_of_mem hx
  obtain ⟨size, hsize⟩ := OrderedDict.exists_find?_of_mem_keys hkey
  rw [hsize, Option.getD_some, Option.some_inj]

/-- The rows of a report that shows what is kept under names. -/
theorem ownRows_iff {α : Type} (xs : List α) (name : α → String) (result : α → ℕ) {rows : List ThreadSummary}
    (hrows : rows.map ThreadSummary.retainedSizeBytes = xs.map fun x =>
      some ((((OrderedDict.ofPairs (xs.map fun x => (name x, result x))).find? (name x)).getD 0 : ℕ) : ℤ)) :
    OwnRows rows (xs.map result) ↔ ∀ x ∈ xs, ∀ y ∈ xs, name x = name y → result x = result y := by
  rw [OwnRows, hrows, List.map_map, List.map_inj_left, ← kept_iff]
  refine forall₂_congr fun x _ => ?_
  rw [Function.comp_apply, Option.some_inj, Nat.cast_inj]

end Analyzer
end Pydump
