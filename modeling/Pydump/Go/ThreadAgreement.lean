/-
# The thread sizes of the two analyzers

Both analyzers raise the counts of the locals of a thread by the other threads that
hold them.  Python tells the other threads by their fields, Go by their index
(`heldAt_iff`).

`thread_sizes_respect_roots_iff` says for which heaps this gives what the roots of
the other threads leave to a thread, and `thread_maps_agree_iff` for which heaps
the two analyzers report the same sizes.
-/

import Pydump.Analyzer.ThreadRoots
import Pydump.Go.RetainedAgreement

namespace Pydump
namespace Go

open ExceptLoop

variable {heap : Analyzer.Heap} {other : Heap}

/-! ### The other threads -/

/-- A thread at another index holds `address` in a frame. -/
def HeldAt (heap : Analyzer.Heap) (i address : ℕ) : Prop :=
  ∃ (j : ℕ) (thread : Analyzer.HeapThread), j ≠ i ∧ heap.threads[j]? = some thread ∧ address ∈ thread.locals

/-- Another thread counts if and only if it holds the address. -/
theorem otherThreads_pos {i address : ℕ} :
    0 < otherThreads (heap.threads.map Analyzer.HeapThread.locals) i address ↔ HeldAt heap i address := by
  rw [otherThreads, List.length_pos_iff_exists_mem]
  simp only [List.mem_filter, decide_eq_true_eq, HeldAt]
  constructor
  · rintro ⟨⟨locals, j⟩, ⟨hm, hji⟩, ha⟩
    rw [List.mk_mem_zipIdx_iff_getElem?, List.getElem?_map, Option.map_eq_some_iff] at hm
    obtain ⟨thread, hthread, rfl⟩ := hm
    exact ⟨j, thread, hji, hthread, ha⟩
  · rintro ⟨j, thread, hji, hthread, ha⟩
    refine ⟨(thread.locals, j), ⟨List.mk_mem_zipIdx_iff_getElem?.2 ?_, hji⟩, ha⟩
    rw [List.getElem?_map, hthread, Option.map_some]

/-- **What a thread retains** in terms of what is held at other indices. -/
theorem indexRetained_eq (i : ℕ) (thread : Analyzer.HeapThread) :
    indexRetained heap i thread =
      heap.graph.freed heap.size (· ∈ thread.locals) fun y => y ∈ thread.locals ∧ HeldAt heap i y := by
  rw [indexRetained, Analyzer.localsRetained_eq]
  simp only [otherThreads_pos]

/-- What is kept by anything weighs less than 64 bits can hold. -/
theorem Bounded.weight_lt (h : Bounded heap) (p : ℕ → Prop) : heap.graph.weight heap.size p < 2 ^ 64 := by
  classical
  exact h.sum_size_lt (Finset.filter_subset _ _)

/-- With distinct names, to be held at another place is to be held by another thread. -/
theorem heldAt_iff_of_names (hnames : heap.NamesDistinct) {i : ℕ} {thread : Analyzer.HeapThread}
    (hi : heap.threads[i]? = some thread) {address : ℕ} :
    HeldAt heap i address ↔ heap.HeldByOther thread address := by
  constructor
  · rintro ⟨j, held, hji, hj, ha⟩
    refine ⟨held, List.mem_of_getElem? hj, fun hname => hji ?_, ha⟩
    have hnames' : (heap.threads.map Analyzer.HeapThread.name).Nodup := hnames
    have hlt : j < (heap.threads.map Analyzer.HeapThread.name).length := by
      rw [List.length_map]
      exact (List.getElem?_eq_some_iff.1 hj).1
    refine (List.getElem?_inj hlt hnames').1 ?_
    rw [List.getElem?_map, List.getElem?_map, hj, hi, Option.map_some, Option.map_some, hname]
  · rintro ⟨held, hheld, hname, ha⟩
    obtain ⟨j, hj⟩ := List.mem_iff_getElem?.1 hheld
    refine ⟨j, held, fun hji => hname ?_, hj, ha⟩
    rw [hji, hi, Option.some_inj] at hj
    rw [hj]

/-- The result stored for a thread whose name is its own. -/
theorem find?_indexResults (hnames : heap.NamesDistinct) {i : ℕ} {thread : Analyzer.HeapThread}
    (hi : heap.threads[i]? = some thread) :
    (indexResults heap heap.threads.zipIdx).find? thread.name = some (indexRetained heap i thread) := by
  have hkeys : (heap.threads.zipIdx.map fun entry => (entry.1.name, indexRetained heap entry.2 entry.1)).map
      Prod.fst = heap.threads.map Analyzer.HeapThread.name := by
    conv_rhs => rw [← List.zipIdx_map_fst 0 heap.threads, List.map_map]
    rw [List.map_map]
    rfl
  rw [indexResults, OrderedDict.find?_eq_some, OrderedDict.entries_ofPairs (by rw [hkeys]; exact hnames)]
  exact List.mem_map.2 ⟨(thread, i), List.mk_mem_zipIdx_iff_getElem?.2 hi, rfl⟩

/-! ### The roots of the other threads -/

/-- **When a thread size leaves out what other threads hold.**  On a heap whose
threads have different names and only locals that occur in the graph, both
analyzers return for a thread what its locals and nobody else keep alive, if and
only if `RootsApart` holds of the thread. -/
theorem thread_sizes_respect_roots_iff (hlocals : heap.LocalsKnown) (hnames : heap.NamesDistinct) :
    (∀ (orders : Analyzer.Orders) (rounds : ℕ), heap.rounds ≤ rounds →
      ∃ result, Analyzer.calculateRetained orders rounds heap = .ok result ∧
        ∀ thread ∈ heap.threads, ∃ size, result.threads.find? thread.name = some size ∧
          (size = heap.rootedRetained thread ↔ heap.RootsApart thread)) ∧
    ∀ other : Heap, SameHeap heap other → Bounded heap → heap.nodes.card ≤ 2 ^ 32 →
      ∀ (orders : Orders) (rounds : ℕ), other.rounds ≤ rounds →
        ∃ result, calculateRetainedHeap orders rounds other = .ok result ∧
          ∀ thread ∈ heap.threads, ∃ size, result.threads.find? thread.name = some size ∧
            (size = heap.rootedRetained thread ↔ heap.RootsApart thread) := by
  constructor
  · intro orders rounds hrounds
    obtain ⟨result, hrun, -, hthreads⟩ := Analyzer.calculateRetained_ok orders hlocals hrounds
    refine ⟨result, hrun, fun thread ht => ⟨heap.threadRetained thread, ?_, ?_⟩⟩
    · rw [hthreads]
      exact hnames.find?_results ht
    · rw [Analyzer.threadRetained_eq, ← Analyzer.freed_eq_rootedRetained_iff]
      simp only [hnames.heldElsewhere_iff ht]
  · intro other hsame hbounded hnodes orders rounds hrounds
    obtain ⟨result, hrun, -, hthreads⟩ :=
      calculateRetainedHeap_ok hsame hbounded (hsame.fitsIndex hlocals hnodes) orders hrounds
    refine ⟨result, hrun, fun thread ht => ?_⟩
    obtain ⟨i, hi⟩ := List.mem_iff_getElem?.1 ht
    refine ⟨indexRetained heap i thread, ?_, ?_⟩
    · rw [hthreads]
      exact find?_indexResults hnames hi
    · rw [indexRetained_eq, ← Analyzer.freed_eq_rootedRetained_iff]
      simp only [heldAt_iff_of_names hnames hi]

/-- The threads of `heldHeap`: the first holds 1, the second 2. -/
def heldThreads : List Analyzer.HeapThread :=
  [⟨"first", true, false, [⟨"main.py", 1, "run", .ofPairs [("x", 1)]⟩]⟩,
    ⟨"second", true, false, [⟨"main.py", 2, "run", .ofPairs [("y", 2)]⟩]⟩]

/-- An object that refers to one which another thread holds. -/
def heldHeap : Analyzer.Heap where
  header := ⟨1, "", ⟨false⟩, .empty⟩
  threads := heldThreads
  objects := .ofPairs [(1, ⟨1, 0, 10, {2}, .none, none⟩), (2, ⟨2, 0, 20, ∅, .none, none⟩)]
  types := .empty
  source := none

/-- `heldHeap` as the Go reader holds it. -/
def goHeldHeap : Heap where
  header := ⟨1, "", false, .empty⟩
  threads := [⟨"first", true, false, [⟨"main.py", 1, "run", .ofPairs [("x", 1)]⟩]⟩,
    ⟨"second", true, false, [⟨"main.py", 2, "run", .ofPairs [("y", 2)]⟩]⟩]
  objects := [⟨1, 0, 10, [2], .none, [], [], -1⟩, ⟨2, 0, 20, [], .none, [], [], -1⟩]
  objectByAddress := .ofPairs [(1, 0), (2, 1)]
  types := .empty
  source := none

/-- An object without content in both models. -/
theorem sameObject_plain (address size : ℕ) {referents : List ℕ} (hsorted : referents.Pairwise (· < ·)) :
    SameObject ⟨address, 0, size, referents.toFinset, .none, none⟩ ⟨address, 0, size, referents, .none, [], [], -1⟩ :=
  ⟨rfl, rfl, rfl, ⟨hsorted, rfl⟩, ⟨rfl, rfl, rfl⟩, rfl⟩

/-- Both heaps with a held object are the same. -/
theorem heldHeap_same : SameHeap heldHeap goHeldHeap where
  header := ⟨rfl, rfl, rfl, rfl⟩
  threads := .cons ⟨rfl, rfl, rfl, .cons ⟨rfl, rfl, rfl, rfl⟩ .nil⟩
    (.cons ⟨rfl, rfl, rfl, .cons ⟨rfl, rfl, rfl, rfl⟩ .nil⟩ .nil)
  objects :=
    .cons ⟨rfl, @sameObject_plain 1 10 [2] (by decide)⟩ (.cons ⟨rfl, @sameObject_plain 2 20 [] (by decide)⟩ .nil)
  index := by decide
  types := rfl
  source := rfl

/-- The sizes of a heap fit when those of its objects do. -/
theorem bounded_of_objects (hcount : heap.objects.keys.length ≤ 2 ^ 32 - 1)
    (hsizes : ∀ x ∈ heap.graph.objects, heap.size x < 2 ^ 32) : Bounded heap where
  count := hcount
  sizes address := by
    by_cases ha : address ∈ heap.graph.objects
    · exact hsizes address ha
    · rw [Analyzer.size_of_not_mem address ha]
      exact Nat.two_pow_pos 32

/-- The heap with a held object is bounded. -/
theorem heldHeap_bounded : Bounded heldHeap := bounded_of_objects (by decide) (by decide)

/-- The heap with a held object knows its locals. -/
theorem heldHeap_localsKnown : heldHeap.LocalsKnown := by
  have h : ∀ thread ∈ heldHeap.threads, ∀ address ∈ thread.locals, address ∈ heldHeap.nodes := by decide
  exact h

/-- The threads of the heap with a held object have distinct names. -/
theorem heldHeap_namesDistinct : heldHeap.NamesDistinct := by
  have h : (heldHeap.threads.map Analyzer.HeapThread.name).Nodup := by decide
  exact h

/-- What the first thread of `heldHeap` frees, for any `held` that leaves 1 free. -/
theorem heldHeap_freed {held : ℕ → Prop} (h₁ : ¬held 1) :
    heldHeap.graph.freed heldHeap.size (· ∈ ({1} : Finset ℕ)) held =
      10 + (open Classical in if held 2 then 0 else 20) := by
  classical
  have hobjects : heldHeap.graph.objects = {1, 2} := by decide
  have hnone : ∀ z, 1 ∉ heldHeap.graph.succ z := by
    intro z hz
    have hall : ∀ z ∈ heldHeap.graph.objects, 1 ∉ heldHeap.graph.succ z := by decide
    exact hall z (RefGraph.mem_objects_of_succ hz) hz
  have hone : heldHeap.graph.FreedWith (· ∈ ({1} : Finset ℕ)) held 1 :=
    .root (Finset.mem_singleton_self 1) h₁ fun z hz => absurd hz (hnone z)
  have htwo : heldHeap.graph.FreedWith (· ∈ ({1} : Finset ℕ)) held 2 ↔ ¬held 2 := by
    refine ⟨RefGraph.FreedWith.free, fun hfree => .step hone (by decide) hfree fun z hz => ?_⟩
    have hall : ∀ z ∈ heldHeap.graph.objects, 2 ∈ heldHeap.graph.succ z → z = 1 := by decide
    exact hall z (RefGraph.mem_objects_of_succ hz) hz ▸ hone
  have hsizes : heldHeap.size 1 = 10 ∧ heldHeap.size 2 = 20 := by decide
  rw [RefGraph.freed, hobjects, Finset.sum_filter, Finset.sum_pair (by decide), if_pos hone, hsizes.1, hsizes.2]
  congr 1
  by_cases h₂ : held 2
  · rw [if_neg fun hf => htwo.1 hf h₂, if_pos h₂]
  · rw [if_pos (htwo.2 h₂), if_neg h₂]

/-- The sizes of the threads of the heap with a held object, in both languages. -/
theorem thread_sizes_respect_roots_held :
    (∃ result, Analyzer.calculateRetained .ascending heldHeap.rounds heldHeap = .ok result ∧
      ∀ thread ∈ heldHeap.threads, ∃ size, result.threads.find? thread.name = some size ∧
        (size = heldHeap.rootedRetained thread ↔ heldHeap.RootsApart thread)) ∧
    ∃ result, calculateRetainedHeap .ascending goHeldHeap.rounds goHeldHeap = .ok result ∧
      ∀ thread ∈ heldHeap.threads, ∃ size, result.threads.find? thread.name = some size ∧
        (size = heldHeap.rootedRetained thread ↔ heldHeap.RootsApart thread) := by
  obtain ⟨hpython, hgo⟩ := thread_sizes_respect_roots_iff heldHeap_localsKnown heldHeap_namesDistinct
  exact ⟨hpython .ascending _ le_rfl,
    hgo goHeldHeap heldHeap_same heldHeap_bounded (by decide) .ascending _ le_rfl⟩

/-- The first thread gets 30 in both languages, although 20 of it is the object that
the second thread holds. -/
theorem thread_sizes_count_held_object :
    heldHeap.LocalsKnown ∧ heldHeap.NamesDistinct ∧
      (∃ result, Analyzer.calculateRetained .ascending heldHeap.rounds heldHeap = .ok result ∧
        result.threads.find? "first" = some 30) ∧
      (∃ result, calculateRetainedHeap .ascending goHeldHeap.rounds goHeldHeap = .ok result ∧
        result.threads.find? "first" = some 30) ∧
      ∃ thread ∈ heldHeap.threads, thread.name = "first" ∧ heldHeap.rootedRetained thread = 10 := by
  have hfirst : heldHeap.threads[0]? = some heldThreads[0] := rfl
  have hlocals : heldThreads[0].locals = {1} := by decide
  have hmem : heldThreads[0] ∈ heldHeap.threads := List.mem_of_getElem? hfirst
  have hone : ¬heldHeap.HeldByOther heldThreads[0] 1 := by
    have h : ∀ other ∈ heldHeap.threads, ¬(other.name ≠ "first" ∧ 1 ∈ other.locals) := by decide
    exact fun ⟨other, ho, hheld⟩ => h other ho hheld
  have htwo : heldHeap.HeldByOther heldThreads[0] 2 :=
    ⟨heldThreads[1], List.mem_of_getElem? (rfl : heldHeap.threads[1]? = _), by decide, by decide⟩
  have hcomputed : heldHeap.graph.freed heldHeap.size (· ∈ heldThreads[0].locals)
      (fun y => y ∈ heldThreads[0].locals ∧ heldHeap.HeldByOther heldThreads[0] y) = 30 := by
    simp only [hlocals]
    rw [heldHeap_freed fun h => hone h.2, if_neg fun h => absurd h.1 (by decide)]
  refine ⟨heldHeap_localsKnown, heldHeap_namesDistinct, ?_, ?_, heldThreads[0], hmem, rfl, ?_⟩
  · obtain ⟨result, hrun, -, hthreads⟩ :=
      Analyzer.calculateRetained_ok .ascending heldHeap_localsKnown (le_refl heldHeap.rounds)
    have hsize : heldHeap.threadRetained heldThreads[0] = 30 := by
      rw [Analyzer.threadRetained_eq, ← hcomputed]
      simp only [heldHeap_namesDistinct.heldElsewhere_iff hmem]
    refine ⟨result, hrun, ?_⟩
    rw [hthreads, ← hsize]
    exact heldHeap_namesDistinct.find?_results hmem
  · obtain ⟨result, hrun, -, hthreads⟩ := calculateRetainedHeap_ok heldHeap_same heldHeap_bounded
      (heldHeap_same.fitsIndex heldHeap_localsKnown (by decide)) .ascending (le_refl goHeldHeap.rounds)
    have hsize : indexRetained heldHeap 0 heldThreads[0] = 30 := by
      rw [indexRetained_eq, ← hcomputed]
      simp only [heldAt_iff_of_names heldHeap_namesDistinct hfirst]
    refine ⟨result, hrun, ?_⟩
    rw [hthreads, ← hsize]
    exact find?_indexResults heldHeap_namesDistinct hfirst
  · rw [Analyzer.Heap.rootedRetained]
    simp only [hlocals]
    rw [heldHeap_freed hone, if_pos htwo]

/-! ### Where the two analyzers agree -/

/-- The thread at `i` is the last one of its name: its size is the one reported. -/
def LastOfName (heap : Analyzer.Heap) (i : ℕ) (thread : Analyzer.HeapThread) : Prop :=
  heap.threads[i]? = some thread ∧ ∀ other ∈ heap.threads.drop (i + 1), other.name ≠ thread.name

/-- A thread at another index has the same fields. -/
def HasTwin (heap : Analyzer.Heap) (i : ℕ) (thread : Analyzer.HeapThread) : Prop :=
  ∃ (j : ℕ) (twin : Analyzer.HeapThread), j ≠ i ∧ heap.threads[j]? = some twin ∧ twin.sameFields thread

/-- Every chain of references to `address` begins at a local of the thread, and no
local of the thread on such a chain is held by a thread with other fields. -/
def OnlyThroughFields (heap : Analyzer.Heap) (thread : Analyzer.HeapThread) (address : ℕ) : Prop :=
  heap.graph.FreedWith (· ∈ thread.locals) (fun y => y ∈ thread.locals ∧ heap.HeldElsewhere thread y) address

/-- A thread that has a twin, and whose size is reported, is the only way to no
object with a size. -/
def TwinsHoldNothing (heap : Analyzer.Heap) : Prop :=
  ∀ i thread, LastOfName heap i thread → HasTwin heap i thread →
    ∀ y ∈ heap.objects.keys, 0 < heap.size y → ¬OnlyThroughFields heap thread y

/-- **The two ways to tell the other threads apart** differ by the twins. -/
theorem heldAt_iff {i : ℕ} {thread : Analyzer.HeapThread} (hi : heap.threads[i]? = some thread) {address : ℕ}
    (ha : address ∈ thread.locals) :
    HeldAt heap i address ↔ heap.HeldElsewhere thread address ∨ HasTwin heap i thread := by
  constructor
  · rintro ⟨j, held, hji, hj, hheld⟩
    by_cases hsame : held.sameFields thread = true
    · exact .inr ⟨j, held, hji, hj, hsame⟩
    · exact .inl ⟨held, List.mem_of_getElem? hj, hsame, hheld⟩
  · rintro (⟨held, hheld, hdiffer, hm⟩ | ⟨j, twin, hji, hj, hsame⟩)
    · obtain ⟨j, hj⟩ := List.mem_iff_getElem?.1 hheld
      refine ⟨j, held, fun hji => hdiffer ?_, hj, hm⟩
      rw [hji, hi, Option.some_inj] at hj
      exact hj ▸ Analyzer.sameFields_refl thread
    · exact ⟨j, twin, hji, hj, Analyzer.locals_of_sameFields hsame ▸ ha⟩

/-- **One thread**: the sizes differ when a twin makes the Go analyzer keep what the
Python analyzer deletes. -/
theorem threadRetained_eq_iff {i : ℕ} {thread : Analyzer.HeapThread} (hi : heap.threads[i]? = some thread) :
    heap.threadRetained thread = indexRetained heap i thread ↔
      (HasTwin heap i thread → ∀ y ∈ heap.objects.keys, 0 < heap.size y → ¬OnlyThroughFields heap thread y) := by
  rw [Analyzer.threadRetained_eq, indexRetained_eq]
  by_cases htwin : HasTwin heap i thread
  · have hheld : ∀ y, (y ∈ thread.locals ∧ HeldAt heap i y) ↔ y ∈ thread.locals := fun y =>
      and_iff_left_of_imp fun hy => (heldAt_iff hi hy).2 (.inr htwin)
    simp only [hheld]
    rw [RefGraph.freed_eq_iff fun y hy => hy.1]
    simp only [htwin, true_imp_iff, Analyzer.mem_graph_objects]
    refine forall_congr' fun y => imp_congr_right fun _ => imp_congr_right fun _ => imp_congr_right fun _ => ?_
    exact iff_false_intro (RefGraph.not_freedWith_of_held fun z hz => hz)
  · have hheld : ∀ y, (y ∈ thread.locals ∧ HeldAt heap i y) ↔
        y ∈ thread.locals ∧ heap.HeldElsewhere thread y := fun y =>
      and_congr_right fun hy => (heldAt_iff hi hy).trans (or_iff_left htwin)
    simp only [hheld, htwin, false_imp_iff]

/-- The last element of a numbered list with a property. -/
theorem find?_reverse_zipIdx {α : Type} {p : α → Bool} (xs : List α) {x : α} {i : ℕ} :
    (xs.zipIdx.reverse.find? fun entry => p entry.1) = some (x, i) ↔
      xs[i]? = some x ∧ p x = true ∧ ∀ y ∈ xs.drop (i + 1), p y = false := by
  induction xs using List.reverseRecOn with
  | nil => simp
  | append_singleton xs a ih =>
    rw [List.zipIdx_append, List.zipIdx_singleton, List.reverse_append, List.reverse_singleton, List.singleton_append,
      List.find?_cons]
    cases ha : p a with
    | true =>
      constructor
      · intro h
        simp only [Nat.zero_add, Option.some.injEq, Prod.mk.injEq] at h
        obtain ⟨rfl, rfl⟩ := h
        simp [ha]
      · rintro ⟨hget, hx, hrest⟩
        have hlt := (List.getElem?_eq_some_iff.1 hget).1
        rw [List.length_append, List.length_singleton] at hlt
        rcases Nat.lt_or_ge i xs.length with hi | hi
        · have := hrest a (by rw [List.drop_append_of_le_length hi]; simp)
          rw [ha] at this
          cases this
        · obtain rfl : i = xs.length := by omega
          rw [List.getElem?_concat_length, Option.some_inj] at hget
          rw [hget, Nat.zero_add]
    | false =>
      simp only
      rw [ih]
      constructor
      · rintro ⟨hget, hx, hrest⟩
        have hi := (List.getElem?_eq_some_iff.1 hget).1
        refine ⟨by rw [List.getElem?_append_left hi, hget], hx, fun y hy => ?_⟩
        rw [List.drop_append_of_le_length hi] at hy
        rcases List.mem_append.1 hy with hy | hy
        · exact hrest y hy
        · rw [List.mem_singleton.1 hy, ha]
      · rintro ⟨hget, hx, hrest⟩
        have hlt := (List.getElem?_eq_some_iff.1 hget).1
        rw [List.length_append, List.length_singleton] at hlt
        rcases Nat.lt_or_ge i xs.length with hi | hi
        · rw [List.getElem?_append_left hi] at hget
          refine ⟨hget, hx, fun y hy => hrest y ?_⟩
          rw [List.drop_append_of_le_length hi]
          exact List.mem_append_left _ hy
        · obtain rfl : i = xs.length := by omega
          rw [List.getElem?_concat_length, Option.some_inj] at hget
          rw [← hget, ha] at hx
          cases hx

/-- A search from the end finds the last thread of a name. -/
theorem lastOfName_iff {i : ℕ} {thread : Analyzer.HeapThread} {name : String} :
    (heap.threads.zipIdx.reverse.find? fun entry => entry.1.name = name) = some (thread, i) ↔
      LastOfName heap i thread ∧ thread.name = name := by
  have h :=
    @find?_reverse_zipIdx _ (fun thread : Analyzer.HeapThread => decide (thread.name = name)) heap.threads thread i
  simp only [decide_eq_true_eq, decide_eq_false_iff_not] at h
  rw [h, LastOfName]
  constructor
  · rintro ⟨hi, rfl, hrest⟩
    exact ⟨⟨hi, hrest⟩, rfl⟩
  · rintro ⟨⟨hi, hrest⟩, rfl⟩
    exact ⟨hi, rfl, hrest⟩

/-- **The maps of the two analyzers** are equal when the sizes reported are. -/
theorem results_same_iff :
    (∀ name, (heap.threadResults heap.threads).find? name = (indexResults heap heap.threads.zipIdx).find? name) ↔
      ∀ i thread, LastOfName heap i thread → heap.threadRetained thread = indexRetained heap i thread := by
  have hpython : heap.threadResults heap.threads =
      .ofPairs (heap.threads.zipIdx.map fun entry => (entry.1.name, heap.threadRetained entry.1)) := by
    conv_lhs => rw [Analyzer.Heap.threadResults, ← List.zipIdx_map_fst 0 heap.threads, List.map_map]
    rfl
  simp only [hpython, indexResults, OrderedDict.find?_ofPairs_map]
  constructor
  · intro h i thread hlast
    have hname := h thread.name
    rw [lastOfName_iff.2 ⟨hlast, rfl⟩, Option.map_some, Option.map_some, Option.some_inj] at hname
    exact hname
  · intro h name
    cases hfind : heap.threads.zipIdx.reverse.find? fun entry => entry.1.name = name with
    | none => rfl
    | some entry =>
      rw [Option.map_some, Option.map_some, h entry.2 entry.1 (lastOfName_iff.1 hfind).1]

/-- **When the two analyzers report the same thread sizes.**  On the same heap both
return, with the same map from names to sizes, if and only if every local occurs in
the graph, the addresses fit the Go index, and no thread that has a twin is the
only way to an object with a size. -/
theorem thread_maps_agree_iff (hsame : SameHeap heap other) (hbounded : Bounded heap) (orders : Analyzer.Orders)
    (goOrders : Orders) {rounds goRounds : ℕ} (hrounds : heap.rounds ≤ rounds) (hgoRounds : other.rounds ≤ goRounds) :
    (∃ result goResult, Analyzer.calculateRetained orders rounds heap = .ok result ∧
      calculateRetainedHeap goOrders goRounds other = .ok goResult ∧
      ∀ name, result.threads.find? name = goResult.threads.find? name) ↔
    heap.LocalsKnown ∧ other.FitsIndex ∧ TwinsHoldNothing heap := by
  have hsizes : TwinsHoldNothing heap ↔
      ∀ i thread, LastOfName heap i thread → heap.threadRetained thread = indexRetained heap i thread :=
    forall_congr' fun i => forall_congr' fun thread => forall_congr' fun hlast => (threadRetained_eq_iff hlast.1).symm
  constructor
  · rintro ⟨result, goResult, hrun, hgoRun, hmaps⟩
    have hlocals := Analyzer.localsKnown_of_ok orders hrounds hrun
    have hfits := fitsIndex_of_ok (hsame.wellFormed hbounded) hgoRun
    refine ⟨hlocals, hfits, hsizes.2 (results_same_iff.1 fun name => ?_)⟩
    obtain ⟨result', hrun', -, hthreads⟩ := Analyzer.calculateRetained_ok orders hlocals hrounds
    obtain ⟨goResult', hgoRun', -, hgoThreads⟩ := calculateRetainedHeap_ok hsame hbounded hfits goOrders hgoRounds
    cases hrun.symm.trans hrun'
    cases hgoRun.symm.trans hgoRun'
    rw [← hthreads, ← hgoThreads]
    exact hmaps name
  · rintro ⟨hlocals, hfits, htwins⟩
    obtain ⟨result, hrun, -, hthreads⟩ := Analyzer.calculateRetained_ok orders hlocals hrounds
    obtain ⟨goResult, hgoRun, -, hgoThreads⟩ := calculateRetainedHeap_ok hsame hbounded hfits goOrders hgoRounds
    refine ⟨result, goResult, hrun, hgoRun, fun name => ?_⟩
    rw [hthreads, hgoThreads]
    exact results_same_iff.2 (hsizes.1 htwins) name

/-- A thread with one local. -/
def worker (address : ℕ) : Analyzer.HeapThread :=
  ⟨"worker", true, false, [⟨"main.py", 1, "run", .ofPairs [("x", address)]⟩]⟩

/-- `worker` as the Go reader holds it. -/
def goWorker (address : ℕ) : Thread := ⟨"worker", true, false, [⟨"main.py", 1, "run", .ofPairs [("x", address)]⟩]⟩

/-- One object, and a worker for each of the locals. -/
def workerHeap (locals : List ℕ) : Analyzer.Heap where
  header := ⟨1, "", ⟨false⟩, .empty⟩
  threads := locals.map worker
  objects := .ofPairs [(1, ⟨1, 0, 10, ∅, .none, none⟩)]
  types := .empty
  source := none

/-- `workerHeap` as the Go reader holds it. -/
def goWorkerHeap (locals : List ℕ) : Heap where
  header := ⟨1, "", false, .empty⟩
  threads := locals.map goWorker
  objects := [⟨1, 0, 10, [], .none, [], [], -1⟩]
  objectByAddress := .ofPairs [(1, 0)]
  types := .empty
  source := none

/-- Both heaps of workers are the same. -/
theorem workerHeap_same (locals : List ℕ) : SameHeap (workerHeap locals) (goWorkerHeap locals) where
  header := ⟨rfl, rfl, rfl, rfl⟩
  threads := by
    refine List.forall₂_map_left_iff.2 (List.forall₂_map_right_iff.2 (List.forall₂_same.2 fun a _ => ?_))
    exact ⟨rfl, rfl, rfl, .cons ⟨rfl, rfl, rfl, rfl⟩ .nil⟩
  objects := .cons ⟨rfl, @sameObject_plain 1 10 [] (by decide)⟩ .nil
  index := rfl
  types := rfl
  source := rfl

/-- The heap of workers is bounded. -/
theorem workerHeap_bounded (locals : List ℕ) : Bounded (workerHeap locals) :=
  bounded_of_objects (show [1].length ≤ 2 ^ 32 - 1 by decide)
    (show ∀ x ∈ (workerHeap []).graph.objects, (workerHeap []).size x < 2 ^ 32 by decide)

/-- A worker holds its address. -/
theorem worker_locals (address : ℕ) : (worker address).locals = {address} := rfl

/-- The heap of workers fits the index. -/
theorem workerHeap_fitsIndex (locals : List ℕ) (hlen : locals.length < 2 ^ 32) : (goWorkerHeap locals).FitsIndex := by
  refine ⟨insert 1 locals.toFinset, ?_, fun address ha => ?_⟩
  · have := Finset.card_insert_le 1 locals.toFinset
    have := List.toFinset_card_le locals
    omega
  · rw [Finset.mem_insert, List.mem_toFinset]
    have hnodes : (workerHeap locals).nodes = {1} := show (workerHeap []).nodes = {1} by decide
    rcases ((workerHeap_same locals).isNode_iff address).1 ha with ha | ⟨thread, ht, ha⟩
    · rw [hnodes] at ha
      exact .inl (Finset.mem_singleton.1 ha)
    · obtain ⟨a, hm, rfl⟩ := List.mem_map.1 ht
      rw [worker_locals, Finset.mem_singleton] at ha
      exact .inr (ha ▸ hm)

/-- The sizes of one worker, whose local is an object, in both languages. -/
theorem thread_maps_agree_worker :
    (∃ result goResult, Analyzer.calculateRetained .ascending (workerHeap [1]).rounds (workerHeap [1]) = .ok result ∧
      calculateRetainedHeap .ascending (goWorkerHeap [1]).rounds (goWorkerHeap [1]) = .ok goResult ∧
      ∀ name, result.threads.find? name = goResult.threads.find? name) ↔
    (workerHeap [1]).LocalsKnown ∧ (goWorkerHeap [1]).FitsIndex ∧ TwinsHoldNothing (workerHeap [1]) :=
  thread_maps_agree_iff (workerHeap_same [1]) (workerHeap_bounded [1]) .ascending .ascending le_rfl le_rfl

/-- Two workers with the same local: 10 in Python, 0 in Go.  A worker whose local
occurs nowhere else: Go returns, Python does not. -/
theorem thread_maps_differ :
    (∃ result goResult, SameHeap (workerHeap [1, 1]) (goWorkerHeap [1, 1]) ∧
      Analyzer.calculateRetained .ascending (workerHeap [1, 1]).rounds (workerHeap [1, 1]) = .ok result ∧
      calculateRetainedHeap .ascending (goWorkerHeap [1, 1]).rounds (goWorkerHeap [1, 1]) = .ok goResult ∧
      result.threads.find? "worker" = some 10 ∧ goResult.threads.find? "worker" = some 0) ∧
    SameHeap (workerHeap [99]) (goWorkerHeap [99]) ∧
      (∀ result, Analyzer.calculateRetained .ascending (workerHeap [99]).rounds (workerHeap [99]) ≠ .ok result) ∧
      ∃ goResult, calculateRetainedHeap .ascending (goWorkerHeap [99]).rounds (goWorkerHeap [99]) = .ok goResult := by
  refine ⟨?_, workerHeap_same [99], fun result hrun => ?_, ?_⟩
  · have hlocals : (workerHeap [1, 1]).LocalsKnown := by
      have h : ∀ thread ∈ (workerHeap [1, 1]).threads, ∀ address ∈ thread.locals,
          address ∈ (workerHeap [1, 1]).nodes := by decide
      exact h
    obtain ⟨result, hrun, -, hthreads⟩ :=
      Analyzer.calculateRetained_ok .ascending hlocals (le_refl (workerHeap [1, 1]).rounds)
    obtain ⟨goResult, hgoRun, -, hgoThreads⟩ := calculateRetainedHeap_ok (workerHeap_same [1, 1])
      (workerHeap_bounded [1, 1]) (workerHeap_fitsIndex [1, 1] (by decide)) .ascending
      (le_refl (goWorkerHeap [1, 1]).rounds)
    refine ⟨result, goResult, workerHeap_same [1, 1], hrun, hgoRun, ?_, ?_⟩
    · -- neither worker counts the other one
      have hfree : ∀ y, ¬(workerHeap [1, 1]).HeldElsewhere (worker 1) y := fun y ⟨other, ho, hdiffer, _⟩ => by
        have hall : ∀ other ∈ (workerHeap [1, 1]).threads, other.sameFields (worker 1) = true := by decide
        exact hdiffer (hall other ho)
      have hroot : (workerHeap [1, 1]).graph.FreedWith (· ∈ (worker 1).locals)
          (fun y => y ∈ (worker 1).locals ∧ (workerHeap [1, 1]).HeldElsewhere (worker 1) y) 1 := by
        refine .root (Finset.mem_singleton_self 1) (fun h => hfree 1 h.2) fun z hz => ?_
        have hnone : ∀ z ∈ (workerHeap [1, 1]).graph.objects, 1 ∉ (workerHeap [1, 1]).graph.succ z := by decide
        exact absurd hz (hnone z (RefGraph.mem_objects_of_succ hz))
      have hobjects : (workerHeap [1, 1]).graph.objects = {1} := by decide
      have hsize : (workerHeap [1, 1]).threadRetained (worker 1) = 10 := by
        rw [Analyzer.threadRetained_eq, RefGraph.freed, hobjects, Finset.sum_filter, Finset.sum_singleton, if_pos hroot]
        decide
      rw [hthreads, ← hsize]
      rfl
    · -- each worker counts the other one
      have hheld : ∀ y ∈ (worker 1).locals, HeldAt (workerHeap [1, 1]) 1 y := fun y hy =>
        ⟨0, worker 1, Nat.zero_ne_one, rfl, hy⟩
      have hsize : indexRetained (workerHeap [1, 1]) 1 (worker 1) = 0 := by
        rw [indexRetained_eq, RefGraph.freed, Finset.sum_filter]
        refine Finset.sum_eq_zero fun x _ => if_neg ?_
        exact RefGraph.not_freedWith_of_held fun y hy => ⟨hy, hheld y hy⟩
      rw [hgoThreads]
      exact congrArg some hsize
  · have hlocals := Analyzer.localsKnown_of_ok .ascending le_rfl hrun
    have hknown := hlocals (worker 99) (List.mem_singleton_self _) 99 (Finset.mem_singleton_self 99)
    have hnodes : 99 ∉ (workerHeap [99]).nodes := by decide
    exact hnodes hknown
  · obtain ⟨goResult, hgoRun, -⟩ := calculateRetainedHeap_ok (workerHeap_same [99]) (workerHeap_bounded [99])
      (workerHeap_fitsIndex [99] (by decide)) .ascending (le_refl (goWorkerHeap [99]).rounds)
    exact ⟨goResult, hgoRun⟩

end Go
end Pydump
