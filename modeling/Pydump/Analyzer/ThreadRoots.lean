/-
# What a thread retains, and the roots of the other threads

`_calculate_threads` asks which other threads hold an address for the locals of the
removed thread only; an object that is met later starts with the number of its
referrers in the heap.  In the terms of the library (`RefGraph.FreedWith`): the
elements held by others stop the deletion at the locals and nowhere else
(`localsRetained_eq`).

`Heap.rootedRetained` is what a thread retains when every object that another
thread holds in a frame stays.
-/

import Pydump.Analyzer.CalculatorSpec
import Pydump.Lib.RefRoots

namespace Pydump
namespace Analyzer

variable {heap : Heap}

open Classical in
/-- **What is computed for the locals of a thread.** -/
theorem localsRetained_eq (others : ℕ → ℕ) (locals : Finset ℕ) :
    heap.localsRetained others locals =
      heap.graph.freed heap.size (· ∈ locals) fun y => y ∈ locals ∧ 0 < others y := by
  rw [Heap.localsRetained, RefGraph.freed]
  refine Finset.sum_congr (Finset.filter_congr fun x _ => ?_) fun _ _ => rfl
  refine RefGraph.dead_iff_freedWith (fun y hy => ?_) fun y hy => ?_
  · rw [Heap.localsNeed, if_pos hy.1]
    have := hy.2
    omega
  · have hzero : (if y ∈ locals then others y else 0) = 0 := by
      split_ifs with hm
      · exact Nat.eq_zero_of_not_pos fun hpos => hy ⟨hm, hpos⟩
      · rfl
    rw [Heap.localsNeed, hzero, Nat.cast_zero, add_zero]

/-! ### Threads with equal fields -/

/-- A thread has its own fields. -/
theorem sameFields_refl (thread : HeapThread) : thread.sameFields thread = true := by
  have hzip : ∀ frames : List HeapThreadFrame, ∀ pair ∈ frames.zip frames, pair.1 = pair.2 := by
    intro frames
    induction frames with
    | nil => simp
    | cons frame frames ih =>
      intro pair hpair
      rcases List.mem_cons.1 hpair with rfl | hpair
      · rfl
      · exact ih pair hpair
  simp only [HeapThread.sameFields, Bool.and_eq_true, decide_eq_true_eq, List.all_eq_true]
  refine ⟨⟨⟨⟨trivial, trivial⟩, trivial⟩, trivial⟩, fun pair hpair => ?_⟩
  rw [hzip _ pair hpair]
  exact ⟨⟨⟨⟨rfl, rfl⟩, rfl⟩, rfl⟩, fun entry hentry => OrderedDict.find?_eq_some.2 hentry⟩

/-- Threads with the same fields have the same name. -/
theorem name_of_sameFields {thread other : HeapThread} (h : thread.sameFields other = true) :
    thread.name = other.name := by
  simp only [HeapThread.sameFields, Bool.and_eq_true, decide_eq_true_eq] at h
  exact h.1.1.1.1

/-- Two maps of locals with equal fields hold the same addresses. -/
theorem values_of_sameEntries {d d' : OrderedDict String ℕ} (hlen : d.entries.length = d'.entries.length)
    (hall : ∀ entry ∈ d.entries, d'.find? entry.1 = some entry.2) : d.values.toFinset = d'.values.toFinset := by
  have hnodup : ∀ d : OrderedDict String ℕ, d.entries.Nodup := fun d => List.Nodup.of_map Prod.fst d.nodup
  have hsub : d.entries ⊆ d'.entries := fun entry hentry => OrderedDict.find?_eq_some.1 (hall entry hentry)
  have hperm : d.entries.Perm d'.entries :=
    ((hnodup d).subperm hsub).perm_of_length_le (Nat.le_of_eq hlen.symm)
  exact List.toFinset_eq_of_perm _ _ (hperm.map Prod.snd)

/-- **Threads with equal fields hold the same addresses.** -/
theorem locals_of_sameFields {thread other : HeapThread} (h : thread.sameFields other = true) :
    thread.locals = other.locals := by
  simp only [HeapThread.sameFields, Bool.and_eq_true, decide_eq_true_eq, List.all_eq_true] at h
  obtain ⟨⟨-, hlen⟩, hframes⟩ := h
  have hfold : ∀ (frames others : List HeapThreadFrame) (s : Finset ℕ), frames.length = others.length →
      (∀ pair ∈ frames.zip others, pair.1.locals.values.toFinset = pair.2.locals.values.toFinset) →
      frames.foldl (fun result frame => result ∪ frame.locals.values.toFinset) s =
        others.foldl (fun result frame => result ∪ frame.locals.values.toFinset) s := by
    intro frames
    induction frames with
    | nil =>
      intro others s hlen _
      rw [List.length_eq_zero_iff.1 hlen.symm]
    | cons frame frames ih =>
      intro others s hlen hsame
      cases others with
      | nil => cases hlen
      | cons other others =>
        have hframe := hsame (frame, other) List.mem_cons_self
        rw [List.foldl_cons, List.foldl_cons, hframe]
        exact ih others _ (Nat.succ_inj.1 hlen) fun pair hpair => hsame pair (List.mem_cons_of_mem _ hpair)
  refine hfold thread.stackTrace other.stackTrace ∅ hlen fun pair hpair => ?_
  obtain ⟨⟨-, hentries⟩, hall⟩ := hframes pair hpair
  exact values_of_sameEntries hentries hall

/-- Another thread, told by its fields, holds `address` in a frame. -/
def Heap.HeldElsewhere (heap : Heap) (thread : HeapThread) (address : ℕ) : Prop :=
  ∃ other ∈ heap.threads, ¬other.sameFields thread ∧ address ∈ other.locals

/-- Another thread counts if and only if it holds the address. -/
theorem otherThreads_pos {thread : HeapThread} {address : ℕ} :
    0 < otherThreads heap.threads thread address ↔ heap.HeldElsewhere thread address := by
  rw [otherThreads, List.length_pos_iff_exists_mem]
  simp only [List.mem_filter, decide_eq_true_eq, Heap.HeldElsewhere, and_assoc]

/-- **What a thread retains**, in terms of what is held elsewhere. -/
theorem threadRetained_eq (thread : HeapThread) :
    heap.threadRetained thread =
      heap.graph.freed heap.size (· ∈ thread.locals) fun y => y ∈ thread.locals ∧ heap.HeldElsewhere thread y := by
  rw [Heap.threadRetained, localsRetained_eq]
  simp only [otherThreads_pos]

/-! ### Threads with different names -/

/-- No two threads have the same name. -/
def Heap.NamesDistinct (heap : Heap) : Prop := (heap.threads.map HeapThread.name).Nodup

/-- Another thread, told by its name, holds `address` in a frame. -/
def Heap.HeldByOther (heap : Heap) (thread : HeapThread) (address : ℕ) : Prop :=
  ∃ other ∈ heap.threads, other.name ≠ thread.name ∧ address ∈ other.locals

/-- Threads with distinct names are known by them. -/
theorem Heap.NamesDistinct.eq_of_name (hnames : heap.NamesDistinct) {thread other : HeapThread}
    (ht : thread ∈ heap.threads) (ho : other ∈ heap.threads) (h : other.name = thread.name) : other = thread :=
  List.inj_on_of_nodup_map hnames ho ht h

/-- With distinct names, to be held elsewhere is to be held by another. -/
theorem Heap.NamesDistinct.heldElsewhere_iff (hnames : heap.NamesDistinct) {thread : HeapThread}
    (ht : thread ∈ heap.threads) {address : ℕ} :
    heap.HeldElsewhere thread address ↔ heap.HeldByOther thread address := by
  constructor
  · rintro ⟨other, ho, hdiffer, hm⟩
    refine ⟨other, ho, fun hname => hdiffer ?_, hm⟩
    rw [hnames.eq_of_name ht ho hname]
    exact sameFields_refl thread
  · rintro ⟨other, ho, hname, hm⟩
    exact ⟨other, ho, fun hsame => hname (name_of_sameFields hsame), hm⟩

/-- The sum over what goes with the locals of a thread while everything stays that
another thread holds: the sizes of the least set that takes in every address which
is a local of the thread or is referred to by a member, which no other thread holds
in a frame and to which only members refer. -/
noncomputable def Heap.rootedRetained (heap : Heap) (thread : HeapThread) : ℕ :=
  heap.graph.freed heap.size (· ∈ thread.locals) (heap.HeldByOther thread)

/-- Every chain of references to `address` begins at a local of the thread, and no
local of the thread on such a chain is held by another thread. -/
def Heap.OnlyThrough (heap : Heap) (thread : HeapThread) (address : ℕ) : Prop :=
  heap.graph.FreedWith (· ∈ thread.locals) (fun y => y ∈ thread.locals ∧ heap.HeldByOther thread y) address

/-- No object with a size that is reached only through the thread is held by
another thread, or lies below an address that is. -/
def Heap.RootsApart (heap : Heap) (thread : HeapThread) : Prop :=
  ∀ y ∈ heap.objects.keys, 0 < heap.size y → heap.OnlyThrough thread y →
    ∀ x, heap.graph.Reach x y → ¬heap.HeldByOther thread x

/-- What is computed where others hold what they should. -/
theorem freed_eq_rootedRetained_iff (thread : HeapThread) :
    heap.graph.freed heap.size (· ∈ thread.locals) (fun y => y ∈ thread.locals ∧ heap.HeldByOther thread y) =
      heap.rootedRetained thread ↔ heap.RootsApart thread := by
  rw [Heap.rootedRetained, RefGraph.freed_eq_iff fun z hz => hz.2]
  refine forall_congr' fun y => ?_
  rw [mem_graph_objects]
  refine imp_congr_right fun _ => imp_congr_right fun _ => imp_congr_right fun honly => ?_
  rw [RefGraph.freedWith_iff]
  exact and_iff_right honly

/-- The result stored for a thread whose name is its own. -/
theorem Heap.NamesDistinct.find?_results (hnames : heap.NamesDistinct) {value : HeapThread → ℕ} {thread : HeapThread}
    (ht : thread ∈ heap.threads) :
    (OrderedDict.ofPairs (heap.threads.map fun thread => (thread.name, value thread))).find? thread.name =
      some (value thread) := by
  rw [OrderedDict.find?_eq_some, OrderedDict.entries_ofPairs]
  · exact List.mem_map_of_mem ht
  · rw [List.map_map]
    exact hnames

end Analyzer
end Pydump
