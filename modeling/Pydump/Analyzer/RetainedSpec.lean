/-
# The Python retained sizes are the reference-count closure

Each loop of `RetainedHeapCalculator` is followed step by step by a procedure of
the library, whatever orders Python chooses: `_find_strict_subtrees` by
`RefGraph.Marking`, `_delete_unreferenced` and `_retained_heap` by
`RefCount.Scan` and `RefCount.Runs`.  What remains here is that no lookup fails
and that the loops end; the results of the procedures are the library's.

`calculate_spec` assembles them: every object gets `RefGraph.retained`, and every
thread the sum over what `RefCount.Dead` says dies with its locals.
-/

import Pydump.Analyzer.HeapGraph
import Pydump.Lib.ExceptLoop
import Pydump.Lib.StrictSubtrees

namespace Pydump
namespace Analyzer

open ExceptLoop
open RefGraph (Marking)

variable {heap : Heap}

/-! ### The strict subtrees -/

/-- The state of `_find_strict_subtrees` as a marking. -/
def Subtrees.marking (st : Subtrees) : Marking ℕ := ⟨st.subtreeRoots, st.objectRetained.find?, st.front⟩

/-- What the source does to mark `x`, as a step of the library. -/
theorem marking_mark (heap : Heap) (st : Subtrees) {x total : ℕ}
    (htotal : total = heap.size x + ∑ y ∈ heap.graph.succ x, ∑ z ∈ heap.graph.below y, heap.size z) :
    Subtrees.marking ⟨insert x st.subtreeRoots, st.objectRetained.insert x total,
        st.front ∪ heap.graph.inbound x⟩ =
      st.marking.mark heap.graph heap.size x := by
  simp only [Subtrees.marking, Marking.mark, Marking.mk.injEq, true_and, and_true]
  funext y
  rw [OrderedDict.find?_insert, htotal]

/-- **The first loop.** -/
theorem markLeaves_ok {inbound : OrderedDict ℕ (Finset ℕ)} (hin : IndexOf heap inbound) :
    ∃ st, heap.objects.entries.foldlM (markLeaf inbound) ⟨∅, .empty, ∅⟩ = .ok st ∧
      Marking.Between heap.graph heap.size st.marking := by
  let inv (seen : List (ℕ × HeapObject)) (st : Subtrees) : Prop :=
    Marking.Started heap.graph heap.size (seen.map Prod.fst).toFinset st.marking
  have hround : ∀ seen entry rest st, seen ++ entry :: rest = heap.objects.entries → inv seen st →
      ∃ st', markLeaf inbound st entry = .ok st' ∧ inv (seen ++ [entry]) st' := by
    rintro seen ⟨address, obj⟩ rest st hentries hst
    have hentry : (address, obj) ∈ heap.objects.entries := hentries ▸ List.mem_append_right _ List.mem_cons_self
    have hfind := OrderedDict.find?_eq_some.2 hentry
    have hobject : address ∈ heap.graph.objects := mem_graph_objects.2 (OrderedDict.mem_keys_of_find? hfind)
    have hsucc := graph_succ_of_find? hfind
    have hseen : ((seen ++ [(address, obj)]).map Prod.fst).toFinset =
        insert address (seen.map Prod.fst).toFinset := by
      ext x
      simp
    simp only [inv, hseen]
    unfold markLeaf
    by_cases hempty : obj.referents = ∅
    · rw [if_pos hempty, bind_ok (getItem_ok (hin address (.inl hobject)))]
      by_cases hfew : (heap.graph.inbound address).card < 2
      · rw [if_pos hfew]
        refine ⟨_, rfl, ?_⟩
        rw [marking_mark heap st (by rw [hsucc, hempty, Finset.sum_empty, size_of_find? hfind]; rfl)]
        exact hst.mark hobject hfew (hsucc.trans hempty)
      · rw [if_neg hfew]
        exact ⟨st, rfl, hst.skip fun h => hfew h.2⟩
    · rw [if_neg hempty]
      exact ⟨st, rfl, hst.skip fun h => hempty (hsucc ▸ h.1)⟩
  have hstart : inv [] ⟨∅, .empty, ∅⟩ := Marking.Started.init
  obtain ⟨st, hrun, hst⟩ := foldlM_ok inv hstart hround
  exact ⟨st, hrun, hst.between⟩

/-- **Visiting one address of the front** is a visit of the library. -/
theorem visitFront_ok (orders : Orders) {inbound : OrderedDict ℕ (Finset ℕ)} (hin : IndexOf heap inbound)
    {st : Subtrees} (hok : Marking.Ok heap.graph heap.size st.marking) {address : ℕ}
    (haddress : address ∈ heap.graph.objects) :
    ∃ st', visitFront orders heap inbound st address = .ok st' ∧
      Marking.Visit heap.graph heap.size st.marking address st'.marking := by
  obtain ⟨obj, hfind⟩ := OrderedDict.exists_find?_of_mem_keys (mem_graph_objects.1 haddress)
  have hsucc := graph_succ_of_find? hfind
  unfold visitFront
  rw [bind_ok (getItem_ok hfind), bind_ok (getItem_ok (hin address (.inl haddress)))]
  by_cases hmany : (heap.graph.inbound address).card > 1
  · rw [if_pos hmany]
    exact ⟨st, rfl, .drop hmany⟩
  · rw [if_neg hmany, ← hsucc]
    by_cases hopen : heap.graph.succ address \ st.subtreeRoots ≠ ∅
    · rw [if_pos hopen]
      exact ⟨_, rfl, .keep hopen⟩
    · rw [if_neg hopen]
      have hclosed : heap.graph.succ address ⊆ st.subtreeRoots :=
        Finset.sdiff_eq_empty_iff_subset.1 (not_not.1 hopen)
      set walk := orders.walk (.subtreeSum address) (heap.graph.succ address) with hwalk
      have hlookups : walk.mapM (getItem st.objectRetained) =
          .ok (walk.map fun y => ∑ z ∈ heap.graph.below y, heap.size z) :=
        mapM_ok fun y hy => getItem_ok (hok.sums y (hclosed ((orders.mem_walk _ _ _).1 hy)))
      have hset : walk.toFinset = heap.graph.succ address := orders.toFinset_walk _ _
      have hsum : (walk.map fun y => ∑ z ∈ heap.graph.below y, heap.size z).sum =
          ∑ y ∈ heap.graph.succ address, ∑ z ∈ heap.graph.below y, heap.size z := by
        rw [← hset, List.sum_toFinset _ (orders.walk_nodup _ _)]
      rw [bind_ok hlookups, hsum, ← size_of_find? hfind]
      refine ⟨_, rfl, ?_⟩
      rw [marking_mark heap st rfl]
      exact .mark (Nat.le_of_not_lt hmany) hclosed

/-- **One pass over the front.** -/
theorem frontPass_ok (orders : Orders) {inbound : OrderedDict ℕ (Finset ℕ)} (hin : IndexOf heap inbound)
    {st : Subtrees} (h : Marking.Between heap.graph heap.size st.marking) :
    ∃ next, (orders.walk (.subtreeFront st.subtreeRoots st.front) st.front).foldlM
        (visitFront orders heap inbound) { st with front := ∅ } = .ok next ∧
      Marking.Within heap.graph heap.size st.marking st.front next.marking := by
  set walk := orders.walk (.subtreeFront st.subtreeRoots st.front) st.front with hwalk
  have hset : walk.toFinset = st.front := orders.toFinset_walk _ _
  let inv (seen : List ℕ) (st' : Subtrees) : Prop :=
    Marking.Within heap.graph heap.size st.marking seen.toFinset st'.marking
  have hround : ∀ seen x rest st', seen ++ x :: rest = walk → inv seen st' →
      ∃ st'', visitFront orders heap inbound st' x = .ok st'' ∧ inv (seen ++ [x]) st'' := by
    intro seen x rest st' hsplit hst'
    have hxfront : x ∈ st.front := by
      rw [← hset, List.mem_toFinset, ← hsplit]
      exact List.mem_append_right _ List.mem_cons_self
    have hnodup : (seen ++ x :: rest).Nodup := hsplit ▸ orders.walk_nodup _ _
    have hxseen : x ∉ seen.toFinset := fun hm =>
      (List.nodup_append.1 hnodup).2.2 x (List.mem_toFinset.1 hm) x List.mem_cons_self rfl
    have hseen : (seen ++ [x]).toFinset = insert x seen.toFinset := by
      ext y
      simp
    obtain ⟨st'', hrun, hvisit⟩ := visitFront_ok orders hin hst'.ok (h.ok.front hxfront)
    refine ⟨st'', hrun, ?_⟩
    simp only [inv, hseen]
    exact hst'.visit (h.ok.front hxfront) hxseen hvisit
  have hstart : inv [] { st with front := ∅ } := h.within
  obtain ⟨next, hrun, hnext⟩ := foldlM_ok inv hstart hround
  simp only [inv, hset] at hnext
  exact ⟨next, hrun, hnext⟩

/-- **The `while` loop ends** within as many rounds as its front can climb. -/
theorem growSubtrees_ok (orders : Orders) {inbound : OrderedDict ℕ (Finset ℕ)} (hin : IndexOf heap inbound)
    (rounds : ℕ) {st : Subtrees} (h : Marking.Between heap.graph heap.size st.marking)
    (hrounds : Marking.climbSum heap.graph st.front < rounds) :
    ∃ st', growSubtrees orders heap inbound rounds st = .ok st' ∧
      Marking.Found heap.graph heap.size st'.marking := by
  induction rounds generalizing st with
  | zero => omega
  | succ rounds ih =>
    obtain ⟨next, hrun, hnext⟩ := frontPass_ok orders hin h
    rw [growSubtrees, bind_ok hrun]
    by_cases hfront : next.front = st.front
    · rw [if_pos hfront]
      exact ⟨next, rfl, hnext.found hfront⟩
    · rw [if_neg hfront]
      have hclimbs : Marking.climbSum heap.graph next.front < Marking.climbSum heap.graph st.front :=
        hnext.climbs hfront
      exact ih hnext.between (by omega)

/-- A loop that has come to its end does not see how many rounds are left. -/
theorem growSubtrees_mono {orders : Orders} {inbound : OrderedDict ℕ (Finset ℕ)} {rounds rounds' : ℕ}
    (hle : rounds ≤ rounds') {st st' : Subtrees} (h : growSubtrees orders heap inbound rounds st = .ok st') :
    growSubtrees orders heap inbound rounds' st = .ok st' := by
  induction rounds generalizing rounds' st with
  | zero => cases h
  | succ rounds ih =>
    obtain ⟨k, rfl⟩ := Nat.exists_eq_add_of_lt hle
    rw [growSubtrees, bind_eq_ok] at h
    obtain ⟨next, hrun, hnext⟩ := h
    rw [growSubtrees, bind_ok hrun]
    by_cases hfront : next.front = st.front
    · rw [if_pos hfront] at hnext ⊢
      exact hnext
    · rw [if_neg hfront] at hnext ⊢
      exact ih (by omega) hnext

/-- Rounds that suffice for `_find_strict_subtrees` on a heap with these objects. -/
def subtreeRounds (heap : Heap) : ℕ := heap.graph.objects.card * (heap.graph.objects.card + 2) + 1

/-- **The strict subtrees are found.** -/
theorem findStrictSubtrees_spec (orders : Orders) {inbound : OrderedDict ℕ (Finset ℕ)}
    (hin : IndexOf heap inbound) {rounds : ℕ} (hrounds : subtreeRounds heap ≤ rounds) :
    ∃ st, findStrictSubtrees orders rounds heap inbound = .ok st ∧
      Marking.Found heap.graph heap.size st.marking := by
  obtain ⟨leaves, hrun, hleaves⟩ := markLeaves_ok hin
  rw [findStrictSubtrees, bind_ok hrun]
  have hclimb := Marking.climbSum_le hleaves.ok.front
  exact growSubtrees_ok orders hin rounds hleaves
    (lt_of_lt_of_le (Nat.lt_succ_of_le hclimb) hrounds)

/-- **`_find_strict_subtrees` ends** with the least set, however many rounds more it might take. -/
theorem findStrictSubtrees_subtrees (orders : Orders) {inbound : OrderedDict ℕ (Finset ℕ)}
    (hin : IndexOf heap inbound) :
    ∃ st : Subtrees, (∀ rounds ≥ subtreeRounds heap, findStrictSubtrees orders rounds heap inbound = .ok st) ∧
      heap.graph.Subtrees heap.size st.subtreeRoots st.objectRetained.find? := by
  obtain ⟨st, hrun, hfound⟩ := findStrictSubtrees_spec orders hin (Nat.le_refl (subtreeRounds heap))
  refine ⟨st, fun rounds hrounds => ?_, hfound.subtrees⟩
  rw [findStrictSubtrees, bind_eq_ok] at hrun
  obtain ⟨leaves, hleaves, hgrow⟩ := hrun
  rw [findStrictSubtrees, bind_ok hleaves]
  exact growSubtrees_mono hrounds hgrow

/-! ### `_retained_heap` -/

/-- What `_retained_heap` relies on. -/
structure ViewOk (view : View) : Prop where
  index : IndexOf view.heap view.inbound
  marks : view.heap.graph.Marks view.subtreeRoots
  sums : ∀ x ∈ view.subtreeRoots,
    view.objectRetained.find? x = some (∑ z ∈ view.heap.graph.below x, view.heap.size z)

/-- The references that a run follows. -/
abbrev View.succ (view : View) : ℕ → Finset ℕ := view.heap.graph.cut view.subtreeRoots

/-- The count of an address that is met for the first time. -/
def View.inboundCount (view : View) (address : ℕ) : ℤ := (view.heap.graph.inbound address).card

/-- What deleting an address adds to the retained size. -/
noncomputable def View.cost (view : View) (address : ℕ) : ℕ :=
  if address ∈ view.subtreeRoots then ∑ z ∈ view.heap.graph.below address, view.heap.size z
  else view.heap.size address

/-- The variables of a run as a work list; `base` is what earlier passes added. -/
def Deletion.work (base : ℕ) (st : Deletion) : RefCount.Work ℕ where
  count := st.inboundView.find?
  deleted := st.deleted
  front := st.front
  total := base + st.retained

/-- A counter is counted down by one. -/
theorem decrementOne_ok {inbound : OrderedDict ℕ (Finset ℕ)} {address : ℕ} {referrers : Finset ℕ}
    (h : inbound.find? address = some referrers) (inboundView : OrderedDict ℕ ℤ) :
    decrementOne inbound inboundView address =
      .ok (inboundView.insert address ((inboundView.find? address).getD referrers.card - 1)) := by
  unfold decrementOne
  cases inboundView.find? address with
  | some count => rfl
  | none =>
    rw [bind_ok (getItem_ok h)]
    rfl

/-- **`_decrement_inbound`** takes one off the count of every address of its set. -/
theorem decrementInbound_ok {inbound : OrderedDict ℕ (Finset ℕ)} {referrers : ℕ → Finset ℕ}
    {addresses : List ℕ} (hnodup : addresses.Nodup)
    (h : ∀ address ∈ addresses, inbound.find? address = some (referrers address))
    (inboundView : OrderedDict ℕ ℤ) :
    ∃ after, addresses.foldlM (decrementOne inbound) inboundView = .ok after ∧
      ∀ y, after.find? y =
        if y ∈ addresses then some ((inboundView.find? y).getD (referrers y).card - 1)
        else inboundView.find? y := by
  let inv (seen : List ℕ) (after : OrderedDict ℕ ℤ) : Prop := ∀ y, after.find? y =
    if y ∈ seen then some ((inboundView.find? y).getD (referrers y).card - 1) else inboundView.find? y
  refine foldlM_ok inv (fun y => by simp) ?_
  intro seen x rest view hsplit hview
  have hx : x ∈ addresses := hsplit ▸ List.mem_append_right _ List.mem_cons_self
  have hseen : x ∉ seen := fun hm =>
    (List.nodup_append.1 (hsplit ▸ hnodup)).2.2 x hm x List.mem_cons_self rfl
  refine ⟨_, decrementOne_ok (h x hx) view, fun y => ?_⟩
  rw [OrderedDict.find?_insert, hview x, if_neg hseen]
  by_cases hxy : x = y
  · subst hxy
    simp
  · rw [if_neg hxy, hview y]
    simp [Ne.symm hxy]

/-- **Deleting one address** is a deletion of the library. -/
theorem deleteCurrent_ok (orders : Orders) {view : View} (hview : ViewOk view) (root : Root) (base : ℕ)
    {st : Deletion} {current index : ℕ} :
    ∃ new st', deleteCurrent orders view root current
        { st with
          front := st.front.eraseIdx index
          deleted := insert current st.deleted
          deletionHappened := true } = .ok st' ∧
      (∀ y, y ∈ new ↔ y ∈ view.succ current \ insert current st.deleted) ∧
      st'.work base = (st.work base).delete view.succ view.inboundCount view.cost index current new ∧
      st'.deletionHappened = true := by
  have hcut : ∀ y, y ∈ view.succ current ↔ current ∉ view.subtreeRoots ∧ y ∈ view.heap.graph.succ current :=
    fun y => RefGraph.mem_cut
  unfold deleteCurrent
  by_cases hroot : current ∈ view.subtreeRoots
  · have hempty : view.succ current = ∅ := if_pos hroot
    rw [if_pos hroot, bind_ok (getItem_ok (hview.sums current hroot))]
    refine ⟨[], _, rfl, fun y => by simp [hempty], ?_, rfl⟩
    simp only [Deletion.work, RefCount.Work.delete, RefCount.State.delete, hempty, View.cost, if_pos hroot,
      List.append_nil, Finset.empty_sdiff, Finset.notMem_empty, if_false, Nat.add_assoc]
  · have hsame : view.succ current = view.heap.graph.succ current := if_neg hroot
    rw [if_neg hroot]
    cases hfind : view.heap.objects.find? current with
    | none =>
      have hempty : view.heap.graph.succ current = ∅ := by
        refine view.heap.graph.succ_eq_empty current fun hm => ?_
        rw [mem_graph_objects, ← OrderedDict.find?_isSome, hfind] at hm
        cases hm
      refine ⟨[], _, rfl, fun y => by simp [hsame, hempty], ?_, rfl⟩
      simp only [Deletion.work, RefCount.Work.delete, RefCount.State.delete, hsame, hempty, View.cost,
        if_neg hroot, List.append_nil, Finset.empty_sdiff, Finset.notMem_empty, if_false, Heap.size, hfind,
        Nat.add_zero]
    | some obj =>
      have hsucc := graph_succ_of_find? hfind
      set deleted := insert current st.deleted with hdeleted
      set new := orders.walk (.newFront root deleted) (obj.referents \ deleted) with hnew
      have hmem : ∀ y, y ∈ new ↔ y ∈ view.succ current \ deleted := fun y => by
        rw [hnew, orders.mem_walk, hsame, hsucc]
      have hindex : ∀ y ∈ new, view.inbound.find? y = some (view.heap.graph.inbound y) := fun y hy =>
        hview.index y (.inr ⟨current, ((hcut y).1 (Finset.mem_sdiff.1 ((hmem y).1 hy)).1).2⟩)
      obtain ⟨after, hrun, hafter⟩ := decrementInbound_ok (orders.walk_nodup _ _) hindex st.inboundView
      refine ⟨new, _, bind_ok hrun, hmem, ?_, rfl⟩
      simp only [Deletion.work, RefCount.Work.delete, RefCount.State.delete, RefCount.Work.mk.injEq,
        RefCount.State.mk.injEq, View.cost, if_neg hroot, size_of_find? hfind, Nat.add_assoc, and_true]
      refine ⟨⟨funext fun y => ?_, hdeleted⟩, rfl⟩
      rw [hafter y]
      simp only [← hnew, hmem y, ← hdeleted, View.inboundCount]

/-- What a run of `_retained_heap` is about: the counts that its addresses start
with. -/
structure Seeds where
  start : ℕ → Prop
  need : ℕ → ℤ

variable {view : View} {seeds : Seeds}

/-- Away from the starts the count is the number of referrers. -/
def Seeds.Fits (seeds : Seeds) (view : View) : Prop := ∀ y, ¬seeds.start y → seeds.need y = view.inboundCount y

/-- What holds of the variables of a run. -/
abbrev View.Inv (view : View) (seeds : Seeds) (w : RefCount.Work ℕ) : Prop :=
  RefCount.WorkInv view.succ seeds.need seeds.start view.cost w

/-- **`_delete_unreferenced` scans the front** without a failed lookup. -/
theorem deleteUnreferenced_ok (orders : Orders) (hview : ViewOk view) (hseeds : seeds.Fits view) (root : Root)
    (base : ℕ) (n : ℕ) {st : Deletion} (hst : view.Inv seeds (st.work base)) (hn : n ≤ st.front.length) :
    ∃ st' b, deleteUnreferenced orders view root n st = .ok st' ∧
      RefCount.Scan view.succ view.inboundCount view.cost n (st.work base) (st'.work base) b ∧
      st'.deletionHappened = (st.deletionHappened || b) := by
  induction n generalizing st with
  | zero => exact ⟨st, false, rfl, .done, (Bool.or_false _).symm⟩
  | succ index ih =>
    obtain ⟨current, hcurrent⟩ : ∃ current, st.front[index]? = some current :=
      ⟨_, List.getElem?_eq_getElem (by omega)⟩
    obtain ⟨count, hcount⟩ := Option.isSome_iff_exists.1 (hst.met current (List.mem_of_getElem? hcurrent))
    have hcount' : st.inboundView.find? current = some count := hcount
    rw [deleteUnreferenced, hcurrent]
    simp only
    rw [bind_ok (getItem_ok hcount')]
    by_cases hpos : count > 0
    · rw [if_pos hpos]
      exact ⟨st, false, rfl, .blocked hcurrent hcount hpos, (Bool.or_false _).symm⟩
    · rw [if_neg hpos]
      by_cases hstale : current ∈ st.deleted
      · rw [if_pos hstale]
        obtain ⟨st', b, hrun, hscan, hflag⟩ := ih hst (by omega)
        exact ⟨st', b, hrun, .stale hcurrent hstale hscan, hflag⟩
      · rw [if_neg hstale]
        obtain ⟨new, st₁, hrun₁, hnew, hwork, hflag₁⟩ := @deleteCurrent_ok orders view hview root base st current index
        have hst₁ : view.Inv seeds (st₁.work base) := by
          rw [hwork]
          exact hst.delete hseeds hcurrent hcount (by omega) hstale hnew
        have hfront : st₁.front = st.front.eraseIdx index ++ new := congrArg RefCount.Work.front hwork
        have hlen : index ≤ st₁.front.length := by
          rw [hfront, List.length_append, List.length_eraseIdx_of_lt (by omega)]
          omega
        obtain ⟨st', b, hrun, hscan, hflag⟩ := ih hst₁ hlen
        rw [bind_ok hrun₁]
        refine ⟨st', true, hrun, ?_, by rw [hflag, hflag₁, Bool.true_or, Bool.or_true]⟩
        rw [hwork] at hscan
        exact .delete hcurrent hcount (by omega) hstale hnew hscan

/-- **The sort** finds a count for every address of the front. -/
theorem sortFront_ok (orders : Orders) (root : Root) (base : ℕ) {st : Deletion} (hst : view.Inv seeds (st.work base)) :
    ∃ front, sortFront orders root st = .ok front ∧ front.Perm st.front ∧
      ({ st.work base with front } : RefCount.Work ℕ).Sorted := by
  have hkeys : ∀ address ∈ st.front, address ∈ st.inboundView.keys := fun address ha =>
    OrderedDict.find?_isSome.1 (hst.met address ha)
  rw [sortFront, if_pos hkeys]
  refine ⟨_, rfl, orders.sort_perm _ _ _, ?_⟩
  refine (orders.sort_sorted _ _ _).imp fun {x y} hxy c d hc hd => ?_
  have hc' : st.inboundView.find? x = some c := hc
  have hd' : st.inboundView.find? y = some d := hd
  rwa [hc', hd', Option.getD_some, Option.getD_some] at hxy

/-- **The passes end**: each one but the last deletes something out of `nodes`. -/
theorem deletionPasses_ok (orders : Orders) (hview : ViewOk view) (hseeds : seeds.Fits view) (root : Root)
    {nodes : Finset ℕ} (hstart : ∀ y, seeds.start y → y ∈ nodes) (hsucc : ∀ x, view.succ x ⊆ nodes)
    (rounds : ℕ) {st : Deletion} (hst : view.Inv seeds (st.work 0))
    (hrounds : (nodes \ st.deleted).card < rounds) :
    ∃ r, deletionPasses orders view root rounds st = .ok r ∧
      RefCount.Runs view.succ view.inboundCount view.cost (st.work 0) r := by
  induction rounds generalizing st with
  | zero => omega
  | succ rounds ih =>
    obtain ⟨front, hsort, hperm, hsorted⟩ := sortFront_ok orders root 0 hst
    have hpass : ({ st with front := front, retained := 0, deletionHappened := false } : Deletion).work st.retained =
        { st.work 0 with front } := by
      simp only [Deletion.work, Nat.zero_add, Nat.add_zero]
    have hinv : view.Inv seeds
        (({ st with front := front, retained := 0, deletionHappened := false } : Deletion).work st.retained) := by
      rw [hpass]
      exact hst.perm hperm
    obtain ⟨st', b, hrun, hscan, hflag⟩ :=
      deleteUnreferenced_ok orders hview hseeds root st.retained front.length hinv le_rfl
    have hinv' := hinv.scan hseeds hscan
    rw [hpass] at hscan
    rw [deletionPasses, bind_ok hsort, bind_ok hrun]
    cases b with
    | false =>
      rw [if_pos (by rw [hflag]; exact Bool.false_ne_true)]
      refine ⟨_, rfl, ?_⟩
      have htotal : (st.work 0).total = st.retained := Nat.zero_add _
      rw [← htotal]
      exact .stop hperm hsorted hscan
    | true =>
      have hwork : ({ st' with retained := st.retained + st'.retained } : Deletion).work 0 = st'.work st.retained := by
        simp only [Deletion.work, Nat.zero_add]
      have hgrow : st.deleted ⊂ st'.deleted := hscan.deleted_subset.2 rfl
      have hwithin : st'.deleted ⊆ nodes := fun x hx =>
        (hinv'.counts.dead x hx).mem_nodes hstart hsucc
      have hless := RefCount.card_sdiff_lt hgrow hwithin
      obtain ⟨r, hrest, hruns⟩ := @ih { st' with retained := st.retained + st'.retained }
        (by rw [hwork]; exact hinv') (Nat.lt_of_lt_of_le hless (Nat.lt_succ_iff.1 hrounds))
      rw [hwork] at hruns
      rw [if_neg (by rw [hflag]; exact not_not.2 rfl)]
      exact ⟨r, hrest, .again hperm hsorted hscan hruns⟩

/-- **`_retained_heap`** returns the sum over everything that dies with its starts. -/
theorem retainedHeap_spec (orders : Orders) (hview : ViewOk view) (hseeds : seeds.Fits view) (root : Root)
    {nodes : Finset ℕ} (hnodes : ∀ y, seeds.start y → y ∈ nodes) (hsucc : ∀ x, view.succ x ⊆ nodes)
    {inboundView : OrderedDict ℕ ℤ} {front : List ℕ}
    (hstart : ∀ y c, inboundView.find? y = some c → seeds.start y ∧ c = seeds.need y)
    (hother : ∀ y, inboundView.find? y = none → ¬seeds.start y) (hfront : ∀ y, y ∈ front ↔ y ∈ inboundView.keys)
    {rounds : ℕ} (hrounds : nodes.card < rounds) :
    ∃ deleted : Finset ℕ, (∀ y, y ∈ deleted ↔ RefCount.Dead view.succ seeds.need seeds.start y) ∧
      retainedHeap orders rounds view root inboundView front = .ok (∑ x ∈ deleted, view.cost x) := by
  have hinv : view.Inv seeds (Deletion.work 0 ⟨front, inboundView, ∅, 0, false⟩) := by
    refine ⟨RefCount.inv_init hstart hother, fun y hy _ => ?_, fun y hy => ?_, rfl⟩
    · exact (hfront y).2 (OrderedDict.find?_isSome.1 hy)
    · exact OrderedDict.find?_isSome.2 ((hfront y).1 hy)
  obtain ⟨r, hrun, hruns⟩ := @deletionPasses_ok view seeds orders hview hseeds root nodes hnodes hsucc rounds
    ⟨front, inboundView, ∅, 0, false⟩ hinv (by simpa using hrounds)
  obtain ⟨deleted, hdeleted, rfl⟩ := hruns.result hseeds hinv
  exact ⟨deleted, hdeleted, hrun⟩

end Analyzer
end Pydump
