/-
# The loops of the Go calculation

`findStrictSubtrees` and `retained`, followed by the same procedures of the library
as their Python originals: `RefGraph.Marking`, `RefCount.Scan` and `RefCount.Runs`,
here on the numbers of the nodes.  No index is out of range, the loops end, and no
sum wraps, because a sum never counts an object twice.
-/

import Pydump.Go.HeapGraph
import Pydump.Go.Retained
import Pydump.Lib.StrictMarking

namespace Pydump
namespace Go

open ExceptLoop
open RowTable
open RefGraph (Marking)

/-- The size of the object with this number, nothing for another node. -/
def Heap.nodeSize (value : Heap) (node : ℕ) : ℕ :=
  match value.objects[node]? with
  | some object => object.size
  | none => 0

/-- A graph of this heap, with its rows. -/
structure GraphOf (value : Heap) (graph : Graph) (rows : List (List ℕ)) (n : ℕ) : Prop where
  wellFormed : value.WellFormed
  laid : Laid rows n graph
  objects : rows.length = value.objects.length

section

variable {value : Heap} {graph : Graph} {rows : List (List ℕ)} {n : ℕ}

/-- The size of a node is that of its object. -/
theorem nodeSize_eq {i : ℕ} {object : Object} (h : value.objects[i]? = some object) :
    value.nodeSize i = object.size := by
  rw [Heap.nodeSize, h]

/-- What is no row has no size. -/
theorem GraphOf.nodeSize_eq_zero (h : GraphOf value graph rows n) :
    ∀ x ∉ (nodeGraph rows).objects, value.nodeSize x = 0 := by
  intro x hx
  have hge : value.objects.length ≤ x := by
    rw [← h.objects]
    exact Nat.not_lt.1 fun hlt => hx (mem_nodeGraph_objects.2 hlt)
  rw [Heap.nodeSize, List.getElem?_eq_none hge]

/-- **No sum of sizes wraps.** -/
theorem GraphOf.sum_lt (h : GraphOf value graph rows n) (s : Finset ℕ) : ∑ x ∈ s, value.nodeSize x < 2 ^ 64 := by
  have hsub : ∑ x ∈ s, value.nodeSize x ≤ ∑ x ∈ Finset.range value.objects.length, value.nodeSize x := by
    rw [← Finset.sum_filter_ne_zero s]
    refine Finset.sum_le_sum_of_subset fun x hx => ?_
    have hne := (Finset.mem_filter.1 hx).2
    by_contra hlt
    refine hne (h.nodeSize_eq_zero x fun hm => hlt (Finset.mem_range.2 ?_))
    rw [← h.objects]
    exact mem_nodeGraph_objects.1 hm
  have hle : ∑ x ∈ Finset.range value.objects.length, value.nodeSize x ≤
      (Finset.range value.objects.length).card • (2 ^ 32 - 1) := by
    refine Finset.sum_le_card_nsmul _ _ _ fun x hx => ?_
    have hget := List.getElem?_eq_getElem (Finset.mem_range.1 hx)
    rw [nodeSize_eq hget]
    exact Nat.le_sub_one_of_lt (h.wellFormed.sizes _ (List.getElem_mem _))
  have hcount := h.wellFormed.count
  rw [Finset.card_range, Nat.nsmul_eq_mul] at hle
  have hmul := Nat.mul_le_mul_right (2 ^ 32 - 1) hcount
  omega

/-- A row holds the referents of its object. -/
theorem GraphOf.rows_get (_ : GraphOf value graph rows n) {i : ℕ} (hi : i < rows.length) :
    ∃ row, rows[i]? = some row ∧ (nodeGraph rows).succ i = row.toFinset :=
  ⟨_, List.getElem?_eq_getElem hi, nodeGraph_succ (List.getElem?_eq_getElem hi)⟩

/-- A row belongs to an object. -/
theorem GraphOf.object_get (h : GraphOf value graph rows n) {i : ℕ} (hi : i < rows.length) :
    ∃ object, value.objects[i]? = some object :=
  ⟨_, List.getElem?_eq_getElem (h.objects ▸ hi)⟩

/-- The count of an object is the number of its referrers. -/
theorem GraphOf.count_object (h : GraphOf value graph rows n) {i : ℕ} (hi : i < rows.length) :
    graph.inboundCount i = .ok ((nodeGraph rows).inbound i).card := by
  have hn : i < n := Nat.lt_of_lt_of_le hi h.laid.ok.objects
  rw [h.laid.inboundCount hn, h.laid.countOf_eq hn (h.laid.ok.succ_small hi)]

/-- The parents of an object are its referrers. -/
theorem GraphOf.parents (h : GraphOf value graph rows n) {i : ℕ} (hi : i < rows.length) :
    ∃ parents, graph.inboundReferences i = .ok parents ∧ parents.toFinset = (nodeGraph rows).inbound i :=
  ⟨_, h.laid.inboundReferences (Nat.lt_of_lt_of_le hi h.laid.ok.objects) (h.laid.ok.succ_small hi),
    h.laid.ok.toFinset_entriesOf i⟩

/-! ### The strict subtrees -/

/-- The nodes whose flag is set. -/
def flagged (subtreeRoots : List Bool) : Finset ℕ :=
  {i ∈ Finset.range subtreeRoots.length | subtreeRoots[i]? = some true}

/-- The flagged objects are those whose flag is set. -/
theorem mem_flagged {subtreeRoots : List Bool} {i : ℕ} : i ∈ flagged subtreeRoots ↔ subtreeRoots[i]? = some true := by
  rw [flagged, Finset.mem_filter, Finset.mem_range]
  exact ⟨And.right, fun h => ⟨(List.getElem?_eq_some_iff.1 h).1, h⟩⟩

/-- A flag that is set adds its object. -/
theorem flagged_set {subtreeRoots : List Bool} {i : ℕ} (hi : i < subtreeRoots.length) :
    flagged (subtreeRoots.set i true) = insert i (flagged subtreeRoots) := by
  ext x
  rw [mem_flagged, Finset.mem_insert, mem_flagged, List.getElem?_set]
  by_cases hx : i = x
  · subst hx
    simp [hi]
  · simp [hx, Ne.symm hx]

/-- A flag says whether the object is flagged. -/
theorem getAt_flag {subtreeRoots : List Bool} {i : ℕ} (hi : i < subtreeRoots.length) :
    getAt subtreeRoots i = .ok (decide (i ∈ flagged subtreeRoots)) := by
  refine getAt_ok ?_
  rw [List.getElem?_eq_getElem hi, Option.some_inj]
  by_cases h : subtreeRoots[i] = true
  · rw [h, eq_comm, decide_eq_true_iff, mem_flagged, List.getElem?_eq_getElem hi, h]
  · have hm : i ∉ flagged subtreeRoots := by
      rw [mem_flagged, List.getElem?_eq_getElem hi, Option.some_inj]
      exact h
    rw [decide_eq_false hm]
    exact Bool.eq_false_iff.2 h

/-- The state of `findStrictSubtrees` as a marking. -/
def Subtrees.marking (st : Subtrees) : Marking ℕ :=
  ⟨flagged st.subtreeRoots, fun i => if i ∈ flagged st.subtreeRoots then st.objectRetained[i]? else none, st.front⟩

/-- The arrays have a place for every object. -/
structure Subtrees.Sized (st : Subtrees) (rows : List (List ℕ)) : Prop where
  subtreeRoots : st.subtreeRoots.length = rows.length
  objectRetained : st.objectRetained.length = rows.length

/-- What the source does to mark `x`, as a step of the library. -/
theorem marking_mark {st : Subtrees} (hsized : st.Sized rows) {x total : ℕ} (hx : x < rows.length)
    (htotal : total = value.nodeSize x +
      ∑ y ∈ (nodeGraph rows).succ x, ∑ z ∈ (nodeGraph rows).below y, value.nodeSize z) {parents : List ℕ}
    (hparents : parents.toFinset = (nodeGraph rows).inbound x) :
    Subtrees.marking ⟨st.subtreeRoots.set x true, st.objectRetained.set x total, st.front ∪ parents.toFinset⟩ =
      st.marking.mark (nodeGraph rows) value.nodeSize x := by
  have hflags := @flagged_set st.subtreeRoots x (hsized.subtreeRoots ▸ hx)
  simp only [Subtrees.marking, Marking.mark, Marking.mk.injEq, hflags, hparents, true_and, and_true]
  funext y
  rw [List.getElem?_set]
  by_cases hxy : x = y
  · subst hxy
    rw [if_pos (Finset.mem_insert_self _ _), if_pos rfl, if_pos rfl, if_pos (hsized.objectRetained ▸ hx), htotal]
  · rw [if_neg hxy, if_neg hxy]
    exact if_congr (by rw [Finset.mem_insert]; exact or_iff_right (Ne.symm hxy)) rfl rfl

/-- A mark keeps the lengths. -/
theorem Subtrees.Sized.set {st : Subtrees} (h : st.Sized rows) (x total : ℕ) (front : Finset ℕ) :
    Subtrees.Sized ⟨st.subtreeRoots.set x true, st.objectRetained.set x total, front⟩ rows where
  subtreeRoots := by rw [List.length_set, h.subtreeRoots]
  objectRetained := by rw [List.length_set, h.objectRetained]

/-- At first nothing is marked. -/
theorem marking_init (k : ℕ) : Subtrees.marking ⟨List.replicate k false, List.replicate k 0, ∅⟩ =
    ⟨∅, fun _ => none, ∅⟩ := by
  have hempty : flagged (List.replicate k false) = ∅ := by
    refine Finset.eq_empty_of_forall_notMem fun x hx => ?_
    rw [mem_flagged, List.getElem?_replicate] at hx
    split_ifs at hx
    cases hx
  simp only [Subtrees.marking, hempty, Finset.notMem_empty, if_false]

/-- **The first loop.** -/
theorem markLeaves_ok (h : GraphOf value graph rows n) {st₀ : Subtrees} (hsized₀ : st₀.Sized rows)
    (hinit : st₀.marking = ⟨∅, fun _ => none, ∅⟩) :
    ∃ st, value.objects.zipIdx.foldlM (markLeaf graph) st₀ = .ok st ∧ st.Sized rows ∧
      Marking.Between (nodeGraph rows) value.nodeSize st.marking := by
  let inv (seen : List (Object × ℕ)) (st : Subtrees) : Prop :=
    st.Sized rows ∧ Marking.Started (nodeGraph rows) value.nodeSize (Finset.range seen.length) st.marking
  have hround : ∀ seen entry rest st, seen ++ entry :: rest = value.objects.zipIdx → inv seen st →
      ∃ st', markLeaf graph st entry = .ok st' ∧ inv (seen ++ [entry]) st' := by
    rintro seen ⟨object, i⟩ rest st hsplit ⟨hsized, hst⟩
    obtain ⟨rfl, hobject⟩ := zipIdx_split hsplit
    have hi : seen.length < rows.length := by
      rw [h.objects]
      exact (List.getElem?_eq_some_iff.1 hobject).1
    have hmod : seen.length % 2 ^ 32 = seen.length :=
      Nat.mod_eq_of_lt (Nat.lt_of_succ_lt (h.laid.ok.succ_small hi))
    obtain ⟨row, hrow, hsucc⟩ := h.rows_get hi
    obtain ⟨parents, hparents, hinbound⟩ := h.parents hi
    simp only [inv, List.length_append, List.length_singleton, Finset.range_add_one]
    unfold markLeaf
    simp only [hmod]
    rw [bind_ok (h.laid.objectReferents hrow)]
    by_cases hempty : row.length = 0
    · rw [if_pos hempty, bind_ok (h.count_object hi)]
      have hleaf : (nodeGraph rows).succ seen.length = ∅ := by
        rw [hsucc, List.length_eq_zero_iff.1 hempty]
        rfl
      by_cases hfew : ((nodeGraph rows).inbound seen.length).card < 2
      · rw [if_pos (by omega), bind_ok (setAt_ok (hsized.subtreeRoots ▸ hi) _),
          bind_ok (setAt_ok (hsized.objectRetained ▸ hi) _), bind_ok hparents]
        refine ⟨_, rfl, hsized.set _ _ _, ?_⟩
        rw [marking_mark hsized hi (by rw [hleaf, Finset.sum_empty, nodeSize_eq hobject]; rfl) hinbound]
        exact hst.mark (mem_nodeGraph_objects.2 hi) hfew hleaf
      · rw [if_neg (by omega)]
        exact ⟨st, rfl, hsized, hst.skip fun hno => hfew hno.2⟩
    · rw [if_neg hempty]
      refine ⟨st, rfl, hsized, hst.skip fun hno => hempty ?_⟩
      rw [hsucc, List.toFinset_eq_empty_iff] at hno
      rw [hno.1, List.length_nil]
  have hstart : inv [] st₀ := by
    refine ⟨hsized₀, ?_⟩
    rw [hinit]
    exact Marking.Started.init
  obtain ⟨st, hrun, hsized, hst⟩ := foldlM_ok inv hstart hround
  rw [List.length_zipIdx, ← h.objects] at hst
  exact ⟨st, hrun, hsized, hst.between⟩

/-- **`allSubtrees`** is set when all referents are marked. -/
theorem allSubtrees_ok (h : GraphOf value graph rows n) {subtreeRoots : List Bool}
    (hsized : subtreeRoots.length = rows.length) (referents : List ℕ) :
    allSubtrees graph subtreeRoots referents = .ok (decide (∀ y ∈ referents, y ∈ flagged subtreeRoots)) := by
  induction referents with
  | nil => rfl
  | cons referent referents ih =>
    unfold allSubtrees
    by_cases hge : referent ≥ graph.objectCount
    · have hout : referent ∉ flagged subtreeRoots := by
        rw [mem_flagged, List.getElem?_eq_none (by rw [hsized, ← h.laid.objectCount]; exact hge)]
        exact fun hm => by cases hm
      rw [if_pos hge, decide_eq_false fun hall => hout (hall referent List.mem_cons_self)]
      rfl
    · have hlt : referent < subtreeRoots.length := by
        rw [hsized, ← h.laid.objectCount]
        omega
      rw [if_neg hge, bind_ok (getAt_flag hlt)]
      by_cases hm : referent ∈ flagged subtreeRoots
      · simp only [hm, decide_true, not_true, if_false, ih, List.forall_mem_cons, true_and]
      · simp only [hm, decide_false, Bool.false_eq_true, not_false_eq_true, if_true, List.forall_mem_cons, false_and]
        rfl

/-- **The sum over the referents**, which does not wrap. -/
theorem addRetained_ok {objectRetained : List ℕ} {sums : ℕ → ℕ} {referents : List ℕ}
    (hsums : ∀ y ∈ referents, objectRetained[y]? = some (sums y)) {base : ℕ}
    (hlt : base + (referents.map sums).sum < 2 ^ 64) :
    referents.foldlM (addRetained objectRetained) base = .ok (base + (referents.map sums).sum) := by
  induction referents generalizing base with
  | nil => rfl
  | cons y referents ih =>
    rw [List.map_cons, List.sum_cons] at hlt
    have hstep : addRetained objectRetained base y = .ok (base + sums y) := by
      rw [addRetained, bind_ok (getAt_ok (hsums y List.mem_cons_self)), Nat.mod_eq_of_lt (by omega)]
      rfl
    rw [List.foldlM_cons, bind_ok hstep, ih (fun z hz => hsums z (List.mem_cons_of_mem y hz)) (by omega),
      List.map_cons, List.sum_cons, Nat.add_assoc]

/-- **Visiting one node of the front** is a visit of the library. -/
theorem visitFront_ok (h : GraphOf value graph rows n) {st : Subtrees} (hsized : st.Sized rows)
    (hok : Marking.Ok (nodeGraph rows) value.nodeSize st.marking) {current : ℕ} (hcurrent : current < rows.length) :
    ∃ st', visitFront value graph st current = .ok st' ∧ st'.Sized rows ∧
      Marking.Visit (nodeGraph rows) value.nodeSize st.marking current st'.marking := by
  obtain ⟨row, hrow, hsucc⟩ := h.rows_get hcurrent
  obtain ⟨object, hobject⟩ := h.object_get hcurrent
  obtain ⟨parents, hparents, hinbound⟩ := h.parents hcurrent
  unfold visitFront
  rw [bind_ok (h.count_object hcurrent)]
  by_cases hmany : 1 < ((nodeGraph rows).inbound current).card
  · rw [if_pos (by omega)]
    exact ⟨st, rfl, hsized, .drop hmany⟩
  · rw [if_neg (by omega), bind_ok (h.laid.objectReferents hrow),
      bind_ok (allSubtrees_ok h hsized.subtreeRoots row)]
    by_cases hclosed : ∀ y ∈ row, y ∈ flagged st.subtreeRoots
    · rw [if_neg (by simpa using hclosed)]
      have hsub : (nodeGraph rows).succ current ⊆ flagged st.subtreeRoots := fun y hy => by
        rw [hsucc] at hy
        exact hclosed y (List.mem_toFinset.1 hy)
      have hsums : ∀ y ∈ row, st.objectRetained[y]? =
          some (∑ z ∈ (nodeGraph rows).below y, value.nodeSize z) := fun y hy => by
        have hsum := hok.sums y (hclosed y hy)
        simp only [Subtrees.marking, if_pos (hclosed y hy)] at hsum
        exact hsum
      have hnodup := h.laid.ok.nodup row (List.mem_of_getElem? hrow)
      have hlist : (row.map fun y => ∑ z ∈ (nodeGraph rows).below y, value.nodeSize z).sum =
          ∑ y ∈ (nodeGraph rows).succ current, ∑ z ∈ (nodeGraph rows).below y, value.nodeSize z := by
        rw [hsucc, List.sum_toFinset _ hnodup]
      have hstrict : (nodeGraph rows).Strict current :=
        ⟨mem_nodeGraph_objects.2 hcurrent, Nat.le_of_not_lt hmany, fun y hy => hok.marks.strict y (hsub hy)⟩
      have hbound := h.sum_lt ((nodeGraph rows).below current)
      rw [hstrict.sum_below, nodeSize_eq hobject, ← hlist] at hbound
      rw [bind_ok (setAt_ok (hsized.subtreeRoots ▸ hcurrent) _), bind_ok (getAt_ok hobject),
        bind_ok (addRetained_ok hsums hbound), bind_ok (setAt_ok (hsized.objectRetained ▸ hcurrent) _),
        bind_ok hparents]
      refine ⟨_, rfl, hsized.set _ _ _, ?_⟩
      rw [marking_mark hsized hcurrent (by rw [hlist, nodeSize_eq hobject]) hinbound]
      exact .mark (Nat.le_of_not_lt hmany) hsub
    · rw [if_pos (by simpa using hclosed)]
      refine ⟨_, rfl, ⟨hsized.subtreeRoots, hsized.objectRetained⟩, .keep fun hempty => hclosed fun y hy => ?_⟩
      exact Finset.sdiff_eq_empty_iff_subset.1 hempty (hsucc ▸ List.mem_toFinset.2 hy)

/-- **One pass over the front.** -/
theorem frontPass_ok (orders : Orders) (h : GraphOf value graph rows n) {st : Subtrees} (hsized : st.Sized rows)
    (hst : Marking.Between (nodeGraph rows) value.nodeSize st.marking) :
    ∃ next, (orders.walk (.subtreeFront st.subtreeRoots st.front) st.front).foldlM
        (visitFront value graph) { st with front := ∅ } = .ok next ∧ next.Sized rows ∧
      Marking.Within (nodeGraph rows) value.nodeSize st.marking st.front next.marking := by
  set walk := orders.walk (.subtreeFront st.subtreeRoots st.front) st.front with hwalk
  have hset : walk.toFinset = st.front := orders.toFinset_walk _ _
  let inv (seen : List ℕ) (st' : Subtrees) : Prop :=
    st'.Sized rows ∧ Marking.Within (nodeGraph rows) value.nodeSize st.marking seen.toFinset st'.marking
  have hround : ∀ seen x rest st', seen ++ x :: rest = walk → inv seen st' →
      ∃ st'', visitFront value graph st' x = .ok st'' ∧ inv (seen ++ [x]) st'' := by
    rintro seen x rest st' hsplit ⟨hsized', hst'⟩
    have hxfront : x ∈ st.front := by
      rw [← hset, List.mem_toFinset, ← hsplit]
      exact List.mem_append_right _ List.mem_cons_self
    have hnodup : (seen ++ x :: rest).Nodup := hsplit ▸ orders.walk_nodup _ _
    have hxseen : x ∉ seen.toFinset := fun hm =>
      (List.nodup_append.1 hnodup).2.2 x (List.mem_toFinset.1 hm) x List.mem_cons_self rfl
    have hseen : (seen ++ [x]).toFinset = insert x seen.toFinset := by
      ext y
      simp
    have hobject := hst.ok.front hxfront
    obtain ⟨st'', hrun, hsized'', hvisit⟩ := visitFront_ok h hsized' hst'.ok (mem_nodeGraph_objects.1 hobject)
    refine ⟨st'', hrun, hsized'', ?_⟩
    rw [hseen]
    exact hst'.visit hobject hxseen hvisit
  have hstart : inv [] { st with front := ∅ } := ⟨⟨hsized.subtreeRoots, hsized.objectRetained⟩, hst.within⟩
  obtain ⟨next, hrun, hsized', hnext⟩ := foldlM_ok inv hstart hround
  rw [hset] at hnext
  exact ⟨next, hrun, hsized', hnext⟩

/-- The sets are equal if and only if the comparison says so. -/
theorem equalNodeSets_iff {left right : Finset ℕ} : equalNodeSets left right = true ↔ right = left := by
  rw [equalNodeSets, Bool.and_eq_true, decide_eq_true_iff, decide_eq_true_iff]
  constructor
  · rintro ⟨hcard, hsub⟩
    exact (Finset.eq_of_subset_of_card_le hsub (le_of_eq hcard.symm)).symm
  · rintro rfl
    exact ⟨rfl, fun _ hx => hx⟩

/-- **The loop without a bound ends** within as many rounds as its front can climb. -/
theorem growSubtrees_ok (orders : Orders) (h : GraphOf value graph rows n) (rounds : ℕ) {st : Subtrees}
    (hsized : st.Sized rows) (hst : Marking.Between (nodeGraph rows) value.nodeSize st.marking)
    (hrounds : Marking.climbSum (nodeGraph rows) st.front < rounds) :
    ∃ st', growSubtrees orders value graph rounds st = .ok st' ∧ st'.Sized rows ∧
      Marking.Found (nodeGraph rows) value.nodeSize st'.marking := by
  induction rounds generalizing st with
  | zero => omega
  | succ rounds ih =>
    obtain ⟨next, hrun, hsized', hnext⟩ := frontPass_ok orders h hsized hst
    rw [growSubtrees, bind_ok hrun]
    by_cases hfront : next.front = st.front
    · rw [if_pos (equalNodeSets_iff.2 hfront)]
      exact ⟨next, rfl, hsized', hnext.found hfront⟩
    · rw [if_neg (fun heq => hfront (equalNodeSets_iff.1 heq))]
      have hclimbs : Marking.climbSum (nodeGraph rows) next.front < Marking.climbSum (nodeGraph rows) st.front :=
        hnext.climbs hfront
      exact ih hsized' hnext.between (by omega)

/-- A loop that has come to its end does not see how many rounds are left. -/
theorem growSubtrees_mono {orders : Orders} {rounds rounds' : ℕ} (hle : rounds ≤ rounds') {st st' : Subtrees}
    (h : growSubtrees orders value graph rounds st = .ok st') :
    growSubtrees orders value graph rounds' st = .ok st' := by
  induction rounds generalizing rounds' st with
  | zero => cases h
  | succ rounds ih =>
    obtain ⟨k, rfl⟩ := Nat.exists_eq_add_of_lt hle
    rw [growSubtrees, bind_eq_ok] at h
    obtain ⟨next, hrun, hnext⟩ := h
    rw [growSubtrees, bind_ok hrun]
    by_cases hfront : equalNodeSets st.front next.front
    · rw [if_pos hfront] at hnext ⊢
      exact hnext
    · rw [if_neg hfront] at hnext ⊢
      exact ih (by omega) hnext

/-- Rounds that suffice for `findStrictSubtrees` with these rows. -/
def subtreeRounds (objects : ℕ) : ℕ := objects * (objects + 2) + 1

/-- **The strict subtrees are found.** -/
theorem findStrictSubtrees_spec (orders : Orders) (h : GraphOf value graph rows n) {rounds : ℕ}
    (hrounds : subtreeRounds rows.length ≤ rounds) {st₀ : Subtrees} (hsized₀ : st₀.Sized rows)
    (hinit : st₀.marking = ⟨∅, fun _ => none, ∅⟩) (hfront : st₀.front = ∅) (threadRetained : OrderedDict String ℕ) :
    ∃ st : Subtrees, Calculator.findStrictSubtrees orders rounds
        ⟨value, graph, st₀.subtreeRoots, st₀.objectRetained, threadRetained⟩ =
          .ok ⟨value, graph, st.subtreeRoots, st.objectRetained, threadRetained⟩ ∧ st.Sized rows ∧
      Marking.Found (nodeGraph rows) value.nodeSize st.marking := by
  obtain ⟨leaves, hrun, hsized, hleaves⟩ := markLeaves_ok h hsized₀ hinit
  have hclimb := Marking.climbSum_le hleaves.ok.front
  have hcard : (nodeGraph rows).objects.card = rows.length := Finset.card_range _
  rw [hcard] at hclimb
  obtain ⟨st, hgrow, hsized', hfound⟩ := growSubtrees_ok orders h rounds hsized hleaves
    (lt_of_lt_of_le (Nat.lt_succ_of_le hclimb) hrounds)
  refine ⟨st, ?_, hsized', hfound⟩
  have hrun' : value.objects.zipIdx.foldlM (markLeaf graph) ⟨st₀.subtreeRoots, st₀.objectRetained, ∅⟩ = .ok leaves := by
    rw [← hfront]
    exact hrun
  rw [Calculator.findStrictSubtrees, bind_ok hrun', bind_ok hgrow]
  rfl

end

end Go
end Pydump
