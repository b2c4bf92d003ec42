/-
# `retained` deletes what loses its last reference

`deleteUnreferenced` is a scan of the library's work list and `retained` a run of
it, for every order that `sort.Slice` leaves equal counts in.  A sum does not wrap
as long as what can die costs less than 2^64 (`Seeds.Affordable`).
-/

import Pydump.Go.RetainedSpec

namespace Pydump
namespace Go

open ExceptLoop
open RowTable

variable {rows : List (List ℕ)} {n : ℕ}

/-- The strict subtrees that a run looks at. -/
def Calculator.marked (c : Calculator) (useSubtrees : Bool) : Finset ℕ :=
  if useSubtrees then flagged c.subtreeRoots else ∅

/-- What `retained` relies on. -/
structure ViewOk (c : Calculator) (useSubtrees : Bool) (rows : List (List ℕ)) (n : ℕ) : Prop where
  graphOf : GraphOf c.heap c.graph rows n
  flags : c.subtreeRoots.length = rows.length
  marks : (nodeGraph rows).Marks (c.marked useSubtrees)
  sums : ∀ x ∈ c.marked useSubtrees,
    c.objectRetained[x]? = some (∑ z ∈ (nodeGraph rows).below x, c.heap.nodeSize z)

/-- What deleting a node adds to the retained size. -/
noncomputable def Calculator.cost (c : Calculator) (useSubtrees : Bool) (rows : List (List ℕ)) (node : ℕ) : ℕ :=
  if node ∈ c.marked useSubtrees then ∑ z ∈ (nodeGraph rows).below node, c.heap.nodeSize z
  else c.heap.nodeSize node

/-- The variables of a run as a work list; `base` is what earlier passes added. -/
def Deletion.work (base : ℕ) (st : Deletion) : RefCount.Work ℕ where
  count := st.inboundView.find?
  deleted := st.deleted
  front := st.front
  total := base + st.retained

/-- What a run is about: the counts that its nodes start with. -/
structure Seeds where
  start : ℕ → Prop
  need : ℕ → ℤ

variable {c : Calculator} {useSubtrees : Bool} {seeds : Seeds}

/-- The references that a run follows. -/
abbrev followed (c : Calculator) (useSubtrees : Bool) (rows : List (List ℕ)) : ℕ → Finset ℕ :=
  (nodeGraph rows).cut (c.marked useSubtrees)

/-- Away from the starts the count is what `InboundCount` returns. -/
def Seeds.Fits (seeds : Seeds) (graph : Graph) : Prop := ∀ y, ¬seeds.start y → seeds.need y = graph.countOf y

/-- What can die costs less than 2^64. -/
def Seeds.Affordable (seeds : Seeds) (c : Calculator) (useSubtrees : Bool) (rows : List (List ℕ)) : Prop :=
  ∀ s : Finset ℕ, (∀ x ∈ s, RefCount.Dead (followed c useSubtrees rows) seeds.need seeds.start x) →
    ∑ x ∈ s, c.cost useSubtrees rows x < 2 ^ 64

/-- What holds of the variables of a run. -/
abbrev RunInv (c : Calculator) (useSubtrees : Bool) (rows : List (List ℕ)) (seeds : Seeds) (w : RefCount.Work ℕ) :
    Prop :=
  RefCount.WorkInv (followed c useSubtrees rows) seeds.need seeds.start (c.cost useSubtrees rows) w

/-- The total of a run does not wrap. -/
theorem total_lt (haffordable : seeds.Affordable c useSubtrees rows) {w : RefCount.Work ℕ}
    (hw : RunInv c useSubtrees rows seeds w) : w.total < 2 ^ 64 := by
  rw [hw.total]
  exact haffordable _ hw.counts.dead

/-- A counter is the one kept, or the count of the graph. -/
theorem referentCount_ok {graph : Graph} (h : Laid rows n graph) (st : Deletion) {referent : ℕ} (hr : referent < n) :
    referentCount graph st referent = .ok ((st.inboundView.find? referent).getD (graph.countOf referent)) := by
  unfold referentCount
  cases st.inboundView.find? referent with
  | some count => rfl
  | none => exact h.inboundCount hr

/-- What the loop over the referents has done to `st` after the referents `seen`: it
has taken one off the count of every referent that was not deleted, and put it
behind the front. -/
structure Decremented (graph : Graph) (st : Deletion) (seen : List ℕ) (st' : Deletion) : Prop where
  front : st'.front = st.front ++ seen.filter (· ∉ st.deleted)
  deleted : st'.deleted = st.deleted
  retained : st'.retained = st.retained
  deletionHappened : st'.deletionHappened = st.deletionHappened
  view : ∀ y, st'.inboundView.find? y = if y ∈ seen ∧ y ∉ st.deleted then
    some ((st.inboundView.find? y).getD (graph.countOf y) - 1) else st.inboundView.find? y

/-- **One referent.** -/
theorem decrement_ok {graph : Graph} (h : Laid rows n graph) {st st' : Deletion} {seen : List ℕ}
    (hst' : Decremented graph st seen st') {x : ℕ} (hx : x < n) (hseen : x ∉ seen) :
    ∃ st'', decrement graph st' x = .ok st'' ∧ Decremented graph st (seen ++ [x]) st'' := by
  unfold decrement
  by_cases hd : x ∈ st.deleted
  · rw [if_pos (hst'.deleted ▸ hd)]
    refine ⟨st', rfl, ?_, hst'.deleted, hst'.retained, hst'.deletionHappened, fun y => ?_⟩
    · simp [hst'.front, hd]
    · rw [hst'.view y]
      by_cases hxy : y = x
      · rw [if_neg fun hm => hm.2 (hxy ▸ hd), if_neg fun hm => hm.2 (hxy ▸ hd)]
      · simp [hxy]
  · rw [if_neg (hst'.deleted ▸ hd), bind_ok (referentCount_ok h st' hx)]
    refine ⟨_, rfl, ?_, hst'.deleted, hst'.retained, hst'.deletionHappened, fun y => ?_⟩
    · simp [hst'.front, hd]
    · rw [OrderedDict.find?_insert]
      have hcount : st'.inboundView.find? x = st.inboundView.find? x := by
        rw [hst'.view x, if_neg fun hm => hseen hm.1]
      by_cases hxy : x = y
      · rw [if_pos hxy, if_pos ⟨by simp [hxy], hxy ▸ hd⟩, hcount, hxy]
      · rw [if_neg hxy, hst'.view y]
        simp [Ne.symm hxy]

/-- **The loop over the referents.** -/
theorem decrementAll_ok {graph : Graph} (h : Laid rows n graph) {referents : List ℕ} (hnodup : referents.Nodup)
    (hlt : ∀ y ∈ referents, y < n) (st : Deletion) :
    ∃ st', referents.foldlM (decrement graph) st = .ok st' ∧ Decremented graph st referents st' := by
  refine foldlM_ok (Decremented graph st) ⟨by simp, rfl, rfl, rfl, fun y => by simp⟩ ?_
  intro seen x rest st' hsplit hst'
  have hx : x ∈ referents := hsplit ▸ List.mem_append_right _ List.mem_cons_self
  have hseen : x ∉ seen := fun hm =>
    (List.nodup_append.1 (hsplit ▸ hnodup)).2.2 x hm x List.mem_cons_self rfl
  exact decrement_ok h hst' (hlt x hx) hseen

/-- **Following the referents** of a node that is not looked up as a subtree. -/
theorem followReferents_ok (hview : ViewOk c useSubtrees rows n) {base : ℕ} {st : Deletion} {current index : ℕ}
    (hmarked : current ∉ c.marked useSubtrees)
    (htotal : base + st.retained + c.cost useSubtrees rows current < 2 ^ 64) :
    ∃ new st', followReferents c current
        { st with
          front := st.front.eraseIdx index
          deleted := insert current st.deleted
          deletionHappened := true } = .ok st' ∧
      (∀ y, y ∈ new ↔ y ∈ followed c useSubtrees rows current \ insert current st.deleted) ∧
      st'.work base = (st.work base).delete (followed c useSubtrees rows) c.graph.countOf
        (c.cost useSubtrees rows) index current new ∧
      st'.deletionHappened = true := by
  have hsame : followed c useSubtrees rows current = (nodeGraph rows).succ current := if_neg hmarked
  have hcost : c.cost useSubtrees rows current = c.heap.nodeSize current := if_neg hmarked
  unfold followReferents
  by_cases hge : current ≥ c.graph.objectCount
  · have hout : current ∉ (nodeGraph rows).objects := fun hm => by
      rw [mem_nodeGraph_objects, ← hview.graphOf.laid.objectCount] at hm
      omega
    have hempty : (nodeGraph rows).succ current = ∅ := (nodeGraph rows).succ_eq_empty current hout
    rw [if_pos hge]
    refine ⟨[], _, rfl, fun y => by simp [hsame, hempty], ?_, rfl⟩
    simp only [Deletion.work, RefCount.Work.delete, RefCount.State.delete, hsame, hempty, hcost,
      hview.graphOf.nodeSize_eq_zero current hout, List.append_nil, Finset.empty_sdiff, Finset.notMem_empty,
      if_false, Nat.add_zero]
  · have hlt : current < rows.length := by
      rw [← hview.graphOf.laid.objectCount]
      omega
    obtain ⟨row, hrow, hsucc⟩ := hview.graphOf.rows_get hlt
    obtain ⟨object, hobject⟩ := hview.graphOf.object_get hlt
    have hrowmem := List.mem_of_getElem? hrow
    have hsize : c.heap.nodeSize current = object.size := nodeSize_eq hobject
    set deleted := insert current st.deleted with hdeleted
    have hnowrap : (st.retained + object.size) % 2 ^ 64 = st.retained + object.size := by
      rw [hcost, hsize] at htotal
      exact Nat.mod_eq_of_lt (by omega)
    obtain ⟨after, hrun, hafter⟩ := decrementAll_ok hview.graphOf.laid (hview.graphOf.laid.ok.nodup row hrowmem)
      (hview.graphOf.laid.ok.lt row hrowmem) ⟨st.front.eraseIdx index, st.inboundView, deleted,
        st.retained + object.size, true⟩
    have hmem : ∀ y, y ∈ row.filter (· ∉ deleted) ↔ y ∈ followed c useSubtrees rows current \ deleted := fun y => by
      rw [hsame, hsucc, Finset.mem_sdiff, List.mem_toFinset, List.mem_filter, decide_eq_true_iff]
    rw [if_neg hge, bind_ok (getAt_ok hobject), bind_ok (hview.graphOf.laid.objectReferents hrow)]
    simp only [hnowrap]
    refine ⟨row.filter (· ∉ deleted), after, hrun, hmem, ?_, hafter.deletionHappened⟩
    simp only [Deletion.work, RefCount.Work.delete, RefCount.State.delete, RefCount.Work.mk.injEq,
      RefCount.State.mk.injEq, hcost, hsize, hafter.front, hafter.deleted, hafter.retained, Nat.add_assoc,
      and_true, ← hdeleted]
    funext y
    rw [hafter.view y]
    refine if_congr ?_ rfl rfl
    rw [← hmem y, List.mem_filter, decide_eq_true_iff]

/-- **Deleting one node** is a deletion of the library. -/
theorem deleteCurrent_ok (hview : ViewOk c useSubtrees rows n) {base : ℕ} {st : Deletion} {current index : ℕ}
    (htotal : base + st.retained + c.cost useSubtrees rows current < 2 ^ 64) :
    ∃ new st', deleteCurrent c useSubtrees current
        { st with
          front := st.front.eraseIdx index
          deleted := insert current st.deleted
          deletionHappened := true } = .ok st' ∧
      (∀ y, y ∈ new ↔ y ∈ followed c useSubtrees rows current \ insert current st.deleted) ∧
      st'.work base = (st.work base).delete (followed c useSubtrees rows) c.graph.countOf
        (c.cost useSubtrees rows) index current new ∧
      st'.deletionHappened = true := by
  unfold deleteCurrent
  by_cases hlook : useSubtrees = true ∧ current < c.graph.objectCount
  · obtain ⟨rfl, hlt⟩ := hlook
    have hflag : current < c.subtreeRoots.length := by rw [hview.flags, ← hview.graphOf.laid.objectCount]; exact hlt
    rw [if_pos ⟨rfl, hlt⟩, bind_ok (getAt_flag hflag)]
    by_cases hroot : current ∈ flagged c.subtreeRoots
    · have hmarked : current ∈ c.marked true := hroot
      have hempty : followed c true rows current = ∅ := if_pos hmarked
      have hcost : c.cost true rows current = ∑ z ∈ (nodeGraph rows).below current, c.heap.nodeSize z := if_pos hmarked
      have hnowrap : (st.retained + ∑ z ∈ (nodeGraph rows).below current, c.heap.nodeSize z) % 2 ^ 64 =
          st.retained + ∑ z ∈ (nodeGraph rows).below current, c.heap.nodeSize z := by
        rw [hcost] at htotal
        exact Nat.mod_eq_of_lt (by omega)
      rw [decide_eq_true hroot, if_pos rfl, bind_ok (getAt_ok (hview.sums current hmarked))]
      refine ⟨[], _, rfl, fun y => by simp [hempty], ?_, rfl⟩
      simp only [Deletion.work, RefCount.Work.delete, RefCount.State.delete, hempty, hcost, hnowrap,
        List.append_nil, Finset.empty_sdiff, Finset.notMem_empty, if_false, Nat.add_assoc]
    · rw [decide_eq_false hroot, if_neg Bool.false_ne_true]
      exact followReferents_ok hview hroot htotal
  · rw [if_neg hlook]
    refine followReferents_ok hview (fun hm => hlook ?_) htotal
    unfold Calculator.marked at hm
    split_ifs at hm with huse
    · refine ⟨huse, ?_⟩
      rw [hview.graphOf.laid.objectCount, ← hview.flags]
      exact (List.getElem?_eq_some_iff.1 (mem_flagged.1 hm)).1
    · exact absurd hm (Finset.notMem_empty current)

/-- **`deleteUnreferenced` scans the front.** -/
theorem deleteUnreferenced_ok (hview : ViewOk c useSubtrees rows n) (hseeds : seeds.Fits c.graph)
    (haffordable : seeds.Affordable c useSubtrees rows) (base : ℕ) (k : ℕ) {st : Deletion}
    (hst : RunInv c useSubtrees rows seeds (st.work base)) (hk : k ≤ st.front.length) :
    ∃ st' b, deleteUnreferenced c useSubtrees k st = .ok st' ∧
      RefCount.Scan (followed c useSubtrees rows) c.graph.countOf (c.cost useSubtrees rows) k
        (st.work base) (st'.work base) b ∧
      st'.deletionHappened = (st.deletionHappened || b) := by
  induction k generalizing st with
  | zero => exact ⟨st, false, rfl, .done, (Bool.or_false _).symm⟩
  | succ index ih =>
    obtain ⟨current, hcurrent⟩ : ∃ current, st.front[index]? = some current :=
      ⟨_, List.getElem?_eq_getElem (by omega)⟩
    obtain ⟨count, hcount⟩ := Option.isSome_iff_exists.1 (hst.met current (List.mem_of_getElem? hcurrent))
    have hcount' : st.count current = count := by
      have hfind : st.inboundView.find? current = some count := hcount
      rw [Deletion.count, hfind, Option.getD_some]
    rw [deleteUnreferenced, bind_ok (getAt_ok hcurrent), hcount']
    by_cases hpos : count > 0
    · rw [if_pos hpos]
      exact ⟨st, false, rfl, .blocked hcurrent hcount hpos, (Bool.or_false _).symm⟩
    · rw [if_neg hpos]
      by_cases hstale : current ∈ st.deleted
      · rw [if_pos hstale]
        obtain ⟨st', b, hrun, hscan, hflag⟩ := ih hst (by omega)
        exact ⟨st', b, hrun, .stale hcurrent hstale hscan, hflag⟩
      · rw [if_neg hstale]
        have hdies := @RefCount.WorkInv.delete _ _ (followed c useSubtrees rows) c.graph.countOf seeds.need seeds.start
          (c.cost useSubtrees rows) hseeds (st.work base) hst index current count
        -- the total after the deletion is a sum over what dies
        have htotal : base + st.retained + c.cost useSubtrees rows current < 2 ^ 64 := by
          have hmem : ∀ y, y ∈ (followed c useSubtrees rows current \ insert current st.deleted).toList ↔
              y ∈ followed c useSubtrees rows current \ insert current st.deleted := fun y => Finset.mem_toList
          exact total_lt haffordable (hdies hcurrent hcount (by omega) hstale hmem)
        obtain ⟨new, st₁, hrun₁, hnew, hwork, hflag₁⟩ :=
          @deleteCurrent_ok rows n c useSubtrees hview base st current index htotal
        have hst₁ : RunInv c useSubtrees rows seeds (st₁.work base) := by
          rw [hwork]
          exact hdies hcurrent hcount (by omega) hstale hnew
        have hfront : st₁.front = st.front.eraseIdx index ++ new := congrArg RefCount.Work.front hwork
        have hlen : index ≤ st₁.front.length := by
          rw [hfront, List.length_append, List.length_eraseIdx_of_lt (by omega)]
          omega
        obtain ⟨st', b, hrun, hscan, hflag⟩ := ih hst₁ hlen
        rw [bind_ok hrun₁]
        refine ⟨st', true, hrun, ?_, by rw [hflag, hflag₁, Bool.true_or, Bool.or_true]⟩
        rw [hwork] at hscan
        exact .delete hcurrent hcount (by omega) hstale hnew hscan

/-- **The sort.** -/
theorem sortFront_ok (orders : Orders) (root : Root) (base : ℕ) (st : Deletion) :
    (sortFront orders root st).Perm st.front ∧
      ({ st.work base with front := sortFront orders root st } : RefCount.Work ℕ).Sorted := by
  refine ⟨orders.sort_perm _ _ _, ?_⟩
  refine (orders.sort_sorted _ _ _).imp fun {x y} hxy c d hc hd => ?_
  have hc' : st.inboundView.find? x = some c := hc
  have hd' : st.inboundView.find? y = some d := hd
  rwa [Deletion.count, Deletion.count, hc', hd', Option.getD_some, Option.getD_some] at hxy

/-- **The passes end**: each one but the last deletes a node. -/
theorem deletionPasses_ok (orders : Orders) (hview : ViewOk c useSubtrees rows n) (hseeds : seeds.Fits c.graph)
    (haffordable : seeds.Affordable c useSubtrees rows) (root : Root) (hstart : ∀ y, seeds.start y → y < n)
    (rounds : ℕ) {st : Deletion} (hst : RunInv c useSubtrees rows seeds (st.work 0))
    (hrounds : (Finset.range n \ st.deleted).card < rounds) :
    ∃ r, deletionPasses orders c useSubtrees root rounds st = .ok r ∧
      RefCount.Runs (followed c useSubtrees rows) c.graph.countOf (c.cost useSubtrees rows) (st.work 0) r := by
  induction rounds generalizing st with
  | zero => omega
  | succ rounds ih =>
    obtain ⟨hperm, hsorted⟩ := sortFront_ok orders root 0 st
    set front := sortFront orders root st with hfront
    have hpass : ({ st with front := front, retained := 0, deletionHappened := false } : Deletion).work st.retained =
        { st.work 0 with front } := by
      simp only [Deletion.work, Nat.zero_add, Nat.add_zero]
    have hinv : RunInv c useSubtrees rows seeds
        (({ st with front := front, retained := 0, deletionHappened := false } : Deletion).work st.retained) := by
      rw [hpass]
      exact hst.perm hperm
    obtain ⟨st', b, hrun, hscan, hflag⟩ :=
      deleteUnreferenced_ok hview hseeds haffordable st.retained front.length hinv le_rfl
    have hinv' := hinv.scan hseeds hscan
    rw [hpass] at hscan
    rw [deletionPasses]
    simp only [← hfront]
    rw [bind_ok hrun]
    cases b with
    | false =>
      rw [if_pos (by rw [hflag]; exact Bool.false_ne_true)]
      refine ⟨_, rfl, ?_⟩
      have htotal : (st.work 0).total = st.retained := Nat.zero_add _
      rw [← htotal]
      exact .stop hperm hsorted hscan
    | true =>
      have hlt : st.retained + st'.retained < 2 ^ 64 := total_lt haffordable hinv'
      have hwork : ({ st' with retained := st.retained + st'.retained } : Deletion).work 0 = st'.work st.retained := by
        simp only [Deletion.work, Nat.zero_add]
      have hgrow : st.deleted ⊂ st'.deleted := hscan.deleted_subset.2 rfl
      have hwithin : st'.deleted ⊆ Finset.range n := fun x hx =>
        (hinv'.counts.dead x hx).mem_nodes (fun y hy => Finset.mem_range.2 (hstart y hy))
          fun x y hy => Finset.mem_range.2 (hview.graphOf.laid.ok.succ_lt (RefGraph.mem_cut.1 hy).2)
      have hless := RefCount.card_sdiff_lt hgrow hwithin
      obtain ⟨r, hrest, hruns⟩ := @ih { st' with retained := st.retained + st'.retained }
        (by rw [hwork]; exact hinv') (Nat.lt_of_lt_of_le hless (Nat.lt_succ_iff.1 hrounds))
      rw [hwork] at hruns
      rw [if_neg (by rw [hflag]; exact not_not.2 rfl), Nat.mod_eq_of_lt hlt]
      exact ⟨r, hrest, .again hperm hsorted hscan hruns⟩

/-- **`retained`** returns the sum over everything that dies with its starts. -/
theorem retained_spec (orders : Orders) (hview : ViewOk c useSubtrees rows n) (hseeds : seeds.Fits c.graph)
    (haffordable : seeds.Affordable c useSubtrees rows) (root : Root) (hnodes : ∀ y, seeds.start y → y < n)
    {inboundView : OrderedDict ℕ ℤ} {front : List ℕ}
    (hstart : ∀ y c, inboundView.find? y = some c → seeds.start y ∧ c = seeds.need y)
    (hother : ∀ y, inboundView.find? y = none → ¬seeds.start y) (hfront : ∀ y, y ∈ front ↔ y ∈ inboundView.keys)
    {rounds : ℕ} (hrounds : n < rounds) :
    ∃ deleted : Finset ℕ,
      (∀ y, y ∈ deleted ↔ RefCount.Dead (followed c useSubtrees rows) seeds.need seeds.start y) ∧
      c.retained orders rounds root inboundView front useSubtrees = .ok (∑ x ∈ deleted, c.cost useSubtrees rows x) := by
  have hinv : RunInv c useSubtrees rows seeds (Deletion.work 0 ⟨front, inboundView, ∅, 0, false⟩) := by
    refine ⟨RefCount.inv_init hstart hother, fun y hy _ => ?_, fun y hy => ?_, rfl⟩
    · exact (hfront y).2 (OrderedDict.find?_isSome.1 hy)
    · exact OrderedDict.find?_isSome.2 ((hfront y).1 hy)
  obtain ⟨r, hrun, hruns⟩ := @deletionPasses_ok rows n c useSubtrees seeds orders hview hseeds haffordable root hnodes
    rounds ⟨front, inboundView, ∅, 0, false⟩ hinv (by simpa using hrounds)
  obtain ⟨deleted, hdeleted, rfl⟩ := hruns.result hseeds hinv
  exact ⟨deleted, hdeleted, hrun⟩

end Go
end Pydump
