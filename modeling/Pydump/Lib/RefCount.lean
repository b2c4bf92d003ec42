/-
# Deletion by reference counts

Delete an element and everything that is left without a reference: an element
dies once as many dead elements refer to it as `need` says, provided something
led to it (it is a start, or a dead element refers to it).  `Dead` is the least
set with this property.

An algorithm keeps, for the elements it has met, how many references are still
missing, deletes any element whose count is down to zero and takes it off the
counts of what it referred to (`delete`).  `Inv` holds along every sequence of
such deletions, whatever their order, and once no element with a count of zero
is left the deleted elements are exactly the dead ones
(`Inv.mem_deleted_iff`).

The second half is about a work list that does this: it sorts the list by
falling counts, scans it from its end as long as the counts are zero, deletes
what was not deleted yet, puts the referents of a deleted element behind the
list, and starts over until a scan deletes nothing (`Scan`, `Runs`).
-/

import Mathlib.Algebra.BigOperators.Group.Finset.Basic
import Mathlib.Data.Finset.Card
import Mathlib.Data.Finset.Insert

namespace RefCount

variable {α : Type*} [DecidableEq α]

/-- What dies.  `T` are dead elements that refer to `y`. -/
inductive Dead (succ : α → Finset α) (need : α → ℤ) (start : α → Prop) : α → Prop
  | mk {y : α} (T : Finset α) (dead : ∀ x ∈ T, Dead succ need start x) (refer : ∀ x ∈ T, y ∈ succ x)
      (found : start y ∨ T.Nonempty) (enough : need y ≤ T.card) : Dead succ need start y

/-- The counts noted so far and the elements deleted so far. -/
structure State (α : Type*) where
  count : α → Option ℤ
  deleted : Finset α

/-- The deleted elements that refer to `y`. -/
def State.referrers (succ : α → Finset α) (s : State α) (y : α) : Finset α := {x ∈ s.deleted | y ∈ succ x}

/-- Delete `x` and take it off the counts of what it referred to; an element met
for the first time comes in with the count `inbound`. -/
def State.delete (succ : α → Finset α) (inbound : α → ℤ) (s : State α) (x : α) : State α where
  count y := if y ∈ succ x \ insert x s.deleted then some ((s.count y).getD (inbound y) - 1) else s.count y
  deleted := insert x s.deleted

/-- The referrers so far are the deleted elements that refer to `y`. -/
theorem State.mem_referrers {succ : α → Finset α} {s : State α} {x y : α} :
    x ∈ s.referrers succ y ↔ x ∈ s.deleted ∧ y ∈ succ x :=
  Finset.mem_filter

/-- A deletion adds a referrer to what it refers to. -/
theorem State.referrers_delete {succ : α → Finset α} {inbound : α → ℤ} (s : State α) (x y : α) :
    (s.delete succ inbound x).referrers succ y =
      if y ∈ succ x then insert x (s.referrers succ y) else s.referrers succ y :=
  Finset.filter_insert ..

variable {succ : α → Finset α} {inbound need : α → ℤ} {start : α → Prop}

/-- What holds along every sequence of deletions: a count says how many dead
referrers are still missing, an element without a count has not been met, and
only dead elements were deleted. -/
structure Inv (succ : α → Finset α) (need : α → ℤ) (start : α → Prop) (s : State α) : Prop where
  met : ∀ y ∉ s.deleted, ∀ c, s.count y = some c →
    (start y ∨ (s.referrers succ y).Nonempty) ∧ c = need y - (s.referrers succ y).card
  unmet : ∀ y ∉ s.deleted, s.count y = none → ¬start y ∧ s.referrers succ y = ∅
  dead : ∀ x ∈ s.deleted, Dead succ need start x

/-- The invariant holds when only the starts have a count and nothing is deleted. -/
theorem inv_init {count : α → Option ℤ} (hstart : ∀ y c, count y = some c → start y ∧ c = need y)
    (hother : ∀ y, count y = none → ¬start y) : Inv succ need start ⟨count, ∅⟩ where
  met y _ c hc := ⟨.inl (hstart y c hc).1, by simp [State.referrers, (hstart y c hc).2]⟩
  unmet y _ hy := ⟨hother y hy, by simp [State.referrers]⟩
  dead _ hx := absurd hx (Finset.notMem_empty _)

/-- **One deletion keeps the invariant.** -/
theorem Inv.delete (hinbound : ∀ y, ¬start y → need y = inbound y) {s : State α}
    (h : Inv succ need start s) {x : α} {c : ℤ} (hx : x ∉ s.deleted) (hc : s.count x = some c)
    (hzero : c ≤ 0) : Inv succ need start (s.delete succ inbound x) := by
  have hnew : ∀ y, y ∉ insert x s.deleted → y ∈ succ x → y ∈ succ x \ insert x s.deleted :=
    fun y hy hm => Finset.mem_sdiff.2 ⟨hm, hy⟩
  have hout : ∀ y, x ∉ s.referrers succ y := fun y hm => hx (State.mem_referrers.1 hm).1
  refine ⟨fun y hy c' hc' => ?_, fun y hy hy' => ?_, fun z hz => ?_⟩
  · have hy₀ : y ∉ s.deleted := fun hm => hy (Finset.mem_insert_of_mem hm)
    rw [State.referrers_delete]
    simp only [State.delete] at hc'
    by_cases hm : y ∈ succ x
    · -- `x` is one more dead referrer of `y`
      rw [if_pos (hnew y hy hm), Option.some_inj] at hc'
      rw [if_pos hm, Finset.card_insert_of_notMem (hout y)]
      refine ⟨.inr (Finset.insert_nonempty _ _), ?_⟩
      cases hcount : s.count y with
      | none =>
        obtain ⟨hns, hempty⟩ := h.unmet y hy₀ hcount
        rw [hcount, Option.getD_none] at hc'
        rw [hempty, Finset.card_empty, hinbound y hns]
        omega
      | some c₀ =>
        obtain ⟨-, hc₀⟩ := h.met y hy₀ c₀ hcount
        rw [hcount, Option.getD_some] at hc'
        omega
    · rw [if_neg (fun hm' => hm (Finset.mem_sdiff.1 hm').1)] at hc'
      rw [if_neg hm]
      exact h.met y hy₀ c' hc'
  · have hy₀ : y ∉ s.deleted := fun hm => hy (Finset.mem_insert_of_mem hm)
    rw [State.referrers_delete]
    simp only [State.delete] at hy'
    by_cases hm : y ∈ succ x
    · rw [if_pos (hnew y hy hm)] at hy'
      cases hy'
    · rw [if_neg (fun hm' => hm (Finset.mem_sdiff.1 hm').1)] at hy'
      rw [if_neg hm]
      exact h.unmet y hy₀ hy'
  · rcases Finset.mem_insert.1 hz with rfl | hz
    · obtain ⟨hfound, hcount⟩ := h.met z hx c hc
      exact ⟨s.referrers succ z, fun w hw => h.dead w (State.mem_referrers.1 hw).1,
        fun w hw => (State.mem_referrers.1 hw).2, hfound, by omega⟩
    · exact h.dead z hz

/-- **When nothing can be deleted any more**, what was deleted is what dies. -/
theorem Inv.mem_deleted_iff {s : State α} (h : Inv succ need start s)
    (hstuck : ∀ y ∉ s.deleted, ∀ c, s.count y = some c → 0 < c) (y : α) :
    y ∈ s.deleted ↔ Dead succ need start y := by
  refine ⟨h.dead y, fun hdead => ?_⟩
  induction hdead with
  | @mk y T hT hrefer hfound henough ih =>
    by_contra hy
    have hsub : T ⊆ s.referrers succ y := fun x hx => State.mem_referrers.2 ⟨ih x hx, hrefer x hx⟩
    cases hc : s.count y with
    | none =>
      obtain ⟨hns, hempty⟩ := h.unmet y hy hc
      rw [hempty] at hsub
      rcases hfound with hs | ⟨x, hx⟩
      · exact hns hs
      · exact absurd (hsub hx) (Finset.notMem_empty x)
    | some c =>
      have hpos := hstuck y hy c hc
      obtain ⟨-, hceq⟩ := h.met y hy c hc
      have hcard := Finset.card_le_card hsub
      omega

omit [DecidableEq α] in
/-- More references to follow: more dies. -/
theorem Dead.mono {succ' : α → Finset α} (hsucc : ∀ x, succ' x ⊆ succ x) {y : α}
    (h : Dead succ' need start y) : Dead succ need start y := by
  induction h with
  | mk T _ hrefer hfound henough ih =>
    exact ⟨T, ih, fun x hx => hsucc x (hrefer x hx), hfound, henough⟩

/-! ### A work list -/

/-- The work list with the counts, the deleted elements and the sum of what the
deletions add. -/
structure Work (α : Type*) extends State α where
  front : List α
  total : ℕ

/-- Delete `x`, which stands at position `i`, and append `new`. -/
def Work.delete (succ : α → Finset α) (inbound : α → ℤ) (cost : α → ℕ) (w : Work α) (i : ℕ) (x : α) (new : List α) :
    Work α where
  toState := w.toState.delete succ inbound x
  front := w.front.eraseIdx i ++ new
  total := w.total + cost x

/-- Scan the positions below `n` downwards; the flag says whether anything was
deleted. -/
inductive Scan (succ : α → Finset α) (inbound : α → ℤ) (cost : α → ℕ) : ℕ → Work α → Work α → Bool → Prop
  | done {w : Work α} : Scan succ inbound cost 0 w w false
  | blocked {n : ℕ} {w : Work α} {x : α} {c : ℤ} (at_n : w.front[n]? = some x) (count : w.count x = some c)
      (positive : 0 < c) : Scan succ inbound cost (n + 1) w w false
  | stale {n : ℕ} {w w' : Work α} {x : α} {b : Bool} (at_n : w.front[n]? = some x) (stale : x ∈ w.deleted)
      (rest : Scan succ inbound cost n w w' b) : Scan succ inbound cost (n + 1) w w' b
  | delete {n : ℕ} {w w' : Work α} {x : α} {c : ℤ} {b : Bool} {new : List α} (at_n : w.front[n]? = some x)
      (count : w.count x = some c) (zero : c ≤ 0) (fresh : x ∉ w.deleted)
      (mem_new : ∀ y, y ∈ new ↔ y ∈ succ x \ insert x w.deleted)
      (rest : Scan succ inbound cost n (w.delete succ inbound cost n x new) w' b) :
      Scan succ inbound cost (n + 1) w w' true

/-- The list in falling order of the counts. -/
def Work.Sorted (w : Work α) : Prop :=
  w.front.Pairwise fun x y => ∀ c d, w.count x = some c → w.count y = some d → d ≤ c

/-- Sort and scan until a scan deletes nothing. -/
inductive Runs (succ : α → Finset α) (inbound : α → ℤ) (cost : α → ℕ) : Work α → ℕ → Prop
  | stop {w w' : Work α} {front : List α} (perm : front.Perm w.front) (sorted : { w with front }.Sorted)
      (scan : Scan succ inbound cost front.length { w with front } w' false) : Runs succ inbound cost w w.total
  | again {w w' : Work α} {front : List α} {r : ℕ} (perm : front.Perm w.front) (sorted : { w with front }.Sorted)
      (scan : Scan succ inbound cost front.length { w with front } w' true) (rest : Runs succ inbound cost w' r) :
      Runs succ inbound cost w r

/-- What holds of the work list: the invariant of its counts, every element met and
not deleted is in the list, nothing else than elements met is, and the total is
the sum over the deleted elements. -/
structure WorkInv (succ : α → Finset α) (need : α → ℤ) (start : α → Prop) (cost : α → ℕ) (w : Work α) : Prop where
  counts : Inv succ need start w.toState
  waiting : ∀ y, (w.count y).isSome → y ∉ w.deleted → y ∈ w.front
  met : ∀ y ∈ w.front, (w.count y).isSome
  total : w.total = ∑ x ∈ w.deleted, cost x

variable {cost : α → ℕ}

/-- **One deletion keeps what holds of the work list.** -/
theorem WorkInv.delete (hinbound : ∀ y, ¬start y → need y = inbound y) {w : Work α}
    (h : WorkInv succ need start cost w) {i : ℕ} {x : α} {c : ℤ} {new : List α} (hi : w.front[i]? = some x)
    (hc : w.count x = some c) (hzero : c ≤ 0) (hx : x ∉ w.deleted)
    (hnew : ∀ y, y ∈ new ↔ y ∈ succ x \ insert x w.deleted) :
    WorkInv succ need start cost (w.delete succ inbound cost i x new) := by
  have hcount : ∀ y, ((w.delete succ inbound cost i x new).count y).isSome ↔ y ∈ new ∨ (w.count y).isSome := by
    intro y
    simp only [Work.delete, State.delete]
    split_ifs with hy
    · exact ⟨fun _ => .inl ((hnew y).2 hy), fun _ => rfl⟩
    · exact ⟨.inr, fun hm => hm.resolve_left fun hm => hy ((hnew y).1 hm)⟩
  refine ⟨h.counts.delete hinbound hx hc hzero, fun y hy hyd => ?_, fun y hy => ?_, ?_⟩
  · refine List.mem_append.2 ((hcount y).1 hy |>.symm.imp_left fun hy => ?_)
    have hyx : y ≠ x := fun heq => hyd (heq ▸ Finset.mem_insert_self _ _)
    obtain ⟨j, hj⟩ := List.mem_iff_getElem?.1
      (h.waiting y hy fun hm => hyd (Finset.mem_insert_of_mem hm))
    refine List.mem_eraseIdx_iff_getElem?.2 ⟨j, fun hji => hyx ?_, hj⟩
    rw [hji, hi] at hj
    exact (Option.some_inj.1 hj).symm
  · rw [hcount]
    exact (List.mem_append.1 hy).symm.imp_right fun hm => h.met y (List.mem_of_mem_eraseIdx hm)
  · simp only [Work.delete, State.delete]
    rw [Finset.sum_insert hx, h.total, Nat.add_comm]

/-- **A scan keeps what holds of the work list.** -/
theorem WorkInv.scan (hinbound : ∀ y, ¬start y → need y = inbound y) {n : ℕ} {w w' : Work α} {b : Bool}
    (hscan : Scan succ inbound cost n w w' b) (h : WorkInv succ need start cost w) :
    WorkInv succ need start cost w' := by
  induction hscan with
  | done => exact h
  | blocked => exact h
  | stale _ _ _ ih => exact ih h
  | delete hi hc hzero hx hnew _ ih => exact ih (h.delete hinbound hi hc hzero hx hnew)

/-- What a scan that deleted nothing has seen: deleted elements only, down to an
element with a positive count or the beginning of the list. -/
theorem Scan.blocked_of_false {n : ℕ} {w w' : Work α} (h : Scan succ inbound cost n w w' false) :
    w' = w ∧ ∃ k ≤ n, (∀ i x, k ≤ i → i < n → w.front[i]? = some x → x ∈ w.deleted) ∧
      (k = 0 ∨ ∃ x c, w.front[k - 1]? = some x ∧ w.count x = some c ∧ 0 < c) := by
  generalize hb : false = b at h
  induction h with
  | @done w => exact ⟨rfl, 0, le_rfl, fun i _ _ hi => by omega, .inl rfl⟩
  | @blocked n w x c hi hc hpos =>
    exact ⟨rfl, n + 1, le_rfl, fun i _ hk hi => by omega, .inr ⟨x, c, hi, hc, hpos⟩⟩
  | @stale n w w' x b hi hx _ ih =>
    obtain ⟨hw, k, hk, hstale, hend⟩ := ih hb
    refine ⟨hw, k, Nat.le_succ_of_le hk, fun i y hki hin hy => ?_, hend⟩
    rcases Nat.lt_succ_iff_lt_or_eq.1 hin with hin | rfl
    · exact hstale i y hki hin hy
    · rw [hi] at hy
      exact Option.some_inj.1 hy ▸ hx
  | delete => cases hb

/-- **After a scan of a sorted list that deleted nothing**, no element that was met
and not deleted has a count of zero. -/
theorem WorkInv.stuck {w w' : Work α} (h : WorkInv succ need start cost w) (hsorted : w.Sorted)
    (hscan : Scan succ inbound cost w.front.length w w' false) :
    ∀ y ∉ w.deleted, ∀ c, w.count y = some c → 0 < c := by
  intro y hy c hc
  obtain ⟨-, k, hk, hstale, hend⟩ := hscan.blocked_of_false
  obtain ⟨j, hj⟩ := List.mem_iff_getElem?.1 (h.waiting y (by rw [hc]; rfl) hy)
  have hjlt : j < w.front.length := (List.getElem?_eq_some_iff.1 hj).1
  have hjk : j < k := Nat.lt_of_not_le fun hkj => hy (hstale j y hkj hjlt hj)
  obtain ⟨x, d, hx, hd, hpos⟩ := hend.resolve_left (by omega)
  rcases Nat.lt_or_ge j (k - 1) with hlt | hge
  · obtain ⟨hk', hx'⟩ := List.getElem?_eq_some_iff.1 hx
    obtain ⟨_, hj'⟩ := List.getElem?_eq_some_iff.1 hj
    have hle := List.pairwise_iff_getElem.1 hsorted j (k - 1) hjlt hk' hlt c d (by rw [hj', hc]) (by rw [hx', hd])
    omega
  · have hjk' : j = k - 1 := by omega
    rw [hjk', hx, Option.some_inj] at hj
    rw [← hj, hd, Option.some_inj] at hc
    omega

/-- The order of the front does not matter. -/
theorem WorkInv.perm {w : Work α} (h : WorkInv succ need start cost w) {front : List α}
    (hperm : front.Perm w.front) : WorkInv succ need start cost { w with front } where
  counts := h.counts
  waiting y hy hyd := hperm.mem_iff.2 (h.waiting y hy hyd)
  met y hy := h.met y (hperm.mem_iff.1 hy)
  total := h.total

/-- **The result of a run** is the sum over everything that dies. -/
theorem Runs.result (hinbound : ∀ y, ¬start y → need y = inbound y) {w : Work α} {r : ℕ}
    (hruns : Runs succ inbound cost w r) (h : WorkInv succ need start cost w) :
    ∃ deleted : Finset α, (∀ y, y ∈ deleted ↔ Dead succ need start y) ∧ r = ∑ x ∈ deleted, cost x := by
  induction hruns with
  | @stop w w' front hperm hsorted hscan =>
    have hw := h.perm hperm
    exact ⟨w.deleted, hw.counts.mem_deleted_iff (hw.stuck hsorted hscan), h.total⟩
  | again hperm _ hscan _ ih => exact ih ((h.perm hperm).scan hinbound hscan)

/-- A scan that deletes something deletes more than was deleted before. -/
theorem Scan.deleted_subset {n : ℕ} {w w' : Work α} {b : Bool} (h : Scan succ inbound cost n w w' b) :
    w.deleted ⊆ w'.deleted ∧ (b = true → w.deleted ⊂ w'.deleted) := by
  induction h with
  | done => exact ⟨subset_rfl, fun hb => by cases hb⟩
  | blocked => exact ⟨subset_rfl, fun hb => by cases hb⟩
  | stale _ _ _ ih => exact ih
  | @delete n w w' x c b new hi hc hzero hx hnew _ ih =>
    have hss : w.deleted ⊂ w'.deleted :=
      lt_of_lt_of_le (Finset.ssubset_insert hx) ih.1
    exact ⟨hss.subset, fun _ => hss⟩

/-- A scan that deletes something leaves less to delete. -/
theorem card_sdiff_lt {nodes deleted deleted' : Finset α} (hgrow : deleted ⊂ deleted') (hwithin : deleted' ⊆ nodes) :
    (nodes \ deleted').card < (nodes \ deleted).card := by
  refine Finset.card_lt_card (Finset.ssubset_iff_subset_ne.2
    ⟨Finset.sdiff_subset_sdiff le_rfl hgrow.subset, fun heq => ?_⟩)
  obtain ⟨x, hx, hx'⟩ := Finset.exists_of_ssubset hgrow
  have hmem : x ∈ nodes \ deleted := Finset.mem_sdiff.2 ⟨hwithin hx, hx'⟩
  exact (Finset.mem_sdiff.1 (heq ▸ hmem)).2 hx

omit [DecidableEq α] in
/-- How many referrers it takes does not matter where nothing is referred to. -/
theorem Dead.congr_need {need' : α → ℤ} (hneed : ∀ x, (succ x).Nonempty → need x = need' x) {y : α}
    (h : Dead succ need start y) (hy : need y = need' y) : Dead succ need' start y := by
  induction h with
  | @mk y T _ hrefer hfound henough ih =>
    exact ⟨T, fun x hx => ih x hx (hneed x ⟨y, hrefer x hx⟩), hrefer, hfound, hy ▸ henough⟩

omit [DecidableEq α] in
/-- **The sum over what dies** depends on the needs of those elements only that
refer to something or cost something. -/
theorem sum_congr_need {need' : α → ℤ}
    (hneed : ∀ x, (succ x).Nonempty ∨ cost x ≠ 0 → need x = need' x) {deleted deleted' : Finset α}
    (hdeleted : ∀ y, y ∈ deleted ↔ Dead succ need start y)
    (hdeleted' : ∀ y, y ∈ deleted' ↔ Dead succ need' start y) :
    ∑ x ∈ deleted, cost x = ∑ x ∈ deleted', cost x := by
  classical
  rw [← Finset.sum_filter_ne_zero deleted, ← Finset.sum_filter_ne_zero deleted']
  refine Finset.sum_congr ?_ fun _ _ => rfl
  ext y
  rw [Finset.mem_filter, Finset.mem_filter, hdeleted, hdeleted']
  refine and_congr_left fun hy => ⟨fun h => ?_, fun h => ?_⟩
  · exact h.congr_need (fun x hx => hneed x (.inl hx)) (hneed y (.inr hy))
  · exact h.congr_need (fun x hx => (hneed x (.inl hx)).symm) (hneed y (.inr hy)).symm

omit [DecidableEq α] in
/-- What can be deleted from the given starts on. -/
theorem Dead.mem_nodes {nodes : Finset α} (hstart : ∀ y, start y → y ∈ nodes)
    (hsucc : ∀ x, succ x ⊆ nodes) {y : α} (h : Dead succ need start y) : y ∈ nodes := by
  cases h with
  | mk T _ hrefer hfound _ =>
    rcases hfound with hs | ⟨x, hx⟩
    · exact hstart y hs
    · exact hsucc x (hrefer x hx)

omit [DecidableEq α] in
/-- What can be deleted is finite. -/
theorem exists_deadSet {nodes : Finset α} (hstart : ∀ y, start y → y ∈ nodes) (hsucc : ∀ x, succ x ⊆ nodes) :
    ∃ deleted : Finset α, ∀ y, y ∈ deleted ↔ Dead succ need start y := by
  classical
  refine ⟨{y ∈ nodes | Dead succ need start y}, fun y => ?_⟩
  rw [Finset.mem_filter]
  exact and_iff_right_of_imp fun hy => hy.mem_nodes hstart hsucc

end RefCount
