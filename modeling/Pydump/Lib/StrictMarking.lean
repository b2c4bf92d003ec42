/-
# Marking the strict subtrees

A procedure marks the strict objects of a reference graph bottom up.  It starts
from the strict objects without referents and keeps a front of objects above
marked ones; visiting an object of the front drops it (several references lead to
it), keeps it (a referent is not marked yet) or marks it and passes on to its
referrer (`Visit`).  One pass visits the whole front in some order.

A pass either keeps the whole front, and then every strict object is marked, or
some object climbs (`Pass`); how far the front can still climb bounds the number
of passes.  Nothing depends on the order of the visits.
-/

import Pydump.Lib.RefGraph

namespace RefGraph

variable {α : Type*} [DecidableEq α] {g : RefGraph α} {size : α → ℕ}

/-- The marked objects, the sums noted so far, and the front. -/
structure Marking (α : Type*) where
  marked : Finset α
  sum : α → Option ℕ
  front : Finset α

namespace Marking

/-- Mark `x`, whose referents are marked, and pass on to what refers to it. -/
noncomputable def mark (g : RefGraph α) (size : α → ℕ) (m : Marking α) (x : α) : Marking α where
  marked := insert x m.marked
  sum y := if x = y then some (size x + ∑ y ∈ g.succ x, ∑ z ∈ g.below y, size z) else m.sum y
  front := m.front ∪ g.inbound x

/-- Visit one object of the front. -/
inductive Visit (g : RefGraph α) (size : α → ℕ) (m : Marking α) (x : α) : Marking α → Prop
  | drop (many : 1 < (g.inbound x).card) : Visit g size m x m
  | keep (waits : g.succ x \ m.marked ≠ ∅) : Visit g size m x { m with front := insert x m.front }
  | mark (few : (g.inbound x).card ≤ 1) (closed : g.succ x ⊆ m.marked) : Visit g size m x (m.mark g size x)

/-- What holds throughout: the marked objects are strict and closed, their sums are
those of what is below them, and the front holds objects. -/
structure Ok (g : RefGraph α) (size : α → ℕ) (m : Marking α) : Prop where
  marks : g.Marks m.marked
  sums : ∀ x ∈ m.marked, m.sum x = some (∑ z ∈ g.below x, size z)
  unmarked : ∀ x ∉ m.marked, m.sum x = none
  front : m.front ⊆ g.objects

/-- A mark keeps what holds throughout. -/
theorem Ok.mark {m : Marking α} (h : Ok g size m) {x : α} (hx : x ∈ g.objects)
    (hfew : (g.inbound x).card ≤ 1) (hclosed : g.succ x ⊆ m.marked) : Ok g size (m.mark g size x) := by
  have hstrict : g.Strict x := ⟨hx, hfew, fun y hy => h.marks.strict y (hclosed hy)⟩
  refine ⟨⟨fun y hy => ?_, fun y hy => ?_⟩, fun y hy => ?_, fun y hy => ?_, ?_⟩
  · rcases Finset.mem_insert.1 hy with rfl | hy
    · exact hstrict
    · exact h.marks.strict y hy
  · rcases Finset.mem_insert.1 hy with rfl | hy
    · exact hclosed.trans (Finset.subset_insert _ _)
    · exact (h.marks.closed y hy).trans (Finset.subset_insert _ _)
  · simp only [Marking.mark]
    split_ifs with hxy
    · rw [← hxy, hstrict.sum_below]
    · exact h.sums y ((Finset.mem_insert.1 hy).resolve_left (Ne.symm hxy))
  · simp only [Marking.mark, Finset.mem_insert, not_or] at hy ⊢
    rw [if_neg (Ne.symm hy.1), h.unmarked y hy.2]
  · exact Finset.union_subset h.front fun y hy => (Finset.mem_filter.1 hy).1

/-- A visit keeps what holds throughout. -/
theorem Ok.visit {m m' : Marking α} (h : Ok g size m) {x : α} (hx : x ∈ g.objects)
    (hvisit : Visit g size m x m') : Ok g size m' := by
  cases hvisit with
  | drop => exact h
  | keep => exact ⟨h.marks, h.sums, h.unmarked, Finset.insert_subset hx h.front⟩
  | mark hfew hclosed => exact h.mark hx hfew hclosed

/-- The strict objects without referents are marked. -/
def LeavesMarked (g : RefGraph α) (marked among : Finset α) : Prop :=
  ∀ x ∈ among, g.Strict x → g.succ x = ∅ → x ∈ marked

/-- A strict object above a marked one is marked or satisfies `waiting`. -/
def Frontier (g : RefGraph α) (marked : Finset α) (waiting : α → Prop) : Prop :=
  ∀ x y, g.Strict x → y ∈ marked → y ∈ g.succ x → x ∉ marked → waiting x

/-- Marking `x` keeps the frontier when what refers to `x` waits. -/
theorem Frontier.mark {marked : Finset α} {waiting waiting' : α → Prop} (h : Frontier g marked waiting) {x : α}
    (hkeep : ∀ z, z ≠ x → waiting z → waiting' z) (hnew : ∀ z ∈ g.inbound x, waiting' z) :
    Frontier g (insert x marked) waiting' := by
  intro z y hz hy hzy hzr
  rw [Finset.mem_insert, not_or] at hzr
  rcases Finset.mem_insert.1 hy with rfl | hy
  · exact hnew z (mem_inbound.2 hzy)
  · exact hkeep z hzr.1 (h z y hz hy hzy hzr.2)

/-- What holds between two passes. -/
structure Between (g : RefGraph α) (size : α → ℕ) (m : Marking α) : Prop where
  ok : Ok g size m
  leaves : LeavesMarked g m.marked g.objects
  frontier : Frontier g m.marked (· ∈ m.front)

/-! ### The first loop -/

/-- What holds of the first loop after the objects `seen`: those of them that are
strict and have no referents are marked, and what refers to them is in the
front. -/
structure Started (g : RefGraph α) (size : α → ℕ) (seen : Finset α) (m : Marking α) : Prop where
  ok : Ok g size m
  leaves : LeavesMarked g m.marked seen
  frontier : Frontier g m.marked (· ∈ m.front)

/-- What holds before the first loop. -/
theorem Started.init : Started g size ∅ ⟨∅, fun _ => none, ∅⟩ where
  ok := ⟨⟨by simp, by simp⟩, by simp, fun _ _ => rfl, Finset.empty_subset _⟩
  leaves := by simp [LeavesMarked]
  frontier := by simp [Frontier]

/-- An object without referents and with at most one reference is marked. -/
theorem Started.mark {seen : Finset α} {m : Marking α} (h : Started g size seen m) {x : α} (hx : x ∈ g.objects)
    (hfew : (g.inbound x).card < 2) (hleaf : g.succ x = ∅) :
    Started g size (insert x seen) (m.mark g size x) where
  ok := h.ok.mark hx (Nat.le_of_lt_succ hfew) (hleaf ▸ Finset.empty_subset _)
  leaves y hy hstrict hempty := by
    rcases Finset.mem_insert.1 hy with rfl | hy
    · exact Finset.mem_insert_self _ _
    · exact Finset.mem_insert_of_mem (h.leaves y hy hstrict hempty)
  frontier := h.frontier.mark (fun _ _ hz => Finset.mem_union_left _ hz) fun _ hz => Finset.mem_union_right _ hz

/-- Any other object is passed over. -/
theorem Started.skip {seen : Finset α} {m : Marking α} (h : Started g size seen m) {x : α}
    (hno : ¬(g.succ x = ∅ ∧ (g.inbound x).card < 2)) : Started g size (insert x seen) m where
  ok := h.ok
  leaves y hy hstrict hempty := by
    rcases Finset.mem_insert.1 hy with rfl | hy
    · exact absurd ⟨hempty, Nat.lt_succ_of_le hstrict.single⟩ hno
    · exact h.leaves y hy hstrict hempty
  frontier := h.frontier

/-- The end of the first loop is the beginning of the passes. -/
theorem Started.between {m : Marking α} (h : Started g size g.objects m) : Between g size m :=
  ⟨h.ok, h.leaves, h.frontier⟩

/-! ### One pass -/

/-- How far the front can climb. -/
noncomputable def climbSum (g : RefGraph α) (front : Finset α) : ℕ := ∑ x ∈ front, g.climb x

/-- The sum of the climbs with one element more. -/
theorem climbSum_insert {seen : Finset α} {x : α} (hx : x ∉ seen) :
    climbSum g (insert x seen) = g.climb x + climbSum g seen :=
  Finset.sum_insert hx

/-- The sum of the climbs grows by at most one climb. -/
theorem climbSum_insert_le (seen : Finset α) (x : α) :
    climbSum g (insert x seen) ≤ g.climb x + climbSum g seen := by
  by_cases hx : x ∈ seen
  · rw [Finset.insert_eq_of_mem hx]
    exact Nat.le_add_left _ _
  · rw [climbSum_insert hx]

/-- An object with several referrers can climb one more step: it is dropped. -/
theorem climb_pos_of_many {x : α} (h : 1 < (g.inbound x).card) : 0 < g.climb x := by
  rw [climb, if_neg fun hs => absurd hs.single (by omega), if_pos h]
  exact Nat.one_pos

/-- Passing from a strict object to its referrer lowers the measure. -/
theorem climbSum_union_inbound {front : Finset α} {x : α} (hstrict : g.Strict x) :
    climbSum g (front ∪ g.inbound x) < g.climb x + climbSum g front := by
  rcases Nat.lt_or_ge (g.inbound x).card 1 with hcard | hcard
  · rw [Finset.card_eq_zero.1 (Nat.lt_one_iff.1 hcard), Finset.union_empty]
    have : 0 < g.climb x := by
      rw [climb, if_pos hstrict]
      omega
    omega
  · obtain ⟨p, hp⟩ := Finset.card_eq_one.1 (le_antisymm hstrict.single hcard)
    have hrefers : x ∈ g.succ p := mem_inbound.1 (hp ▸ Finset.mem_singleton_self p)
    have hclimb := hstrict.climb_lt hrefers
    have hinsert := @climbSum_insert_le α _ g front p
    rw [hp, Finset.union_comm, ← Finset.insert_eq]
    omega

/-- What visiting the objects `seen` led to: either all of them were kept, or the
front moved upwards. -/
def Pass (g : RefGraph α) (marked₀ seen : Finset α) (m : Marking α) : Prop :=
  (m.front = seen ∧ m.marked = marked₀ ∧ ∀ x ∈ seen, g.succ x \ marked₀ ≠ ∅) ∨
    climbSum g m.front < climbSum g seen

/-- No pass climbs further than what it visits. -/
theorem Pass.le {marked₀ seen : Finset α} {m : Marking α} (h : Pass g marked₀ seen m) :
    climbSum g m.front ≤ climbSum g seen := by
  rcases h with ⟨h, -⟩ | h
  · rw [h]
  · exact h.le

/-- What holds within a pass that started with `m₀` and has visited `seen`. -/
structure Within (g : RefGraph α) (size : α → ℕ) (m₀ : Marking α) (seen : Finset α) (m : Marking α) : Prop where
  ok : Ok g size m
  leaves : LeavesMarked g m.marked g.objects
  frontier : Frontier g m.marked fun x => x ∈ m.front ∨ x ∈ m₀.front ∧ x ∉ seen
  pass : Pass g m₀.marked seen m

/-- The beginning of a pass, with an empty front. -/
theorem Between.within {m : Marking α} (h : Between g size m) : Within g size m ∅ { m with front := ∅ } where
  ok := ⟨h.ok.marks, h.ok.sums, h.ok.unmarked, Finset.empty_subset _⟩
  leaves := h.leaves
  frontier x y hx hy hxy hxr := .inr ⟨h.frontier x y hx hy hxy hxr, Finset.notMem_empty x⟩
  pass := .inl ⟨rfl, rfl, by simp⟩

/-- **One more visit.** -/
theorem Within.visit {m₀ m m' : Marking α} {seen : Finset α} (h : Within g size m₀ seen m) {x : α}
    (hx : x ∈ g.objects) (hseen : x ∉ seen) (hvisit : Visit g size m x m') :
    Within g size m₀ (insert x seen) m' := by
  have hsum := @climbSum_insert _ _ g _ _ hseen
  have hle := h.pass.le
  have hlast : ∀ z, z ≠ x → z ∉ seen → z ∉ insert x seen := fun z hzx hz hm =>
    (Finset.mem_insert.1 hm).elim hzx hz
  refine ⟨h.ok.visit hx hvisit, ?_, ?_, ?_⟩
  · cases hvisit with
    | drop => exact h.leaves
    | keep => exact h.leaves
    | mark => exact fun z hz hs hleaf => Finset.mem_insert_of_mem (h.leaves z hz hs hleaf)
  · cases hvisit with
    | drop hmany =>
      -- `x` is not strict, so the frontier does not wait for it
      intro z y hz hy hzy hzr
      have hzx : z ≠ x := fun hzx => absurd (hzx ▸ hz).single (by omega)
      exact (h.frontier z y hz hy hzy hzr).imp_right fun hw => ⟨hw.1, hlast z hzx hw.2⟩
    | keep =>
      intro z y hz hy hzy hzr
      by_cases hzx : z = x
      · exact .inl (Finset.mem_insert.2 (.inl hzx))
      · exact (h.frontier z y hz hy hzy hzr).imp (fun hw => Finset.mem_insert_of_mem hw)
          fun hw => ⟨hw.1, hlast z hzx hw.2⟩
    | mark =>
      refine h.frontier.mark (fun z hzx hz => ?_) fun z hz => .inl (Finset.mem_union_right _ hz)
      exact hz.imp (fun hw => Finset.mem_union_left _ hw) fun hw => ⟨hw.1, hlast z hzx hw.2⟩
  · cases hvisit with
    | drop hmany =>
      have hclimb := climb_pos_of_many hmany
      exact .inr (by omega)
    | keep hwaits =>
      rcases h.pass with ⟨hfront, hmarked, hkept⟩ | hless
      · refine .inl ⟨by rw [hfront], hmarked, fun z hz => ?_⟩
        rcases Finset.mem_insert.1 hz with rfl | hz
        · exact hmarked ▸ hwaits
        · exact hkept z hz
      · exact .inr (lt_of_le_of_lt (climbSum_insert_le m.front x) (by omega))
    | mark hfew hclosed =>
      have hstrict : g.Strict x := ⟨hx, hfew, fun y hy => h.ok.marks.strict y (hclosed hy)⟩
      have hless := @climbSum_union_inbound _ _ g m.front x hstrict
      exact .inr (lt_of_lt_of_le hless (by omega))

/-- **A whole pass** leads from between two passes to between two passes. -/
theorem Within.between {m₀ m : Marking α} (h : Within g size m₀ m₀.front m) : Between g size m where
  ok := h.ok
  leaves := h.leaves
  frontier x y hx hy hxy hxr := (h.frontier x y hx hy hxy hxr).resolve_right fun hw => hw.2 hw.1

/-! ### The end -/

/-- What the procedure leaves behind: exactly the strict objects are marked, with
the sums of what is below them. -/
structure Found (g : RefGraph α) (size : α → ℕ) (m : Marking α) : Prop where
  ok : Ok g size m
  complete : ∀ x, g.Strict x → x ∈ m.marked

/-- **When a pass leaves the front as it was**, every strict object is marked. -/
theorem Within.found {m₀ m : Marking α} (h : Within g size m₀ m₀.front m) (hfront : m.front = m₀.front) :
    Found g size m := by
  rcases h.pass with ⟨-, hmarked, hkept⟩ | hless
  · refine ⟨h.ok, fun x hx => ?_⟩
    induction hx with
    | @mk x hobject hsingle hbelow ih =>
      have hstrict : g.Strict x := ⟨hobject, hsingle, hbelow⟩
      by_contra hxr
      rcases Finset.eq_empty_or_nonempty (g.succ x) with hempty | ⟨y, hy⟩
      · exact hxr (h.leaves x hobject hstrict hempty)
      · have hmem := h.between.frontier x y hstrict (ih y hy) hy hxr
        rw [hfront] at hmem
        refine hkept x hmem (Finset.sdiff_eq_empty_iff_subset.2 fun z hz => hmarked ▸ ih z hz)
  · rw [hfront] at hless
    exact absurd hless (lt_irrefl _)

/-- A pass that changes the front lets it climb. -/
theorem Within.climbs {m₀ m : Marking α} (h : Within g size m₀ m₀.front m) (hfront : m.front ≠ m₀.front) :
    climbSum g m.front < climbSum g m₀.front :=
  h.pass.resolve_left fun hkept => hfront hkept.1

/-- The number of passes is bounded by the number of objects. -/
theorem climbSum_le {front : Finset α} (h : front ⊆ g.objects) :
    climbSum g front ≤ g.objects.card * (g.objects.card + 2) :=
  (Finset.sum_le_card_nsmul front _ _ fun x _ => climb_le x).trans
    (Nat.mul_le_mul_right (g.objects.card + 2) (Finset.card_le_card h))

end Marking

end RefGraph
