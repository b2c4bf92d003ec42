/-
# Searching with a worklist

A `Frontier` is what a search has seen and what of it is still pending.  In every
turn the search takes some pending elements, learns what each of them leads to and
adds what it has not seen.  `Explores` is such a search up to its end, where the
turns hold what was learnt: nodes with the element each of them is about.

`Tracks` is the invariant: the elements taken so far and the pending ones are those
seen, each once.  From it follow that a search inside a finite set ends
(`search_induction`), that no element is taken twice, and that those taken are exactly
those that can be reached.
-/

import Mathlib.Data.Finset.Card
import Mathlib.Data.List.Perm.Basic
import Mathlib.Logic.Relation

open Relation (ReflTransGen)

/-- What a search has seen, and what of it is pending. -/
structure Frontier (α : Type*) where
  seen : Finset α
  pending : List α

namespace Frontier

variable {α β : Type*} [DecidableEq α]

/-- Nothing is seen yet. -/
def empty : Frontier α := ⟨∅, []⟩

/-- An element that is not seen yet becomes pending. -/
def visit (f : Frontier α) (a : α) : Frontier α :=
  if a ∈ f.seen then f else ⟨insert a f.seen, f.pending ++ [a]⟩

/-- Visit one after another. -/
def visitAll (f : Frontier α) (xs : List α) : Frontier α := xs.foldl visit f

/-- A visit of nothing. -/
@[simp] theorem visitAll_nil (f : Frontier α) : f.visitAll [] = f := rfl

/-- A visit goes one by one. -/
@[simp] theorem visitAll_cons (f : Frontier α) (a : α) (xs : List α) :
    f.visitAll (a :: xs) = (f.visit a).visitAll xs := rfl

/-- A visit may be cut in two. -/
theorem visitAll_append (f : Frontier α) (xs ys : List α) :
    f.visitAll (xs ++ ys) = (f.visitAll xs).visitAll ys := List.foldl_append

/-- A visit adds its element to those seen. -/
theorem mem_seen_visit {f : Frontier α} {a b : α} : b ∈ (f.visit a).seen ↔ b ∈ f.seen ∨ b = a := by
  unfold visit
  split_ifs with h
  · constructor
    · exact Or.inl
    · rintro (hb | rfl)
      · exact hb
      · exact h
  · rw [Finset.mem_insert, or_comm]

/-- A visit adds its elements to those seen. -/
theorem mem_seen_visitAll {f : Frontier α} {xs : List α} {b : α} :
    b ∈ (f.visitAll xs).seen ↔ b ∈ f.seen ∨ b ∈ xs := by
  induction xs generalizing f with
  | nil => simp
  | cons a xs ih => rw [visitAll_cons, ih, mem_seen_visit, List.mem_cons, or_assoc]

/-- The elements of `taken` and the pending ones are those seen, each once. -/
structure Tracks (f : Frontier α) (taken : List α) : Prop where
  nodup : (taken ++ f.pending).Nodup
  mem_seen : ∀ a, a ∈ f.seen ↔ a ∈ taken ++ f.pending

omit [DecidableEq α] in
/-- Nothing is seen before the first visit. -/
theorem tracks_empty : (empty : Frontier α).Tracks [] := ⟨List.nodup_nil, fun _ => by simp [empty]⟩

/-- A visit keeps track of what is taken. -/
theorem Tracks.visit {f : Frontier α} {taken : List α} (h : f.Tracks taken) (a : α) : (f.visit a).Tracks taken := by
  unfold Frontier.visit
  split_ifs with ha
  · exact h
  · have hnew : a ∉ taken ++ f.pending := fun hmem => ha ((h.mem_seen a).2 hmem)
    constructor
    · show (taken ++ (f.pending ++ [a])).Nodup
      rw [← List.append_assoc]
      exact List.nodup_append.2 ⟨h.nodup, List.nodup_singleton a, fun b hb c hc hbc =>
        hnew (by rwa [← List.mem_singleton.1 hc, ← hbc])⟩
    · intro b
      show b ∈ insert a f.seen ↔ b ∈ taken ++ (f.pending ++ [a])
      rw [Finset.mem_insert, h.mem_seen, ← List.append_assoc, @List.mem_append _ b (taken ++ f.pending),
        List.mem_singleton, or_comm]

/-- Visits keep track of what is taken. -/
theorem Tracks.visitAll {f : Frontier α} {taken : List α} (h : f.Tracks taken) (xs : List α) :
    (f.visitAll xs).Tracks taken := by
  induction xs generalizing f with
  | nil => exact h
  | cons a xs ih => exact ih (h.visit a)

omit [DecidableEq α] in
/-- Taking pending elements moves them over. -/
theorem Tracks.take {f : Frontier α} {taken batch rest : List α} (h : f.Tracks taken)
    (hsplit : (batch ++ rest).Perm f.pending) : Tracks ⟨f.seen, rest⟩ (taken ++ batch) := by
  have hperm : ((taken ++ batch) ++ rest).Perm (taken ++ f.pending) := by
    rw [List.append_assoc]
    exact hsplit.append_left taken
  exact ⟨hperm.nodup_iff.2 h.nodup, fun a => (h.mem_seen a).trans hperm.mem_iff.symm⟩

/-- **Progress is bounded** by a set that holds what is seen. -/
theorem Tracks.length_le {f : Frontier α} {taken : List α} (h : f.Tracks taken) {bound : Finset α}
    (hbound : ∀ a ∈ f.seen, a ∈ bound) : taken.length + f.pending.length ≤ bound.card := by
  rw [← List.length_append, ← List.toFinset_card_of_nodup h.nodup]
  refine Finset.card_le_card fun a ha => hbound a ((h.mem_seen a).2 (List.mem_toFinset.1 ha))

/-! ### Whole searches -/

/-- What some turns make of `f`. -/
def afterTurns (next : β → List α) (rest : List α → List α) (f : Frontier α) (turns : List (List β)) : Frontier α :=
  turns.foldl (fun f nodes => visitAll ⟨f.seen, rest f.pending⟩ (nodes.flatMap next)) f

/-- A search from `f` to its end.  A turn takes `batch` of the pending elements and
leaves `rest` of them; `key` is the element that a node is about and `next` what the
node leads to. -/
inductive Explores (key : β → α) (next : β → List α) (batch rest : List α → List α) :
    Frontier α → List (List β) → Prop
  | done {f} (pending : f.pending = []) : Explores key next batch rest f []
  | turn {f nodes turns} (pending : f.pending ≠ []) (keys : nodes.map key = batch f.pending)
      (later : Explores key next batch rest (visitAll ⟨f.seen, rest f.pending⟩ (nodes.flatMap next)) turns) :
      Explores key next batch rest f (nodes :: turns)

section

variable {key : β → α} {next : β → List α} {batch rest : List α → List α}
  (hsplit : ∀ xs, (batch xs ++ rest xs).Perm xs) {f : Frontier α} {taken : List α} {turns : List (List β)}

include hsplit

/-- **A search inside a finite set ends**, as every turn takes something.  What holds where
nothing is pending, and before a turn where it holds after it, holds everywhere. -/
theorem search_induction {bound : Finset α} (hbatch : ∀ xs, xs ≠ [] → batch xs ≠ []) {P : Frontier α → Prop}
    (done : ∀ f, f.pending = [] → P f)
    (turn : ∀ f, f.pending ≠ [] → (∀ a ∈ f.pending, a ∈ bound) →
      (∀ found, (∀ a ∈ found, a ∈ bound) → P (visitAll ⟨f.seen, rest f.pending⟩ found)) → P f)
    (htracks : f.Tracks taken) (hseen : ∀ a ∈ f.seen, a ∈ bound) : P f := by
  induction hleft : bound.card - taken.length using Nat.strong_induction_on generalizing f taken with
  | h left ih =>
    by_cases hpending : f.pending = []
    · exact done f hpending
    · have hin : ∀ a ∈ f.pending, a ∈ bound := fun a ha =>
        hseen a ((htracks.mem_seen a).2 (List.mem_append_right taken ha))
      refine turn f hpending hin fun found hfound => ?_
      have hlen := htracks.length_le hseen
      have htaken : 0 < (batch f.pending).length := List.length_pos_iff.2 (hbatch f.pending hpending)
      have hsizes := (hsplit f.pending).length_eq
      rw [List.length_append] at hsizes
      refine ih _ ?_ ((htracks.take (hsplit f.pending)).visitAll found) (fun a ha => ?_) rfl
      · rw [List.length_append]
        omega
      · rcases mem_seen_visitAll.1 ha with ha | ha
        · exact hseen a ha
        · exact hfound a ha

/-- **At the end** the elements taken are those seen, each once, and whatever a node
leads to is among them. -/
theorem Explores.result (h : Explores key next batch rest f turns) (htracks : f.Tracks taken) :
    (taken ++ turns.flatten.map key).Nodup ∧ (∀ a ∈ f.seen, a ∈ taken ++ turns.flatten.map key) ∧
      ∀ node ∈ turns.flatten, ∀ a ∈ next node, a ∈ taken ++ turns.flatten.map key := by
  induction h generalizing taken with
  | @done f pending =>
    rw [List.flatten_nil, List.map_nil, List.append_nil]
    have hnodup := htracks.nodup
    have hseen := htracks.mem_seen
    rw [pending, List.append_nil] at hnodup
    rw [pending] at hseen
    simp only [List.append_nil] at hseen
    exact ⟨hnodup, fun a ha => (hseen a).1 ha, fun node hnode => absurd hnode List.not_mem_nil⟩
  | @turn f nodes turns _ keys _ ih =>
    obtain ⟨hnodup, hseen, hnext⟩ := ih ((htracks.take (hsplit f.pending)).visitAll (nodes.flatMap next))
    rw [← keys, List.append_assoc, ← List.map_append, ← List.flatten_cons] at hnodup hseen hnext
    refine ⟨hnodup, fun a ha => hseen a (mem_seen_visitAll.2 (.inl ha)), fun node hnode a ha => ?_⟩
    rw [List.flatten_cons, List.mem_append] at hnode
    rcases hnode with hnode | hnode
    · exact hseen a (mem_seen_visitAll.2 (.inr (List.mem_flatMap.2 ⟨node, hnode, ha⟩)))
    · exact hnext node hnode a ha

/-- **What holds of every element taken**: a property that the pending elements have
and that nodes pass on. -/
theorem Explores.forall_taken (h : Explores key next batch rest f turns) {P : α → Prop}
    (hpending : ∀ a ∈ f.pending, P a) (hnext : ∀ node ∈ turns.flatten, P (key node) → ∀ a ∈ next node, P a) :
    ∀ node ∈ turns.flatten, P (key node) := by
  induction h with
  | done _ => exact fun node hnode => absurd hnode List.not_mem_nil
  | @turn f nodes turns _ keys _ ih =>
    have hmem : ∀ a, a ∈ batch f.pending ++ rest f.pending ↔ a ∈ f.pending := fun a => (hsplit f.pending).mem_iff
    have hnodes : ∀ node ∈ nodes, P (key node) := by
      intro node hnode
      refine hpending _ ((hmem _).1 (List.mem_append_left _ ?_))
      rw [← keys]
      exact List.mem_map_of_mem hnode
    have hvisited : ∀ (xs : List α) (g : Frontier α), (∀ a ∈ g.pending, P a) → (∀ a ∈ xs, P a) →
        ∀ a ∈ (g.visitAll xs).pending, P a := by
      intro xs
      induction xs with
      | nil => exact fun g hg _ => hg
      | cons b xs ihxs =>
        intro g hg hxs
        refine ihxs (g.visit b) ?_ fun a ha => hxs a (List.mem_cons_of_mem b ha)
        unfold visit
        split_ifs
        · exact hg
        · intro a ha
          rcases List.mem_append.1 ha with ha | ha
          · exact hg a ha
          · rw [List.mem_singleton.1 ha]
            exact hxs b List.mem_cons_self
    rw [List.flatten_cons] at hnext ⊢
    have hlater := ih (hvisited _ _ (fun a ha => hpending a ((hmem a).1 (List.mem_append_right _ ha))) fun a ha => by
      obtain ⟨node, hnode, ha⟩ := List.mem_flatMap.1 ha
      exact hnext node (List.mem_append_left _ hnode) (hnodes node hnode) a ha)
      fun node hnode => hnext node (List.mem_append_right _ hnode)
    intro node hnode
    rcases List.mem_append.1 hnode with hnode | hnode
    · exact hnodes node hnode
    · exact hlater node hnode

/-- **A search takes exactly what can be reached**, each element once. -/
theorem Explores.mem_iff_reachable {roots : List α} (h : Explores key next batch rest (empty.visitAll roots) turns)
    {succ : α → α → Prop} (hnext : ∀ node ∈ turns.flatten, ∀ a, a ∈ next node ↔ succ (key node) a) :
    (turns.flatten.map key).Nodup ∧
      ∀ a, a ∈ turns.flatten.map key ↔ ∃ root ∈ roots, ReflTransGen succ root a := by
  have htracks : (empty.visitAll roots).Tracks [] := tracks_empty.visitAll roots
  obtain ⟨hnodup, hseen, hclosed⟩ := h.result hsplit htracks
  simp only [List.nil_append] at hnodup hseen hclosed
  refine ⟨hnodup, fun a => ⟨fun ha => ?_, ?_⟩⟩
  · obtain ⟨node, hnode, rfl⟩ := List.mem_map.1 ha
    let Reachable : α → Prop := fun a => ∃ root ∈ roots, ReflTransGen succ root a
    refine @Explores.forall_taken _ _ _ _ _ _ _ hsplit _ _ h Reachable (fun b hb => ?_)
      (fun node hnode hreach b hb => ?_) node hnode
    · have hroot := (htracks.mem_seen b).2 (List.mem_append_right _ hb)
      rcases mem_seen_visitAll.1 hroot with hempty | hroot
      · exact absurd hempty (Finset.notMem_empty b)
      · exact ⟨b, hroot, .refl⟩
    · obtain ⟨root, hroot, hpath⟩ := hreach
      exact ⟨root, hroot, hpath.tail ((hnext node hnode b).1 hb)⟩
  · rintro ⟨root, hroot, hpath⟩
    induction hpath with
    | refl => exact hseen root (mem_seen_visitAll.2 (.inr hroot))
    | tail _ hstep ih =>
      obtain ⟨node, hnode, rfl⟩ := List.mem_map.1 ih
      exact hclosed node hnode _ ((hnext node hnode _).2 hstep)

end

end Frontier
