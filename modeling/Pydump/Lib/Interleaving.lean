/-
# Tasks that take turns

Any number of tasks share a state.  A step lets one of them act, which changes the
shared state and replaces the task by what it becomes, together with the tasks it
starts; or a new task enters.  What the outside answers to an act (whether memory
is found, a call succeeds) is an argument of `act`, so that a run over all answers
is a run over all behaviours of the outside.

Three invariants of such runs:
* a flag that is set exactly while a task owns it (`Owns`), which keeps owners
  apart;
* a property of every task and the shared state, which every task keeps for itself
  and for the others (`Keeps`);
* tasks that others refer to and that never go away (`Backed`).
-/

import Mathlib.Data.List.Count
import Mathlib.Data.List.Nodup
import Mathlib.Logic.Relation

namespace Pydump
namespace Interleaving

variable {σ τ ε : Type}

/-- What a task does when it acts, and which tasks may enter. -/
structure Program (σ τ ε : Type) where
  act : ε → σ → τ → σ × List τ
  enters : τ → Prop

/-- The shared state and the tasks. -/
structure Config (σ τ : Type) where
  shared : σ
  tasks : List τ

/-- One step, in which only `allowed` acts are taken. -/
inductive Step (P : Program σ τ ε) (allowed : ε → σ → τ → Prop) : Config σ τ → Config σ τ → Prop
  | enter (s : σ) (ts : List τ) (t : τ) (enters : P.enters t) : Step P allowed ⟨s, ts⟩ ⟨s, t :: ts⟩
  | act (e : ε) (s : σ) (as : List τ) (t : τ) (bs : List τ) (permitted : allowed e s t) :
      Step P allowed ⟨s, as ++ t :: bs⟩ ⟨(P.act e s t).1, as ++ ((P.act e s t).2 ++ bs)⟩

/-- Every act is allowed. -/
def Any (_ : ε) (_ : σ) (_ : τ) : Prop := True

instance (e : ε) (s : σ) (t : τ) : Decidable (Any e s t) := isTrue trivial

/-- Any number of steps. -/
def Run (P : Program σ τ ε) (allowed : ε → σ → τ → Prop) : Config σ τ → Config σ τ → Prop :=
  Relation.ReflTransGen (Step P allowed)

variable {P : Program σ τ ε} {allowed : ε → σ → τ → Prop} {c c' : Config σ τ}

/-- A restricted step is a step. -/
theorem Step.any (h : Step P allowed c c') : Step P Any c c' := by
  cases h with
  | enter s ts t enters => exact .enter s ts t enters
  | act e s as t bs _ => exact .act e s as t bs trivial

/-- A restricted run is a run. -/
theorem Run.any (h : Run P allowed c c') : Run P Any c c' :=
  Relation.ReflTransGen.mono (fun _ _ => Step.any) _ _ h

/-- **An invariant of every step holds after every run.** -/
theorem Run.invariant {I : Config σ τ → Prop} (h : Run P allowed c c') (start : I c)
    (step : ∀ a b, Step P allowed a b → I a → I b) : I c' := by
  induction h with
  | refl => exact start
  | tail _ hstep ih => exact step _ _ hstep ih

/-- The task at position `i` acts, where there is one and it may. -/
def actAt (P : Program σ τ ε) (allowed : ε → σ → τ → Prop) [∀ e s t, Decidable (allowed e s t)] (c : Config σ τ)
    (move : ε × ℕ) : Config σ τ :=
  match c.tasks.drop move.2 with
  | [] => c
  | t :: bs =>
    if allowed move.1 c.shared t then
      ⟨(P.act move.1 c.shared t).1, c.tasks.take move.2 ++ ((P.act move.1 c.shared t).2 ++ bs)⟩
    else c

/-- **A run that is played** by saying who acts. -/
theorem run_play [∀ e s t, Decidable (allowed e s t)] (moves : List (ε × ℕ)) (c : Config σ τ) :
    Run P allowed c (moves.foldl (actAt P allowed) c) := by
  induction moves generalizing c with
  | nil => exact Relation.ReflTransGen.refl
  | cons move moves ih =>
    refine Relation.ReflTransGen.trans ?_ (ih _)
    rw [actAt]
    split
    · exact Relation.ReflTransGen.refl
    · rename_i t bs hdrop
      split_ifs with hallowed
      · have hstep := @Step.act _ _ _ P allowed move.1 c.shared (c.tasks.take move.2) t bs hallowed
        rw [← hdrop, List.take_append_drop] at hstep
        exact Relation.ReflTransGen.single hstep
      · exact Relation.ReflTransGen.refl

/-! ### A flag and its owner -/

/-- The flag changes hands with the tasks that own it. -/
structure Owns (P : Program σ τ ε) (flag : σ → Bool) (owner : τ → Bool) : Prop where
  enter : ∀ t, P.enters t → owner t = false
  act : ∀ e s t, (owner t = true → flag s = true) →
    (flag (P.act e s t).1).toNat + (owner t).toNat = (flag s).toNat + (P.act e s t).2.countP owner

/-- The flag is set, and one task owns it, or it is clear, and none does. -/
def Held (flag : σ → Bool) (owner : τ → Bool) (c : Config σ τ) : Prop := c.tasks.countP owner = (flag c.shared).toNat

/-- Each task is apart from all others. -/
def Separated (apart : τ → τ → Prop) (c : Config σ τ) : Prop :=
  ∀ as t bs, c.tasks = as ++ t :: bs → ∀ u ∈ as ++ bs, apart t u

variable {flag : σ → Bool} {owner : τ → Bool}

/-- The owners among a task and the others. -/
theorem countP_around (owner : τ → Bool) (as : List τ) (t : τ) (bs : List τ) :
    (as ++ t :: bs).countP owner = (owner t).toNat + (as ++ bs).countP owner := by
  rw [List.countP_append, List.countP_cons, List.countP_append]
  cases owner t with
  | false => simp
  | true =>
    simp only [if_true, Bool.toNat_true]
    omega

/-- The flag is set while an owner is there. -/
theorem Held.flag_of_mem (h : Held flag owner c) {t : τ} (ht : t ∈ c.tasks) (howner : owner t = true) :
    flag c.shared = true := by
  have hpos := List.countP_pos_iff.2 ⟨t, ht, howner⟩
  rw [h] at hpos
  cases hflag : flag c.shared with
  | true => rfl
  | false =>
    rw [hflag] at hpos
    cases hpos

/-- **There is one owner at most.** -/
theorem Held.separated (h : Held flag owner c) : Separated (fun t u => owner t = true → owner u = false) c := by
  intro as t bs htasks u hu howner
  have hcount : (as ++ t :: bs).countP owner ≤ 1 := by
    rw [← htasks, h]
    cases flag c.shared <;> decide
  rw [countP_around, howner] at hcount
  by_contra hother
  have hpos := List.countP_pos_iff.2 ⟨u, hu, eq_true_of_ne_false hother⟩
  rw [Bool.toNat_true] at hcount
  omega

/-- **Without an owner the flag is clear.** -/
theorem Held.clear (h : Held flag owner c) (hnone : ∀ t ∈ c.tasks, owner t = false) : flag c.shared = false := by
  have hzero : c.tasks.countP owner = 0 := List.countP_eq_zero.2 fun t ht => by rw [hnone t ht]; decide
  rw [h] at hzero
  cases hflag : flag c.shared with
  | false => rfl
  | true =>
    rw [hflag] at hzero
    cases hzero

/-- A step keeps the flag with its owner. -/
theorem Owns.step (owns : Owns P flag owner) (h : Step P allowed c c') (held : Held flag owner c) :
    Held flag owner c' := by
  cases h with
  | enter s ts t enters =>
    show (t :: ts).countP owner = (flag s).toNat
    rw [List.countP_cons_of_neg (by rw [owns.enter t enters]; decide)]
    exact held
  | act e s as t bs _ =>
    have hact := owns.act e s t fun howner => held.flag_of_mem (List.mem_append_right as List.mem_cons_self) howner
    have hbefore : (owner t).toNat + (as ++ bs).countP owner = (flag s).toNat := by
      rw [← countP_around]
      exact held
    show (as ++ ((P.act e s t).2 ++ bs)).countP owner = (flag (P.act e s t).1).toNat
    rw [List.countP_append, List.countP_append]
    rw [List.countP_append] at hbefore
    omega

/-- **The flag is owned after every run.** -/
theorem Owns.run (owns : Owns P flag owner) (h : Run P allowed c c') (held : Held flag owner c) :
    Held flag owner c' := h.invariant held fun _ _ hstep hheld => owns.step hstep hheld

/-! ### A property of every task -/

/-- Every task keeps the property for what it becomes, and for the tasks it is
apart from. -/
structure Keeps (P : Program σ τ ε) (allowed : ε → σ → τ → Prop) (apart : τ → τ → Prop) (J : σ → τ → Prop) :
    Prop where
  enter : ∀ s t, P.enters t → J s t
  own : ∀ e s t, allowed e s t → J s t → ∀ t' ∈ (P.act e s t).2, J (P.act e s t).1 t'
  other : ∀ e s t u, allowed e s t → J s t → J s u → apart t u → J (P.act e s t).1 u

variable {apart : τ → τ → Prop} {J : σ → τ → Prop}

/-- A step keeps what holds of every task. -/
theorem Keeps.step (keeps : Keeps P allowed apart J) (h : Step P allowed c c') (separated : Separated apart c)
    (all : ∀ t ∈ c.tasks, J c.shared t) : ∀ t ∈ c'.tasks, J c'.shared t := by
  cases h with
  | enter s ts t enters =>
    intro u hu
    rcases List.mem_cons.1 hu with rfl | hu
    · exact keeps.enter s u enters
    · exact all u hu
  | act e s as t bs permitted =>
    have ht : J s t := all t (List.mem_append_right as List.mem_cons_self)
    have hothers : ∀ u ∈ as ++ bs, J (P.act e s t).1 u := by
      intro u hu
      refine keeps.other e s t u permitted ht (all u ?_) (separated as t bs rfl u hu)
      rcases List.mem_append.1 hu with hu | hu
      · exact List.mem_append_left _ hu
      · exact List.mem_append_right _ (List.mem_cons_of_mem t hu)
    intro u hu
    rcases List.mem_append.1 hu with hu | hu
    · exact hothers u (List.mem_append_left _ hu)
    · rcases List.mem_append.1 hu with hu | hu
      · exact keeps.own e s t permitted ht u hu
      · exact hothers u (List.mem_append_right _ hu)

/-- **The property holds of every task after every run** through separated
states. -/
theorem Keeps.run (keeps : Keeps P allowed apart J) (h : Run P allowed c c')
    (separated : ∀ d, Run P allowed c d → Separated apart d) (all : ∀ t ∈ c.tasks, J c.shared t) :
    ∀ t ∈ c'.tasks, J c'.shared t := by
  induction h with
  | refl => exact all
  | tail hrun hstep ih => exact keeps.step hstep (separated _ hrun) ih

/-- **A property of the shared state** that every act keeps, given what holds of the
task that acts. -/
theorem Keeps.run_shared (keeps : Keeps P allowed apart J) (h : Run P allowed c c')
    (separated : ∀ d, Run P allowed c d → Separated apart d) (all : ∀ t ∈ c.tasks, J c.shared t) {K : σ → Prop}
    (act : ∀ e s t, allowed e s t → J s t → K s → K (P.act e s t).1) (start : K c.shared) : K c'.shared := by
  induction h with
  | refl => exact start
  | tail hrun hstep ih =>
    have hall := keeps.run hrun separated all
    cases hstep with
    | enter s ts t enters => exact ih
    | act e s as t bs permitted =>
      exact act e s t permitted (hall t (List.mem_append_right as List.mem_cons_self)) ih

/-- **A property of the shared state and one of every task**, each of which an act keeps
where both hold. -/
theorem Run.shared_and_tasks {K : σ → Prop} {J : τ → Prop} (h : Run P allowed c c') (enter : ∀ t, P.enters t → J t)
    (act : ∀ e s t, allowed e s t → K s → J t → K (P.act e s t).1 ∧ ∀ t' ∈ (P.act e s t).2, J t')
    (shared : K c.shared) (tasks : ∀ t ∈ c.tasks, J t) : K c'.shared ∧ ∀ t ∈ c'.tasks, J t := by
  refine @Run.invariant _ _ _ P allowed c c' (fun d => K d.shared ∧ ∀ t ∈ d.tasks, J t) h ⟨shared, tasks⟩ ?_
  rintro _ _ (⟨s, ts, t, henters⟩ | ⟨e, s, as, t, bs, hallowed⟩) ⟨hshared, htasks⟩
  · refine ⟨hshared, fun u hu => ?_⟩
    rcases List.mem_cons.1 hu with rfl | hu
    · exact enter u henters
    · exact htasks u hu
  · obtain ⟨hshared', hnew⟩ := act e s t hallowed hshared (htasks t (List.mem_append_right as List.mem_cons_self))
    refine ⟨hshared', fun u hu => ?_⟩
    rcases List.mem_append.1 hu with hu | hu
    · exact htasks u (List.mem_append_left _ hu)
    · rcases List.mem_append.1 hu with hu | hu
      · exact hnew u hu
      · exact htasks u (List.mem_append_right as (List.mem_cons_of_mem t hu))

/-! ### Tasks with keys -/

/-- Tasks with different keys are separated. -/
theorem separated_of_nodup {κ : Type} {key : τ → κ} (h : (c.tasks.map key).Nodup) :
    Separated (fun t u => key t ≠ key u) c := by
  intro as t bs htasks u hu hkey
  rw [htasks, List.map_append, List.map_cons, List.nodup_middle] at h
  refine (List.nodup_cons.1 h).1 ?_
  rw [hkey, ← List.map_append]
  exact List.mem_map_of_mem hu

/-- **Keys stay**, where nobody enters and nothing is started. -/
theorem Run.map_eq {κ : Type} {key : τ → κ} (h : Run P allowed c c') (enters : ∀ t, ¬P.enters t)
    (act : ∀ e s t, (P.act e s t).2.map key = [key t]) : c'.tasks.map key = c.tasks.map key := by
  refine @Run.invariant _ _ _ P allowed c c' (fun d => d.tasks.map key = c.tasks.map key) h rfl ?_
  rintro _ _ (⟨s, ts, t, henters⟩ | ⟨e, s, as, t, bs, -⟩) hkeys
  · exact absurd henters (enters t)
  · show (as ++ ((P.act e s t).2 ++ bs)).map key = _
    rw [List.map_append, List.map_append, act, ← hkeys, List.map_append, List.map_cons]
    rfl

/-! ### Tasks that stay -/

/-- What a task needs is there already or comes with it, and stays. -/
structure Backed (P : Program σ τ ε) (needs : τ → τ → Prop) : Prop where
  enter : ∀ t w, P.enters t → ¬needs t w
  own : ∀ e s t, ∀ t' ∈ (P.act e s t).2, ∀ w, needs t' w → w ∈ (P.act e s t).2 ∨ needs t w
  stays : ∀ e s t w, needs t w → w ∈ (P.act e s w).2

variable {needs : τ → τ → Prop}

/-- A step keeps every task backed. -/
theorem Backed.step (backed : Backed P needs) (h : Step P allowed c c')
    (all : ∀ t ∈ c.tasks, ∀ w, needs t w → w ∈ c.tasks) : ∀ t ∈ c'.tasks, ∀ w, needs t w → w ∈ c'.tasks := by
  cases h with
  | enter s ts t enters =>
    intro u hu w hw
    rcases List.mem_cons.1 hu with rfl | hu
    · exact absurd hw (backed.enter u w enters)
    · exact List.mem_cons_of_mem t (all u hu w hw)
  | act e s as t bs _ =>
    -- what was there and is needed is still there
    have hstays : ∀ v w, needs v w → w ∈ as ++ t :: bs → w ∈ as ++ ((P.act e s t).2 ++ bs) := by
      intro v w hneeds hw
      rcases List.mem_append.1 hw with hw | hw
      · exact List.mem_append_left _ hw
      · refine List.mem_append_right _ ?_
        rcases List.mem_cons.1 hw with rfl | hw
        · exact List.mem_append_left _ (backed.stays e s v w hneeds)
        · exact List.mem_append_right _ hw
    have hold : ∀ u ∈ as ++ t :: bs, ∀ w, needs u w → w ∈ as ++ ((P.act e s t).2 ++ bs) :=
      fun u hu w hw => hstays u w hw (all u hu w hw)
    intro u hu w hw
    rcases List.mem_append.1 hu with hu | hu
    · exact hold u (List.mem_append_left _ hu) w hw
    · rcases List.mem_append.1 hu with hu | hu
      · rcases backed.own e s t u hu w hw with hnew | hneeds
        · exact List.mem_append_right _ (List.mem_append_left _ hnew)
        · exact hold t (List.mem_append_right as List.mem_cons_self) w hneeds
      · exact hold u (List.mem_append_right as (List.mem_cons_of_mem t hu)) w hw

/-- **What is needed is there after every run.** -/
theorem Backed.run (backed : Backed P needs) (h : Run P allowed c c')
    (all : ∀ t ∈ c.tasks, ∀ w, needs t w → w ∈ c.tasks) : ∀ t ∈ c'.tasks, ∀ w, needs t w → w ∈ c'.tasks :=
  @Run.invariant _ _ _ P allowed c c' (fun d => ∀ t ∈ d.tasks, ∀ w, needs t w → w ∈ d.tasks) h all
    fun _ _ hstep hall => backed.step hstep hall

end Interleaving
end Pydump
