/-
# Programs that clean up behind themselves

A program runs on a state and returns a value or fails; the state that it has made stays in
either case.  `deferred` runs a clean-up when a program is over, however it ends, and lets it
change the outcome: its own error is combined with what there is (`closing`), or counts where
there is no other (`keepFirst`).

`Ensures P m Q E` says that `m`, started where `P` holds, returns where `Q` does or fails
where `E` does.  The rules go along the ways programs are put together; what a clean-up
undoes on every way out is the rule `Ensures.deferred`.
-/

import Mathlib.Logic.Basic

namespace Deferred

/-- A program over the states `σ` that fails with an `ε`. -/
abbrev Program (σ ε α : Type) : Type := ExceptT ε (StateM σ) α

variable {σ ε α β : Type}

/-! ### Running -/

/-- The outcome and the state behind it. -/
def outcome (m : Program σ ε α) (s : σ) : Except ε α × σ := m s

/-- `pure` returns its value and leaves the state. -/
@[simp] theorem outcome_pure (a : α) (s : σ) : outcome (pure a : Program σ ε α) s = (.ok a, s) := rfl

/-- `throw` ends with its error and leaves the state. -/
@[simp] theorem outcome_throw (e : ε) (s : σ) : outcome (throw e : Program σ ε α) s = (.error e, s) := rfl

/-- `get` returns the state. -/
@[simp] theorem outcome_get (s : σ) : outcome (get : Program σ ε σ) s = (.ok s, s) := rfl

/-- `modify` changes the state. -/
@[simp] theorem outcome_modify (f : σ → σ) (s : σ) : outcome (modify f : Program σ ε PUnit) s = (.ok (), f s) := rfl

/-- A sequence goes on with the state of its first part, or ends with its error. -/
theorem outcome_bind (m : Program σ ε α) (f : α → Program σ ε β) (s : σ) : outcome (m >>= f) s =
    match outcome m s with
    | (.ok a, s') => outcome (f a) s'
    | (.error e, s') => (.error e, s') := by
  show (match (m s : Except ε α × σ) with | (r, s') => (ExceptT.bindCont f r s' : Except ε β × σ)) = _
  cases h : (m s : Except ε α × σ) with
  | mk r s' =>
    have houtcome : outcome m s = (r, s') := h
    rw [houtcome]
    cases r <;> rfl

/-! ### Clean-ups -/

/-- Run `after` on the outcome of the program, however it ends. -/
def deferred (after : Except ε α → Program σ ε α) (m : Program σ ε α) : Program σ ε α :=
  fun s => after (outcome m s).1 (outcome m s).2

/-- What a program failed with, if it did. -/
def failure? : Except ε α → Option ε
  | .ok _ => none
  | .error e => some e

/-- Run a clean-up behind the program; an error of its own is combined with what there is. -/
def closing (combine : Option ε → ε → ε) (cleanup : Program σ ε Unit) : Program σ ε α → Program σ ε α :=
  deferred fun result s =>
    match outcome cleanup s with
    | (.ok _, s') => (result, s')
    | (.error e, s') => (.error (combine (failure? result) e), s')

/-- The error of the clean-up counts where the program has none. -/
def keepFirst (cleanup : Program σ ε Unit) : Program σ ε α → Program σ ε α :=
  closing (fun earlier e => earlier.getD e) cleanup

/-- Say where an error comes from. -/
def wrapping (wrap : ε → ε) (m : Program σ ε α) : Program σ ε α :=
  fun s => ((outcome m s).1.mapError wrap, (outcome m s).2)

/-! ### What a program ensures -/

/-- From `P` the program returns with `Q` or fails with `E`. -/
structure Ensures (P : σ → Prop) (m : Program σ ε α) (Q : α → σ → Prop) (E : ε → σ → Prop) : Prop where
  returns : ∀ s a s', P s → outcome m s = (.ok a, s') → Q a s'
  fails : ∀ s e s', P s → outcome m s = (.error e, s') → E e s'

namespace Ensures

variable {P P' : σ → Prop} {m : Program σ ε α} {Q Q' : α → σ → Prop} {E E' : ε → σ → Prop} {f : α → Program σ ε β}
  {R : β → σ → Prop}

/-- A stronger precondition and weaker postconditions. -/
theorem mono (h : Ensures P m Q E) (hP : ∀ s, P' s → P s) (hQ : ∀ a s, Q a s → Q' a s) (hE : ∀ e s, E e s → E' e s) :
    Ensures P' m Q' E' where
  returns s a s' hs hrun := hQ a s' (h.returns s a s' (hP s hs) hrun)
  fails s e s' hs hrun := hE e s' (h.fails s e s' (hP s hs) hrun)

/-- `pure`: the postcondition holds of its value. -/
protected theorem pure {a : α} (h : ∀ s, P s → Q a s) : Ensures P (pure a : Program σ ε α) Q E where
  returns s _ s' hs hrun := by
    cases hrun
    exact h s hs
  fails s _ s' _ hrun := by cases hrun

/-- `throw`: the condition of errors holds of its error. -/
protected theorem throw {e : ε} (h : ∀ s, P s → E e s) : Ensures P (throw e : Program σ ε α) Q E where
  returns s _ s' _ hrun := by cases hrun
  fails s _ s' hs hrun := by
    cases hrun
    exact h s hs

/-- `modify`: the postcondition holds of the changed state. -/
protected theorem modify {g : σ → σ} {Q : PUnit → σ → Prop} (h : ∀ s, P s → Q () (g s)) :
    Ensures P (modify g : Program σ ε PUnit) Q E where
  returns s _ s' hs hrun := by
    cases hrun
    exact h s hs
  fails s _ s' _ hrun := by cases hrun

/-- **One program behind another.** -/
protected theorem bind (h : Ensures P m Q E) (hf : ∀ a, Ensures (Q a) (f a) R E) : Ensures P (m >>= f) R E where
  returns s b s' hs hrun := by
    rw [outcome_bind] at hrun
    cases hm : outcome m s with
    | mk r s₁ =>
      rw [hm] at hrun
      cases r with
      | error e => cases hrun
      | ok a => exact (hf a).returns s₁ b s' (h.returns s a s₁ hs hm) hrun
  fails s e s' hs hrun := by
    rw [outcome_bind] at hrun
    cases hm : outcome m s with
    | mk r s₁ =>
      rw [hm] at hrun
      cases r with
      | error e' =>
        cases hrun
        exact h.fails s _ _ hs hm
      | ok a => exact (hf a).fails s₁ e s' (h.returns s a s₁ hs hm) hrun

/-- The program goes on with the state it has. -/
theorem get_bind {f : σ → Program σ ε β} (h : ∀ s, P s → Ensures (· = s) (f s) R E) :
    Ensures P ((get : Program σ ε σ) >>= f) R E where
  returns s b s' hs hrun := (h s hs).returns s b s' rfl hrun
  fails s e s' hs hrun := (h s hs).fails s e s' rfl hrun

/-- Both branches of a condition. -/
protected theorem ite {c : Prop} [Decidable c] {m' : Program σ ε α} (h : c → Ensures P m Q E)
    (h' : ¬c → Ensures P m' Q E) :
    Ensures P (if c then m else m') Q E := by
  by_cases hc : c
  · rw [if_pos hc]
    exact h hc
  · rw [if_neg hc]
    exact h' hc

/-- An error is wrapped, and the state stays. -/
theorem wrapping {wrap : ε → ε} (h : Ensures P m Q fun e s => E (wrap e) s) :
    Ensures P (Deferred.wrapping wrap m) Q E where
  returns s a s' hs hrun := by
    cases hm : outcome m s with
    | mk r s₁ =>
      simp only [outcome, Deferred.wrapping] at hrun hm
      rw [hm] at hrun
      cases r with
      | error e => cases hrun
      | ok a' =>
        cases hrun
        exact h.returns s _ _ hs hm
  fails s e s' hs hrun := by
    cases hm : outcome m s with
    | mk r s₁ =>
      simp only [outcome, Deferred.wrapping] at hrun hm
      rw [hm] at hrun
      cases r with
      | error e' =>
        cases hrun
        exact h.fails s _ _ hs hm
      | ok a => cases hrun

/-- An error that is only said to come from somewhere. -/
theorem wrapping_const {wrap : ε → ε} {F : σ → Prop} (h : Ensures P m Q fun _ => F) :
    Ensures P (Deferred.wrapping wrap m) Q fun _ => F :=
  Ensures.wrapping h

/-- … and what every value that is returned is known for. -/
theorem knowing {p : α → Prop} (h : Ensures P m Q E) (hp : ∀ s a s', outcome m s = (.ok a, s') → p a) :
    Ensures P m (fun a s => Q a s ∧ p a) E where
  returns s a s' hs hrun := ⟨h.returns s a s' hs hrun, hp s a s' hrun⟩
  fails := h.fails

/-- A fact that does not speak about the state. -/
theorem assuming {c : Prop} (h : c → Ensures P m Q E) : Ensures (fun s => P s ∧ c) m Q E where
  returns s a s' hs hrun := (h hs.2).returns s a s' hs.1 hrun
  fails s e s' hs hrun := (h hs.2).fails s e s' hs.1 hrun

/-- What holds under a condition, where it is only known under this condition from the start. -/
theorem given {c : Prop} (h : c → Ensures P m Q E) :
    Ensures (fun s => c → P s) m (fun a s => c → Q a s) fun e s => c → E e s where
  returns s a s' hs hrun hc := (h hc).returns s a s' (hs hc) hrun
  fails s e s' hs hrun hc := (h hc).fails s e s' (hs hc) hrun

/-- **A clean-up sees every way out.** -/
theorem deferred {after : Except ε α → Program σ ε α} {A : α → σ → Prop} {B : ε → σ → Prop} (h : Ensures P m A B)
    (hok : ∀ a, Ensures (A a) (after (.ok a)) Q E) (herror : ∀ e, Ensures (B e) (after (.error e)) Q E) :
    Ensures P (Deferred.deferred after m) Q E where
  returns s a s' hs hrun := by
    cases hm : outcome m s with
    | mk r s₁ =>
      have hafter : outcome (after r) s₁ = (.ok a, s') := by
        simp only [outcome, Deferred.deferred] at hrun hm ⊢
        rwa [hm] at hrun
      cases r with
      | ok a' => exact (hok a').returns s₁ a s' (h.returns s a' s₁ hs hm) hafter
      | error e => exact (herror e).returns s₁ a s' (h.fails s e s₁ hs hm) hafter
  fails s e s' hs hrun := by
    cases hm : outcome m s with
    | mk r s₁ =>
      have hafter : outcome (after r) s₁ = (.error e, s') := by
        simp only [outcome, Deferred.deferred] at hrun hm ⊢
        rwa [hm] at hrun
      cases r with
      | ok a' => exact (hok a').fails s₁ e s' (h.returns s a' s₁ hs hm) hafter
      | error e' => exact (herror e').fails s₁ e s' (h.fails s e' s₁ hs hm) hafter

/-- **A clean-up that is run however the program ends.** -/
theorem closing {cleanup : Program σ ε Unit} {combine : Option ε → ε → ε} {A : α → σ → Prop} {B : ε → σ → Prop}
    (h : Ensures P m A B) (hok : ∀ a, Ensures (A a) cleanup (fun _ => Q a) fun e s => E (combine none e) s)
    (herror : ∀ e, Ensures (B e) cleanup (fun _ => E e) fun e' s => E (combine (some e) e') s) :
    Ensures P (Deferred.closing combine cleanup m) Q E := by
  refine h.deferred (fun a => ⟨fun s a' s' hs hrun => ?_, fun s e s' hs hrun => ?_⟩)
    fun e => ⟨fun s a' s' hs hrun => ?_, fun s e' s' hs hrun => ?_⟩
  all_goals
    simp only [outcome] at hrun
    rcases hcleanup : outcome cleanup s with
      ⟨r | r, s₁⟩ <;> simp only [outcome] at hcleanup <;> rw [hcleanup] at hrun <;>
      cases hrun
  · exact (hok a).returns s r _ hs hcleanup
  · exact (hok a).fails s r _ hs hcleanup
  · exact (herror e).fails s r _ hs hcleanup
  · exact (herror _).returns s r _ hs hcleanup

/-- The clean-up fails as the program does, or on its own. -/
theorem keepFirst {cleanup : Program σ ε Unit} {A : α → σ → Prop} {B : ε → σ → Prop} (h : Ensures P m A B)
    (hok : ∀ a, Ensures (A a) cleanup (fun _ => Q a) E)
    (herror : ∀ e, Ensures (B e) cleanup (fun _ => E e) fun _ => E e) :
    Ensures P (Deferred.keepFirst cleanup m) Q E :=
  h.closing hok herror

/-- What the precondition chooses. -/
theorem choosing {ι : Sort*} {P : ι → σ → Prop} (h : ∀ i, Ensures (P i) m Q E) :
    Ensures (fun s => ∃ i, P i s) m Q E where
  returns s a s' hs hrun := hs.elim fun i hi => (h i).returns s a s' hi hrun
  fails s e s' hs hrun := hs.elim fun i hi => (h i).fails s e s' hi hrun

end Ensures

/-! ### What a program returns with -/

/-- From `P` the program returns with `Q`, or fails. -/
abbrev Yields (P : σ → Prop) (m : Program σ ε α) (Q : α → σ → Prop) : Prop := Ensures P m Q fun _ _ => True

namespace Yields

variable {P : σ → Prop} {m : Program σ ε α} {Q A : α → σ → Prop}

/-- From the runs that return to the triple. -/
theorem of_returns (h : ∀ s a s', P s → outcome m s = (.ok a, s') → Q a s') : Yields P m Q :=
  ⟨h, fun _ _ _ _ _ => trivial⟩

/-- A program that fails returns nothing. -/
protected theorem throw {e : ε} : Yields P (throw e : Program σ ε α) Q := Ensures.throw fun _ _ => trivial

/-- **Behind a clean-up** there is what the program returned with, where the clean-up went well. -/
theorem closing {cleanup : Program σ ε Unit} {combine : Option ε → ε → ε} (h : Yields P m A)
    (hok : ∀ a, Yields (A a) cleanup fun _ => Q a) : Yields P (Deferred.closing combine cleanup m) Q :=
  Ensures.closing h hok fun _ => of_returns fun _ _ _ _ _ => trivial

end Yields

end Deferred
