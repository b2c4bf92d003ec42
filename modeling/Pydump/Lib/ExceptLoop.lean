/-
# Loops that may raise

`List.foldlM` in `Except ε` is a `for` loop over a list that changes a state and
may leave with an error.  `foldlM_ok` is its invariant rule: when every round
succeeds and takes the invariant from the elements seen so far to one more, the
loop succeeds and the invariant holds of all of them.  `run_bind_ok` and its kin
run a sequence of `StateT σ (Except ε)`, where an error loses the state.
-/

import Mathlib.Data.List.Forall2

namespace ExceptLoop

variable {ε α β σ : Type}

/-- A sequence whose first part succeeds. -/
theorem bind_ok {x : Except ε α} {f : α → Except ε β} {a : α} (h : x = .ok a) : (x >>= f) = f a := by
  rw [h]
  rfl

/-- A sequence whose first part fails. -/
theorem bind_error {x : Except ε α} {f : α → Except ε β} {e : ε} (h : x = .error e) :
    (x >>= f) = .error e := by
  rw [h]
  rfl

/-- **Inversion of a sequence that succeeds.** -/
theorem bind_eq_ok {x : Except ε α} {f : α → Except ε β} {b : β} :
    (x >>= f) = .ok b ↔ ∃ a, x = .ok a ∧ f a = .ok b := by
  cases x with
  | error e =>
    refine ⟨fun h => ?_, fun ⟨_, h, _⟩ => ?_⟩
    · cases h
    · cases h
  | ok a =>
    refine ⟨fun h => ⟨a, rfl, h⟩, fun ⟨_, h, hf⟩ => ?_⟩
    cases h
    exact hf

/-- A sequence fails with no error that neither part fails with. -/
theorem bind_ne_error {x : Except ε α} {f : α → Except ε β} {e : ε} (hx : x ≠ .error e)
    (hf : ∀ a, f a ≠ .error e) : (x >>= f) ≠ .error e := by
  cases x with
  | error e' => exact fun h => hx (by rw [Except.error.inj h])
  | ok a => exact hf a

/-! ### A state that is lost with an error -/

/-- A sequence over a state whose first part succeeds. -/
theorem run_bind_ok {m : StateT σ (Except ε) α} {f : α → StateT σ (Except ε) β} {s s' : σ} {a : α}
    (h : m s = .ok (a, s')) : (m >>= f) s = f a s' := by
  change (m s >>= fun p => f p.1 p.2) = f a s'
  rw [h]
  rfl

/-- `get` hands over the state. -/
theorem run_get_bind (f : σ → StateT σ (Except ε) β) (s : σ) : (get >>= f) s = f s s := rfl

/-- A lifted result that succeeds. -/
theorem run_lift_bind {x : Except ε α} {f : α → StateT σ (Except ε) β} {s : σ} {a : α} (h : x = .ok a) :
    ((liftM x : StateT σ (Except ε) α) >>= f) s = f a s := by
  rw [h]
  rfl

/-- A lifted result that fails. -/
theorem run_lift_error {x : Except ε α} {s : σ} {e : ε} (h : x = .error e) :
    (liftM x : StateT σ (Except ε) α) s = .error e := by
  rw [h]
  rfl

/-- A sequence over a state whose first part fails. -/
theorem run_bind_error {m : StateT σ (Except ε) α} {f : α → StateT σ (Except ε) β} {s : σ} {e : ε}
    (h : m s = .error e) : (m >>= f) s = .error e := by
  change (m s >>= fun p => f p.1 p.2) = .error e
  rw [h]
  rfl

/-- **A sequence returns where both of its parts do.** -/
theorem run_bind_eq_ok {m : StateT σ (Except ε) α} {f : α → StateT σ (Except ε) β} {s : σ} {r : β × σ} :
    (m >>= f) s = .ok r ↔ ∃ a s', m s = .ok (a, s') ∧ f a s' = .ok r :=
  bind_eq_ok.trans ⟨fun ⟨p, hp, hf⟩ => ⟨p.1, p.2, hp, hf⟩, fun ⟨a, s', hp, hf⟩ => ⟨(a, s'), hp, hf⟩⟩

/-- **A sequence raises what one of its parts raises.** -/
theorem run_bind_eq_error {m : StateT σ (Except ε) α} {f : α → StateT σ (Except ε) β} {s : σ} {e : ε} :
    (m >>= f) s = .error e ↔ m s = .error e ∨ ∃ a s', m s = .ok (a, s') ∧ f a s' = .error e := by
  cases h : m s with
  | error e' =>
    rw [run_bind_error h, Except.error.injEq, Except.error.injEq]
    constructor
    · exact Or.inl
    · rintro (he | ⟨_, _, h, _⟩)
      · exact he
      · cases h
  | ok p =>
    rw [run_bind_ok h]
    constructor
    · exact fun hf => .inr ⟨p.1, p.2, rfl, hf⟩
    · rintro (he | ⟨_, _, hp, hf⟩)
      · cases he
      · cases hp
        exact hf

/-- The computation never raises `e`. -/
def Avoids (e : ε) (m : StateT σ (Except ε) α) : Prop := ∀ s, m s ≠ .error e

namespace Avoids

variable {e : ε}

/-- `pure` fails with nothing. -/
protected theorem pure (a : α) : Avoids e (pure a : StateT σ (Except ε) α) := fun _ h => by cases h

/-- `throw` fails with its own error only. -/
theorem throw {e' : ε} (he : e' ≠ e) : Avoids e (throw e' : StateT σ (Except ε) α) :=
  fun _ h => he (Except.error.inj h)

/-- `get` fails with nothing. -/
theorem get : Avoids e (get : StateT σ (Except ε) σ) := fun _ h => by cases h

/-- `modify` fails with nothing. -/
theorem modify (g : σ → σ) : Avoids e (modify g : StateT σ (Except ε) PUnit) := fun _ h => by cases h

/-- A lifted result fails as it does. -/
theorem lift {x : Except ε α} (hx : x ≠ .error e) : Avoids e (liftM x : StateT σ (Except ε) α) := by
  intro s h
  cases x with
  | error e' =>
    have he : e' = e := Except.error.inj h
    exact hx (by rw [he])
  | ok a => cases h

/-- A sequence, part by part. -/
protected theorem bind {m : StateT σ (Except ε) α} {f : α → StateT σ (Except ε) β} (hm : Avoids e m)
    (hf : ∀ a, Avoids e (f a)) : Avoids e (m >>= f) := by
  intro s h
  rcases run_bind_eq_error.1 h with h | ⟨a, s', -, h⟩
  · exact hm s h
  · exact hf a s' h

/-- Both branches of a condition. -/
theorem ite {c : Prop} [Decidable c] {m m' : StateT σ (Except ε) α} (hm : Avoids e m) (hm' : Avoids e m') :
    Avoids e (if c then m else m') := by
  split_ifs
  · exact hm
  · exact hm'

/-- A loop, step by step. -/
theorem forM {step : α → StateT σ (Except ε) PUnit} (xs : List α) (h : ∀ x, Avoids e (step x)) :
    Avoids e (xs.forM step) := by
  induction xs with
  | nil => exact Avoids.pure _
  | cons x xs ih => exact (h x).bind fun _ => ih

end Avoids

/-! ### The invariant rules -/

/-- The invariant rule from a point inside the loop. -/
theorem foldlM_ok_from {f : σ → α → Except ε σ} (inv : List α → σ → Prop) {xs : List α} (seen rest : List α)
    {s : σ} (hxs : seen ++ rest = xs) (hs : inv seen s)
    (step : ∀ seen x rest s, seen ++ x :: rest = xs → inv seen s →
      ∃ s', f s x = .ok s' ∧ inv (seen ++ [x]) s') :
    ∃ s', rest.foldlM f s = .ok s' ∧ inv xs s' := by
  induction rest generalizing seen s with
  | nil => exact ⟨s, rfl, by rwa [← hxs, List.append_nil]⟩
  | cons x rest ih =>
    obtain ⟨s₁, hx, hinv⟩ := step seen x rest s hxs hs
    obtain ⟨s₂, hrest, hinv'⟩ := ih (seen ++ [x]) (by rwa [List.append_assoc]) hinv
    refine ⟨s₂, ?_, hinv'⟩
    rw [List.foldlM_cons, bind_ok hx]
    exact hrest

/-- **The invariant rule of a loop that may raise.** -/
theorem foldlM_ok {f : σ → α → Except ε σ} (inv : List α → σ → Prop) {xs : List α} {s : σ} (hs : inv [] s)
    (step : ∀ seen x rest s, seen ++ x :: rest = xs → inv seen s →
      ∃ s', f s x = .ok s' ∧ inv (seen ++ [x]) s') :
    ∃ s', xs.foldlM f s = .ok s' ∧ inv xs s' :=
  foldlM_ok_from inv [] xs rfl hs step

/-- **The invariant rule of a loop that did succeed.** -/
theorem foldlM_inv {f : σ → α → Except ε σ} (inv : List α → σ → Prop) {xs : List α} {s s' : σ} (hs : inv [] s)
    (step : ∀ seen x s s', inv seen s → f s x = .ok s' → inv (seen ++ [x]) s') (h : xs.foldlM f s = .ok s') :
    inv xs s' := by
  suffices hfrom : ∀ rest seen s, inv seen s → rest.foldlM f s = .ok s' → inv (seen ++ rest) s' from
    hfrom xs [] s hs h
  intro rest
  induction rest with
  | nil =>
    intro seen s hs h
    cases h
    rwa [List.append_nil]
  | cons x rest ih =>
    intro seen s hs h
    rw [List.foldlM_cons, bind_eq_ok] at h
    obtain ⟨s₁, hx, hrest⟩ := h
    have := ih (seen ++ [x]) s₁ (step seen x s s₁ hs hx) hrest
    rwa [List.append_assoc] at this

/-- **A loop runs to its end, or a round raises** what the loop raises, after rounds that
did not. -/
theorem foldlM_cases (f : σ → α → Except ε σ) (xs : List α) (s : σ) :
    (∃ s', xs.foldlM f s = .ok s') ∨ ∃ before x after s' e, xs = before ++ x :: after ∧
      before.foldlM f s = .ok s' ∧ f s' x = .error e ∧ xs.foldlM f s = .error e := by
  induction xs generalizing s with
  | nil => exact .inl ⟨s, rfl⟩
  | cons y ys ih =>
    rw [List.foldlM_cons]
    cases hy : f s y with
    | error e => exact .inr ⟨[], y, ys, s, e, rfl, rfl, hy, rfl⟩
    | ok s₁ =>
      rcases ih s₁ with hrun | ⟨before, x, after, s', e, hys, hbefore, hx, hrun⟩
      · exact .inl hrun
      · refine .inr ⟨y :: before, x, after, s', e, by rw [hys, List.cons_append], ?_, hx, hrun⟩
        rw [List.foldlM_cons, hy]
        exact hbefore

/-- The first element of a list without a property is one. -/
theorem first_unique {p : α → Prop} {before before' after after' : List α} {x x' : α}
    (h : before ++ x :: after = before' ++ x' :: after') (hbefore : ∀ y ∈ before, p y) (hx : ¬p x)
    (hbefore' : ∀ y ∈ before', p y) (hx' : ¬p x') : x = x' := by
  induction before generalizing before' with
  | nil =>
    cases before' with
    | nil => exact (List.cons.inj h).1
    | cons y ys =>
      rw [List.nil_append, List.cons_append] at h
      exact absurd ((List.cons.inj h).1 ▸ hbefore' y List.mem_cons_self) hx
  | cons y ys ih =>
    cases before' with
    | nil =>
      rw [List.nil_append, List.cons_append] at h
      exact absurd ((List.cons.inj h).1 ▸ hbefore y List.mem_cons_self) hx'
    | cons y' ys' =>
      exact ih (List.cons.inj h).2 (fun z hz => hbefore z (List.mem_cons_of_mem y hz))
        fun z hz => hbefore' z (List.mem_cons_of_mem y' hz)

/-- A loop of which no round raises. -/
theorem foldlM_eq_foldl {f : σ → α → Except ε σ} {g : σ → α → σ} {xs : List α}
    (h : ∀ s, ∀ x ∈ xs, f s x = .ok (g s x)) (s : σ) : xs.foldlM f s = .ok (xs.foldl g s) := by
  induction xs generalizing s with
  | nil => rfl
  | cons x xs ih =>
    rw [List.foldlM_cons, bind_ok (h s x List.mem_cons_self), List.foldl_cons]
    exact ih (fun s y hy => h s y (List.mem_cons_of_mem x hy)) _

/-- A list of lookups that all succeed. -/
theorem mapM_ok {f : α → Except ε β} {g : α → β} {xs : List α} (h : ∀ x ∈ xs, f x = .ok (g x)) :
    xs.mapM f = .ok (xs.map g) := by
  induction xs with
  | nil => rfl
  | cons x xs ih =>
    rw [List.mapM_cons, bind_ok (h x List.mem_cons_self),
      bind_ok (ih fun y hy => h y (List.mem_cons_of_mem x hy))]
    rfl

/-- Results that are known one by one. -/
theorem mapM_of_forall₂ {f : α → Except ε β} {xs : List α} {ys : List β}
    (h : List.Forall₂ (fun x y => f x = .ok y) xs ys) :
    xs.mapM f = .ok ys := by
  induction h with
  | nil => rfl
  | cons hy _ ih =>
    rw [List.mapM_cons, bind_ok hy, bind_ok ih]
    rfl

/-- A list of computations that all succeed, with related results. -/
theorem mapM_forall₂ {f : α → Except ε β} {R : α → β → Prop} {xs : List α} (h : ∀ x ∈ xs, ∃ y, f x = .ok y ∧ R x y) :
    ∃ ys, xs.mapM f = .ok ys ∧ List.Forall₂ R xs ys := by
  have hys : ∃ ys, List.Forall₂ (fun x y => f x = .ok y ∧ R x y) xs ys := by
    induction xs with
    | nil => exact ⟨[], .nil⟩
    | cons x xs ih =>
      obtain ⟨y, hy⟩ := h x List.mem_cons_self
      obtain ⟨ys, hys⟩ := ih fun z hz => h z (List.mem_cons_of_mem x hz)
      exact ⟨y :: ys, .cons hy hys⟩
  obtain ⟨ys, hys⟩ := hys
  exact ⟨ys, mapM_of_forall₂ (hys.imp fun _ _ h => h.1), hys.imp fun _ _ h => h.2⟩

end ExceptLoop
