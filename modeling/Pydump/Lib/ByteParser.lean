/-
# Parsers over a byte list with an offset

A reader holds the whole input and an offset into it: `struct.unpack_from` and
slicing look at the bytes from the offset on and move it forward.  `Parser ε α`
is that, failing with an error of type `ε`.

`Reads pre p bs v` says that, after `pre`, the parser `p` consumes exactly `bs`
and returns `v`, whatever follows; it composes along `>>=` (`Reads.bind`) and
along a counted loop (`Reads.repeatN`).  `Agree R p q` says that two parsers
accept the same inputs, consume the same bytes and return `R`-related values.
`Costs cost p` bounds what a parser returns by the bytes it goes over.
-/

import Mathlib.Algebra.BigOperators.Group.List.Basic
import Mathlib.Algebra.Ring.Nat

namespace ByteParser

/-- A parser: from an input and an offset, an error or a value and the offset
after it. -/
def Parser (ε α : Type) : Type := List UInt8 → ℕ → Except ε (α × ℕ)

variable {ε ε' α β γ δ : Type}

instance : Monad (Parser ε) where
  pure a := fun _ off => .ok (a, off)
  bind p f := fun src off =>
    match p src off with
    | .ok (a, off') => f a src off'
    | .error e => .error e

/-- Raise an error. -/
def fail (e : ε) : Parser ε α := fun _ _ => .error e

/-- The current offset. -/
def offset : Parser ε ℕ := fun _ off => .ok (off, off)

/-- The whole input. -/
def input : Parser ε (List UInt8) := fun src off => .ok (src, off)

/-- Raise `e` unless `c` holds. -/
def ensure (c : Prop) [Decidable c] (e : ε) : Parser ε Unit := if c then pure () else fail e

/-- Raise the error of the first element for which `c` does not hold. -/
def ensureAll (c : α → Prop) [DecidablePred c] (err : α → ε) (xs : List α) : Parser ε Unit :=
  match xs.find? fun x => ¬c x with
  | none => pure ()
  | some x => fail (err x)

/-- The next `n` bytes, or the error `err off` where fewer are left. -/
def take (err : ℕ → ε) (n : ℕ) : Parser ε (List UInt8) := fun src off =>
  if off + n ≤ src.length then .ok ((src.drop off).take n, off + n) else .error (err off)

/-- `take` succeeds where enough bytes are left, and goes over them. -/
theorem take_eq_ok {err : ℕ → ε} {n : ℕ} {src bs : List UInt8} {off off' : ℕ} :
    take err n src off = .ok (bs, off') ↔ off + n ≤ src.length ∧ bs = (src.drop off).take n ∧ off' = off + n := by
  unfold take
  split_ifs with h
  · simp [h, eq_comm]
  · simp [h]

/-- Run `p` `n` times and collect the values. -/
def repeatN : ℕ → Parser ε α → Parser ε (List α)
  | 0, _ => pure []
  | n + 1, p => do
    let a ← p
    let as ← repeatN n p
    pure (a :: as)

/-- `pure` reads nothing. -/
@[simp] theorem pure_run (a : α) (src : List UInt8) (off : ℕ) :
    (pure a : Parser ε α) src off = .ok (a, off) := rfl

/-- The second parser goes on where the first stands. -/
theorem bind_run (p : Parser ε α) (f : α → Parser ε β) (src : List UInt8) (off : ℕ) :
    (p >>= f) src off =
      match p src off with
      | .ok (a, off') => f a src off'
      | .error e => .error e := rfl

/-- A sequence whose first parser succeeds. -/
theorem bind_ok {p : Parser ε α} {f : α → Parser ε β} {src : List UInt8} {off off' : ℕ} {a : α}
    (h : p src off = .ok (a, off')) : (p >>= f) src off = f a src off' := by
  rw [bind_run, h]

/-- A sequence whose first parser fails. -/
theorem bind_error {p : Parser ε α} {f : α → Parser ε β} {src : List UInt8} {off : ℕ} {e : ε}
    (h : p src off = .error e) : (p >>= f) src off = .error e := by
  rw [bind_run, h]

/-- **Inversion of a sequence that succeeds.** -/
theorem bind_eq_ok {p : Parser ε α} {f : α → Parser ε β} {src : List UInt8} {off : ℕ} {r : β × ℕ} :
    (p >>= f) src off = .ok r ↔ ∃ a off', p src off = .ok (a, off') ∧ f a src off' = .ok r := by
  rw [bind_run]
  constructor
  · intro h
    split at h
    · exact ⟨_, _, ‹_›, h⟩
    · exact absurd h (by simp)
  · rintro ⟨a, off', h₁, h₂⟩
    rw [h₁]
    exact h₂

/-- Sequences may be regrouped. -/
theorem bind_assoc (p : Parser ε α) (f : α → Parser ε β) (g : β → Parser ε γ) :
    ((p >>= f) >>= g) = p >>= fun a => f a >>= g := by
  funext src off
  rw [bind_run, bind_run, bind_run]
  cases p src off <;> rfl

/-- `pure` before a parser passes its value on. -/
theorem pure_bind (a : α) (f : α → Parser ε β) : (pure a >>= f) = f a := rfl

/-- A check that passes has held. -/
theorem ensure_eq_ok {c : Prop} [Decidable c] {e : ε} {src : List UInt8} {off : ℕ} {r : Unit × ℕ}
    (h : ensure c e src off = .ok r) : c := by
  by_contra hc
  rw [ensure, if_neg hc] at h
  cases h

/-- `ensureAll` where every element is fine. -/
theorem ensureAll_of_forall {c : α → Prop} [DecidablePred c] (err : α → ε) {xs : List α} (h : ∀ x ∈ xs, c x) :
    ensureAll c err xs = pure () := by
  have hnone : (xs.find? fun x => ¬c x) = none :=
    List.find?_eq_none.2 fun x hx => by simpa using h x hx
  rw [ensureAll, hnone]

/-! ### What a parser reads after a prefix -/

/-- After `pre`, `p` consumes exactly `bs` and returns `v`, whatever follows. -/
def Reads (pre : List UInt8) (p : Parser ε α) (bs : List UInt8) (v : α) : Prop :=
  ∀ post, p (pre ++ bs ++ post) pre.length = .ok (v, pre.length + bs.length)

namespace Reads

variable {pre bs bs₁ bs₂ : List UInt8}

/-- `pure` reads no bytes. -/
protected theorem pure (v : α) : Reads pre (pure v : Parser ε α) [] v := fun _ => rfl

/-- **Reading in sequence.** -/
protected theorem bind {p : Parser ε α} {f : α → Parser ε β} {a : α} {b : β}
    (hp : Reads pre p bs₁ a) (hf : Reads (pre ++ bs₁) (f a) bs₂ b) :
    Reads pre (p >>= f) (bs₁ ++ bs₂) b := by
  intro post
  have h₁ := hp (bs₂ ++ post)
  have h₂ := hf post
  rw [List.append_assoc (pre ++ bs₁), List.length_append] at h₂
  rw [← List.append_assoc pre, List.append_assoc (pre ++ bs₁), bind_ok h₁, h₂, List.length_append,
    Nat.add_assoc]

/-- Reading in sequence when the last step consumes nothing. -/
theorem bind_pure {p : Parser ε α} {f : α → Parser ε β} {a : α} {b : β}
    (hp : Reads pre p bs a) (hf : Reads (pre ++ bs) (f a) [] b) : Reads pre (p >>= f) bs b := by
  have h := hp.bind hf
  rwa [List.append_nil] at h

/-- A first step that consumes nothing. -/
theorem nil_bind {p : Parser ε α} {f : α → Parser ε β} {a : α} {b : β}
    (hp : Reads pre p [] a) (hf : Reads pre (f a) bs b) : Reads pre (p >>= f) bs b := by
  have h := hp.bind (by rw [List.append_nil]; exact hf : Reads (pre ++ []) (f a) bs b)
  rwa [List.nil_append] at h

/-- The offset is the number of bytes before. -/
theorem offset : Reads pre (offset : Parser ε ℕ) [] pre.length := fun _ => rfl

/-- `take` reads as many bytes as there are. -/
theorem take (err : ℕ → ε) (bs : List UInt8) : Reads pre (take err bs.length) bs bs := by
  intro post
  rw [ByteParser.take, if_pos (by simp only [List.length_append]; omega), List.append_assoc,
    List.drop_left, List.take_left]

/-- `ensure` reads nothing where its condition holds. -/
theorem ensure {c : Prop} [Decidable c] (e : ε) (h : c) : Reads pre (ensure c e) [] () := by
  rw [ByteParser.ensure, if_pos h]
  exact Reads.pure ()

/-- `ensureAll` reads nothing where every element is fine. -/
theorem ensureAll {c : α → Prop} [DecidablePred c] (err : α → ε) {xs : List α} (h : ∀ x ∈ xs, c x) :
    Reads pre (ensureAll c err xs) [] () := by
  rw [ensureAll_of_forall err h]
  exact Reads.pure ()

/-- **A counted loop reads the concatenation of what its rounds read.** -/
theorem repeatN {p : Parser ε α} (enc : β → List UInt8) (val : β → α) (xs : List β)
    (h : ∀ x ∈ xs, ∀ pre, Reads pre p (enc x) (val x)) (pre : List UInt8) :
    Reads pre (repeatN xs.length p) (xs.flatMap enc) (xs.map val) := by
  induction xs generalizing pre with
  | nil => exact Reads.pure []
  | cons x xs ih =>
    have hx := h x List.mem_cons_self
    have hxs := ih (fun y hy => h y (List.mem_cons_of_mem x hy))
    rw [List.flatMap_cons, List.map_cons]
    exact (hx pre).bind ((hxs _).bind_pure (Reads.pure _))

/-- Reading `bs` at the start of the whole input. -/
theorem run {p : Parser ε α} {v : α} (h : Reads [] p bs v) : p bs 0 = .ok (v, bs.length) := by
  have := h []
  rwa [List.nil_append, List.append_nil, List.length_nil, Nat.zero_add] at this

end Reads

/-! ### Two parsers of one format -/

/-- On every input the two parsers both fail, or both succeed at the same
offset with related values. -/
def Agree (R : α → β → Prop) (p : Parser ε α) (q : Parser ε' β) : Prop :=
  ∀ src off,
    match p src off, q src off with
    | .ok (a, o), .ok (b, o') => o = o' ∧ R a b
    | .error _, .error _ => True
    | _, _ => False

/-- A parser that accepts nothing. -/
def Rejects (p : Parser ε α) : Prop := ∀ src off, ∃ e, p src off = .error e

namespace Agree

variable {R : α → β → Prop} {S : γ → δ → Prop}

/-- Related values agree. -/
protected theorem pure {a : α} {b : β} (h : R a b) :
    Agree R (pure a : Parser ε α) (pure b : Parser ε' β) := fun _ _ => ⟨rfl, h⟩

/-- **Related steps in sequence are related.** -/
protected theorem bind {p : Parser ε α} {q : Parser ε' β} {f : α → Parser ε γ} {g : β → Parser ε' δ}
    (hp : Agree R p q) (hf : ∀ a b, R a b → Agree S (f a) (g b)) : Agree S (p >>= f) (q >>= g) := by
  intro src off
  have h := hp src off
  rw [bind_run, bind_run]
  split at h
  · rename_i ha hb
    obtain ⟨rfl, hab⟩ := h
    rw [ha, hb]
    exact hf _ _ hab src _
  · rename_i ha hb
    rw [ha, hb]
    trivial
  · exact h.elim

/-- Agreement up to a wider relation. -/
theorem mono {R' : α → β → Prop} {p : Parser ε α} {q : Parser ε' β} (h : Agree R p q)
    (hR : ∀ a b, R a b → R' a b) : Agree R' p q := by
  intro src off
  have h := h src off
  split at h
  · exact ⟨h.1, hR _ _ h.2⟩
  · trivial
  · exact h.elim

/-- `take` agrees with itself under any errors. -/
theorem take (e : ℕ → ε) (e' : ℕ → ε') (n : ℕ) : Agree Eq (take e n) (take e' n) := by
  intro src off
  rw [ByteParser.take, ByteParser.take]
  split_ifs
  · exact ⟨rfl, rfl⟩
  · trivial

/-- The offset is the same for both. -/
theorem offset : Agree Eq (offset : Parser ε ℕ) (ByteParser.offset : Parser ε' ℕ) := fun _ _ => ⟨rfl, rfl⟩

/-- The input is the same for both. -/
theorem input : Agree Eq (input : Parser ε (List UInt8)) (ByteParser.input : Parser ε' (List UInt8)) :=
  fun _ _ => ⟨rfl, rfl⟩

/-- Two failures agree. -/
theorem fail (e : ε) (e' : ε') : Agree R (fail e : Parser ε α) (ByteParser.fail e' : Parser ε' β) :=
  fun _ _ => trivial

/-- Equivalent conditions agree. -/
theorem ensure {c c' : Prop} [Decidable c] [Decidable c'] (e : ε) (e' : ε') (h : c ↔ c') :
    Agree Eq (ensure c e) (ensure c' e') := by
  rw [ByteParser.ensure, ByteParser.ensure]
  by_cases hc : c
  · rw [if_pos hc, if_pos (h.1 hc)]
    exact Agree.pure rfl
  · rw [if_neg hc, if_neg (fun hc' => hc (h.2 hc'))]
    exact Agree.fail e e'

/-- Two parsers that reject everything agree. -/
theorem of_rejects {p : Parser ε α} {q : Parser ε' β} (hp : Rejects p) (hq : Rejects q) :
    Agree R p q := by
  intro src off
  obtain ⟨e, he⟩ := hp src off
  obtain ⟨e', he'⟩ := hq src off
  rw [he, he']
  trivial

/-- A value that one parser computes from what the other returns. -/
theorem map_left {p : Parser ε α} {q : Parser ε' β} (h : Agree R p q) (f : α → γ) {S : γ → β → Prop}
    (hS : ∀ a b, R a b → S (f a) b) : Agree S (p >>= fun a => pure (f a)) q := by
  intro src off
  have h := h src off
  rw [bind_run]
  split at h
  · rename_i hp hq
    rw [hp, hq]
    exact ⟨h.1, hS _ _ h.2⟩
  · rename_i hp hq
    rw [hp, hq]
    trivial
  · exact h.elim

/-- **Counted loops of related steps are related.** -/
theorem repeatN {p : Parser ε α} {q : Parser ε' β} (h : Agree R p q) (n : ℕ) :
    Agree (List.Forall₂ R) (repeatN n p) (repeatN n q) := by
  induction n with
  | zero => exact Agree.pure .nil
  | succ n ih =>
    exact h.bind fun a b hab => ih.bind fun as bs hs => Agree.pure (.cons hab hs)

end Agree

namespace Rejects

/-- A failure rejects everything. -/
theorem fail (e : ε) : Rejects (fail e : Parser ε α) := fun _ _ => ⟨e, rfl⟩

/-- `ensureAll` rejects everything where an element is not fine. -/
theorem ensureAll {c : α → Prop} [DecidablePred c] (err : α → ε) {xs : List α} (h : ¬∀ x ∈ xs, c x) :
    Rejects (ensureAll c err xs) := by
  rw [ByteParser.ensureAll]
  split
  · rename_i hnone
    exact absurd (fun x hx => by simpa using List.find?_eq_none.1 hnone x hx) h
  · exact Rejects.fail _

/-- A sequence whose first step rejects everything rejects everything. -/
theorem bind_left {p : Parser ε α} (h : Rejects p) (f : α → Parser ε β) : Rejects (p >>= f) := by
  intro src off
  obtain ⟨e, he⟩ := h src off
  exact ⟨e, bind_error he⟩

/-- A sequence whose continuation rejects everything rejects everything. -/
theorem bind {p : Parser ε α} {f : α → Parser ε β} (h : ∀ a, Rejects (f a)) : Rejects (p >>= f) := by
  intro src off
  cases hp : p src off with
  | error e => exact ⟨e, bind_error hp⟩
  | ok r =>
    obtain ⟨a, off'⟩ := r
    rw [bind_ok hp]
    exact h a src off'

end Rejects

/-! ### What bytes behind the end do -/

/-- Where the parser succeeds, bytes appended to the input change nothing. -/
def Stable (p : Parser ε α) : Prop :=
  ∀ src off r, p src off = .ok r → ∀ post, p (src ++ post) off = .ok r

namespace Stable

/-- A failure has no result that could change. -/
theorem fail (e : ε) : Stable (fail e : Parser ε α) := fun _ _ _ h => by cases h

/-- **In sequence.** -/
protected theorem bind {p : Parser ε α} {f : α → Parser ε β} (hp : Stable p) (hf : ∀ a, Stable (f a)) :
    Stable (p >>= f) := by
  intro src off r h post
  obtain ⟨a, off', hfirst, hrest⟩ := bind_eq_ok.1 h
  rw [bind_ok (hp src off _ hfirst post)]
  exact hf a src off' r hrest post

/-- `take` looks no further than it goes. -/
theorem take (err : ℕ → ε) (n : ℕ) : Stable (take err n) := by
  intro src off r h post
  rw [ByteParser.take] at h ⊢
  split_ifs at h with hroom
  have hlong : off + n ≤ (src ++ post).length := by
    rw [List.length_append]
    omega
  rw [if_pos hlong, List.drop_append_of_le_length (by omega),
    List.take_append_of_le_length (by rw [List.length_drop]; omega)]
  exact h

/-- **A stable parser that has to end with the input accepts no extension of what it
accepts.** -/
theorem not_extended {p : Parser ε α} (h : Stable p) {src : List UInt8} {a : α}
    (haccepts : p src 0 = .ok (a, src.length)) {post : List UInt8} (hpost : post ≠ []) (b : α) :
    p (src ++ post) 0 ≠ .ok (b, (src ++ post).length) := by
  intro hextended
  rw [h src 0 _ haccepts post] at hextended
  have hlen := (Prod.mk.inj (Except.ok.inj hextended)).2
  rw [List.length_append] at hlen
  exact hpost (List.length_eq_zero_iff.1 (by omega))

end Stable

/-! ### Which errors are raised -/

/-- Every error of the parser is one of `E`. -/
def Raises (E : ε → Prop) (p : Parser ε α) : Prop := ∀ src off e, p src off = .error e → E e

namespace Raises

variable {E : ε → Prop}

/-- `pure` raises nothing. -/
protected theorem pure (a : α) : Raises E (pure a : Parser ε α) := fun _ _ _ h => by cases h

/-- `offset` raises nothing. -/
theorem offset : Raises E (offset : Parser ε ℕ) := fun _ _ _ h => by cases h

/-- `input` raises nothing. -/
theorem input : Raises E (input : Parser ε (List UInt8)) := fun _ _ _ h => by cases h

/-- A failure raises its error. -/
theorem fail {e : ε} (h : E e) : Raises E (fail e : Parser ε α) := fun _ _ _ he => by cases he; exact h

/-- **In sequence.** -/
protected theorem bind {p : Parser ε α} {f : α → Parser ε β} (hp : Raises E p) (hf : ∀ a, Raises E (f a)) :
    Raises E (p >>= f) := by
  intro src off e h
  cases hfirst : p src off with
  | error e' =>
    rw [bind_error hfirst] at h
    cases h
    exact hp src off e hfirst
  | ok r =>
    obtain ⟨a, off'⟩ := r
    rw [bind_ok hfirst] at h
    exact hf a src off' e h

/-- `take` raises its own error. -/
theorem take {err : ℕ → ε} (h : ∀ off, E (err off)) (n : ℕ) : Raises E (take err n) := by
  intro src off e he
  rw [ByteParser.take] at he
  split_ifs at he
  cases he
  exact h off

end Raises

/-! ### How a parser is built -/

/-- The parser is put together from `pure`, `offset`, `take` and `fail`, and raises no
error but those of `E`.  Where it stands in the input is all it knows of the input's
length. -/
inductive Built {ε : Type} (E : ε → Prop) : {α : Type} → Parser ε α → Prop
  | pure {α : Type} (a : α) : Built E (pure a : Parser ε α)
  | offset : Built E offset
  | fail {α : Type} {e : ε} (h : E e) : Built E (fail e : Parser ε α)
  | take {err : ℕ → ε} (h : ∀ off, E (err off)) (n : ℕ) : Built E (take err n)
  | bind {α β : Type} {p : Parser ε α} {f : α → Parser ε β} (hp : Built E p) (hf : ∀ a, Built E (f a)) :
    Built E (p >>= f)

namespace Built

variable {E : ε → Prop}

/-- **In both branches.** -/
protected theorem ite {c : Prop} [Decidable c] {p q : Parser ε α} (hp : Built E p) (hq : Built E q) :
    Built E (if c then p else q) := by
  split_ifs
  · exact hp
  · exact hq

/-- `ensure` raises its own error. -/
theorem ensure {c : Prop} [Decidable c] {e : ε} (h : E e) : Built E (ensure c e) :=
  Built.ite (Built.pure ()) (Built.fail h)

/-- `ensureAll` raises the errors it is given. -/
theorem ensureAll {c : α → Prop} [DecidablePred c] {err : α → ε} (h : ∀ x, E (err x)) (xs : List α) :
    Built E (ensureAll c err xs) := by
  rw [ByteParser.ensureAll]
  split
  · exact Built.pure ()
  · exact Built.fail (h _)

/-- A counted loop of a built parser. -/
theorem repeatN {p : Parser ε α} (h : Built E p) (n : ℕ) : Built E (repeatN n p) := by
  induction n with
  | zero => exact Built.pure []
  | succ n ih => exact h.bind fun _ => ih.bind fun _ => Built.pure _

/-- **Bytes behind what is read change nothing.** -/
theorem stable {p : Parser ε α} (h : Built E p) : Stable p := by
  induction h with
  | pure a => exact fun _ _ _ h _ => h
  | offset => exact fun _ _ _ h _ => h
  | fail h => exact Stable.fail _
  | take h n => exact Stable.take _ n
  | bind _ _ ihp ihf => exact ihp.bind ihf

/-- **No other error is raised.** -/
theorem raises {p : Parser ε α} (h : Built E p) : Raises E p := by
  induction h with
  | pure a => exact Raises.pure a
  | offset => exact Raises.offset
  | fail h => exact Raises.fail h
  | take h n => exact Raises.take h n
  | bind _ _ ihp ihf => exact ihp.bind ihf

end Built

/-! ### What the values satisfy -/

/-- Every value the parser returns satisfies `V`. -/
def Returns (V : α → Prop) (p : Parser ε α) : Prop := ∀ src off a off', p src off = .ok (a, off') → V a

namespace Returns

variable {V : α → Prop} {W : β → Prop}

/-- `pure` returns its value. -/
protected theorem pure {a : α} (h : V a) : Returns V (pure a : Parser ε α) := by
  intro src off b off' hb
  cases hb
  exact h

/-- A failure returns nothing. -/
theorem fail (e : ε) : Returns V (fail e : Parser ε α) := fun _ _ _ _ h => by cases h

/-- **In sequence**, given what the first step returns. -/
protected theorem bind {p : Parser ε α} {f : α → Parser ε β} (hp : Returns V p) (hf : ∀ a, V a → Returns W (f a)) :
    Returns W (p >>= f) := by
  intro src off b off' h
  obtain ⟨a, off₁, hfirst, hrest⟩ := bind_eq_ok.1 h
  exact hf a (hp src off a off₁ hfirst) src off₁ b off' hrest

/-- In sequence, whatever the first step returns. -/
theorem bind_any {p : Parser ε α} {f : α → Parser ε β} (hf : ∀ a, Returns W (f a)) : Returns W (p >>= f) :=
  Returns.bind (fun _ _ _ _ _ => trivial : Returns (fun _ => True) p) fun a _ => hf a

/-- Behind `ensure` its condition holds. -/
theorem ensure {c : Prop} [Decidable c] (e : ε) : Returns (fun _ => c) (ensure c e) := by
  rw [ByteParser.ensure]
  split_ifs with h
  · exact Returns.pure h
  · exact Returns.fail e

/-- Behind `ensureAll` every element is fine. -/
theorem ensureAll {c : α → Prop} [DecidablePred c] (err : α → ε) (xs : List α) :
    Returns (fun _ => ∀ x ∈ xs, c x) (ensureAll c err xs) := by
  rw [ByteParser.ensureAll]
  split
  · rename_i hnone
    exact Returns.pure fun x hx => by simpa using List.find?_eq_none.1 hnone x hx
  · exact Returns.fail _

end Returns

/-- What `p` returns on the input `src` satisfies `V`. -/
def ReturnsOn (src : List UInt8) (V : α → Prop) (p : Parser ε α) : Prop := ∀ off a off', p src off = .ok (a, off') → V a

namespace ReturnsOn

variable {src : List UInt8} {V : α → Prop} {W : β → Prop}

/-- What holds for every input holds for one. -/
theorem of_returns {p : Parser ε α} (h : Returns V p) : ReturnsOn src V p := h src

/-- `pure` returns its value. -/
protected theorem pure {a : α} (h : V a) : ReturnsOn src V (pure a : Parser ε α) := of_returns (Returns.pure h)

/-- **In sequence**, given what the first step returns. -/
protected theorem bind {p : Parser ε α} {f : α → Parser ε β} (hp : ReturnsOn src V p)
    (hf : ∀ a, V a → ReturnsOn src W (f a)) : ReturnsOn src W (p >>= f) := by
  intro off b off' h
  obtain ⟨a, off₁, hfirst, hrest⟩ := bind_eq_ok.1 h
  exact hf a (hp off a off₁ hfirst) off₁ b off' hrest

/-- In sequence, whatever the first step returns. -/
theorem bind_any {p : Parser ε α} {f : α → Parser ε β} (hf : ∀ a, ReturnsOn src W (f a)) : ReturnsOn src W (p >>= f) :=
  ReturnsOn.bind (fun _ _ _ _ => trivial : ReturnsOn src (fun _ => True) p) fun a _ => hf a

/-- `input` returns the input. -/
theorem input : ReturnsOn src (fun source => source = src) (input : Parser ε (List UInt8)) := by
  intro off a off' h
  cases h
  rfl

end ReturnsOn

/-! ### What a value costs -/

/-- The parser goes over at least `cost a` bytes to return `a`. -/
def Costs (cost : α → ℕ) (p : Parser ε α) : Prop := ∀ src off a off', p src off = .ok (a, off') → off + cost a ≤ off'

namespace Costs

variable {cost : α → ℕ} {cost' : β → ℕ} {E : ε → Prop}

/-- A value without cost needs no bytes. -/
protected theorem pure {a : α} (h : cost a = 0) : Costs cost (pure a : Parser ε α) := by
  intro src off b off' hb
  cases hb
  exact Nat.le_of_eq (congrArg (off + ·) h)

/-- A failure returns nothing to pay for. -/
theorem fail (e : ε) : Costs cost (fail e : Parser ε α) := fun _ _ _ _ h => by cases h

/-- **In sequence**: what the first step has not paid for. -/
protected theorem bind {p : Parser ε α} {f : α → Parser ε β} (hp : Costs cost p)
    (hf : ∀ a, Costs (fun b => cost' b - cost a) (f a)) : Costs cost' (p >>= f) := by
  intro src off b off' h
  obtain ⟨a, off₁, hfirst, hrest⟩ := bind_eq_ok.1 h
  have hpaid := hp src off a off₁ hfirst
  have hleft : off₁ + (cost' b - cost a) ≤ off' := hf a src off₁ b off' hrest
  omega

/-- `take` goes over `n` bytes. -/
theorem take (err : ℕ → ε) (n : ℕ) : Costs (fun _ => n) (take err n) := by
  intro src off bs off' h
  obtain ⟨-, -, rfl⟩ := take_eq_ok.1 h
  exact Nat.le_refl _

/-- A lower cost is paid too. -/
theorem mono {p : Parser ε α} (h : Costs cost p) {less : α → ℕ} (hless : ∀ a, less a ≤ cost a) : Costs less p := by
  intro src off a off' hrun
  have hpaid := h src off a off' hrun
  have := hless a
  omega

/-- No parser goes back. -/
theorem of_built {p : Parser ε α} (h : Built E p) : Costs (fun _ => 0) p := by
  induction h with
  | pure a => exact Costs.pure rfl
  | offset =>
    intro src off a off' h
    cases h
    exact Nat.le_refl _
  | fail h => exact Costs.fail _
  | take h n => exact (Costs.take _ n).mono fun _ => Nat.zero_le n
  | bind _ _ ihp ihf => exact ihp.bind ihf

/-- Behind a step that counts for nothing. -/
theorem bind_any {p : Parser ε α} {f : α → Parser ε β} (hp : Built E p) (hf : ∀ a, Costs cost' (f a)) :
    Costs cost' (p >>= f) := (of_built hp).bind hf

/-- A counted loop pays for each of its values. -/
theorem repeatN {p : Parser ε α} (h : Costs cost p) (n : ℕ) : Costs (fun as => (as.map cost).sum) (repeatN n p) := by
  induction n with
  | zero => exact Costs.pure rfl
  | succ n ih =>
    refine h.bind fun a => ih.bind fun as => Costs.pure ?_
    rw [List.map_cons, List.sum_cons]
    omega

end Costs

end ByteParser
