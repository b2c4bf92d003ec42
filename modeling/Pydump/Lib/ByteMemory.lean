/-
# Byte-addressed memory of 64-bit addresses

A memory gives every mapped address its byte.  Addresses are added modulo `2 ^ 64`, and
the distance of `x` from `a` is `(x - a).toNat`, so that a block of up to `2 ^ 64` bytes
needs no assumption about where it lies.

`Holds m a bs` says that the bytes `bs` stand at `a`; every read is a consequence of
it (`Holds.read`, `Holds.cString`), and writing establishes it (`holds_write`).  Two
writes next to each other are one write of both blocks (`write_append`).
-/

import Mathlib.Algebra.Ring.Nat
import Mathlib.Data.List.Basic
import Mathlib.Data.Set.Defs

namespace ByteMemory

/-- The byte at every address that is mapped. -/
abbrev Memory : Type := UInt64 → Option UInt8

/-- The `n` bytes from `a` on, all of which have to be mapped. -/
def read (m : Memory) : UInt64 → ℕ → Option (List UInt8)
  | _, 0 => some []
  | a, n + 1 =>
    match m a, read m (a + 1) n with
    | some b, some bs => some (b :: bs)
    | _, _ => none

/-- The memory with the bytes from `a` on replaced. -/
def write (m : Memory) (a : UInt64) (bs : List UInt8) : Memory :=
  fun x => (bs[(x - a).toNat]?).or (m x)

/-- The string that ends before the first zero byte, looked for in `fuel` bytes. -/
def cString (m : Memory) : ℕ → UInt64 → Option (List UInt8)
  | 0, _ => none
  | fuel + 1, a =>
    match m a with
    | none => none
    | some b => if b = 0 then some [] else (cString m fuel (a + 1)).map (b :: ·)

/-- The bytes `bs` stand at `a`. -/
def Holds (m : Memory) (a : UInt64) (bs : List UInt8) : Prop := ∀ i < bs.length, m (a + .ofNat i) = bs[i]?

/-- The `n` bytes from `a` on are mapped. -/
def Mapped (m : Memory) (a : UInt64) (n : ℕ) : Prop := ∀ i < n, (m (a + .ofNat i)).isSome

open Classical in
/-- The memory at some of its addresses. -/
noncomputable def restrict (owned : Set UInt64) (m : Memory) : Memory := fun x => if x ∈ owned then m x else none

variable {m : Memory} {a x : UInt64} {bs front back : List UInt8} {n i : ℕ}

/-! ### Distances -/

/-- The offset of an address `i` bytes on is `i`. -/
theorem add_ofNat_sub (h : i < 2 ^ 64) : (a + .ofNat i - a).toNat = i := by
  have ha := a.toNat_lt
  rw [UInt64.toNat_sub, UInt64.toNat_add, UInt64.toNat_ofNat']
  omega

/-- Two offsets add up. -/
theorem add_ofNat_add (a : UInt64) (i j : ℕ) : a + .ofNat i + .ofNat j = a + .ofNat (i + j) := by
  rw [UInt64.ofNat_add, UInt64.add_assoc]

/-- The bytes behind the first one. -/
theorem add_one (a : UInt64) (i : ℕ) : a + 1 + .ofNat i = a + .ofNat (i + 1) := by
  rw [Nat.add_comm i 1, ← add_ofNat_add]
  rfl

/-- The distance from a base `k` bytes further on. -/
theorem sub_add_ofNat (x a : UInt64) {k : ℕ} (hk : k < 2 ^ 64) :
    (x - (a + .ofNat k)).toNat = if k ≤ (x - a).toNat then (x - a).toNat - k else (x - a).toNat + 2 ^ 64 - k := by
  have hx := x.toNat_lt
  have ha := a.toNat_lt
  rw [UInt64.toNat_sub, UInt64.toNat_sub, UInt64.toNat_add, UInt64.toNat_ofNat']
  split_ifs <;> omega

/-- Every address is at some offset from `a`. -/
theorem eq_add_ofNat (x a : UInt64) : x = a + .ofNat (x - a).toNat := by
  rw [UInt64.ofNat_toNat, UInt64.add_comm, UInt64.sub_add_cancel]

/-! ### What stands where -/

/-- A block holds its front. -/
theorem Holds.left (h : Holds m a (front ++ back)) : Holds m a front := by
  intro i hi
  rw [h i (by rw [List.length_append]; omega), List.getElem?_append_left hi]

/-- A block holds its back, behind the front. -/
theorem Holds.right (h : Holds m a (front ++ back)) (hn : front.length = n) : Holds m (a + .ofNat n) back := by
  intro i hi
  rw [add_ofNat_add, h (n + i) (by rw [List.length_append]; omega), List.getElem?_append_right (by omega), hn,
    Nat.add_sub_cancel_left]

/-- **A read of what stands there.** -/
theorem Holds.read (h : Holds m a bs) : read m a bs.length = some bs := by
  induction bs generalizing a with
  | nil => rfl
  | cons b bs ih =>
    have hb : m a = some b := by simpa using h 0 (by simp)
    have hbs : Holds m (a + 1) bs := by
      intro i hi
      have hat := h (i + 1) (by simpa using hi)
      rw [add_one, hat, List.getElem?_cons_succ]
    simp [ByteMemory.read, hb, ih hbs]

/-- Mapped memory holds some bytes. -/
theorem exists_holds (h : Mapped m a n) : ∃ bs, bs.length = n ∧ Holds m a bs := by
  refine ⟨List.ofFn fun i : Fin n => (m (a + .ofNat i)).get (h i i.isLt), by simp, fun i hi => ?_⟩
  rw [List.length_ofFn] at hi
  simp [hi]

/-- **A string that stands there with its end.** -/
theorem Holds.cString {fuel : ℕ} (h : Holds m a (bs ++ [0])) (hzero : 0 ∉ bs) (hfuel : bs.length < fuel) :
    cString m fuel a = some bs := by
  induction bs generalizing a fuel with
  | nil =>
    obtain ⟨fuel, rfl⟩ := Nat.exists_eq_add_one_of_ne_zero (Nat.ne_zero_of_lt hfuel)
    have hb : m a = some 0 := by simpa using h 0 (by simp)
    simp [ByteMemory.cString, hb]
  | cons b bs ih =>
    obtain ⟨fuel, rfl⟩ := Nat.exists_eq_add_one_of_ne_zero (Nat.ne_zero_of_lt hfuel)
    have hb : m a = some b := by simpa using h 0 (by simp)
    have hbs : Holds m (a + 1) (bs ++ [0]) := by
      intro i hi
      have hat := h (i + 1) (by simpa using hi)
      rw [add_one, hat, List.cons_append, List.getElem?_cons_succ]
    have hne : b ≠ 0 := fun hb => hzero (by simp [hb])
    have hrest := ih hbs (fun hmem => hzero (List.mem_cons_of_mem b hmem)) (by simpa using hfuel)
    simp [ByteMemory.cString, hb, hne, hrest]

/-- The distance of two offsets, which goes around the address space. -/
theorem offset_sub_offset (a : UInt64) {i j : ℕ} (hi : i < 2 ^ 64) (hj : j < 2 ^ 64) :
    (a + .ofNat i - (a + .ofNat j)).toNat = if j ≤ i then i - j else i + 2 ^ 64 - j := by
  rw [sub_add_ofNat _ a hj, add_ofNat_sub hi]

/-- A block at the offset zero. -/
theorem holds_add_zero : Holds m (a + .ofNat 0) bs ↔ Holds m a bs := by
  rw [show a + .ofNat 0 = a from UInt64.add_zero a]

/-! ### Writing -/

/-- **What was written stands there.** -/
theorem holds_write (hlen : bs.length ≤ 2 ^ 64) : Holds (write m a bs) a bs := by
  intro i hi
  rw [write, add_ofNat_sub (by omega), List.getElem?_eq_getElem hi, Option.some_or]

/-- **Nothing else changes.** -/
theorem write_frame (h : bs.length ≤ (x - a).toNat) : write m a bs x = m x := by
  rw [write, List.getElem?_eq_none h, Option.none_or]

/-- What stands beside a block that is written. -/
theorem Holds.write_beside {i j : ℕ} (h : Holds m (a + .ofNat i) bs) (hi : i + bs.length ≤ 2 ^ 64)
    (hj : j + back.length ≤ 2 ^ 64)
    (hbeside : i + bs.length ≤ j ∨ j + back.length ≤ i) : Holds (write m (a + .ofNat j) back) (a + .ofNat i) bs := by
  intro k hk
  rcases Nat.eq_zero_or_pos back.length with hempty | hpos
  · rw [List.length_eq_zero_iff.1 hempty, write, List.getElem?_nil, Option.none_or]
    exact h k hk
  · rw [write_frame, h k hk]
    rw [add_ofNat_add, offset_sub_offset a (by omega) (by omega)]
    split_ifs <;> omega

/-- A write of nothing changes nothing. -/
theorem write_nil : write m a [] = m := by
  funext x
  simp [write]

/-- A shorter range is mapped too. -/
theorem Mapped.mono {k : ℕ} (h : Mapped m a n) (hk : k ≤ n) : Mapped m a k :=
  fun i hi => h i (by omega)

/-- The end of a mapped range is mapped. -/
theorem Mapped.drop {k : ℕ} (h : Mapped m a (k + n)) : Mapped m (a + .ofNat k) n := by
  intro i hi
  rw [add_ofNat_add]
  exact h (k + i) (by omega)

/-- A mapped range can be read. -/
theorem Mapped.read (h : Mapped m a n) : ∃ bs, bs.length = n ∧ Holds m a bs ∧ read m a n = some bs := by
  obtain ⟨bs, rfl, hbs⟩ := exists_holds h
  exact ⟨bs, rfl, hbs, hbs.read⟩

/-- A block keeps what was mapped mapped. -/
theorem Mapped.write (h : Mapped m x n) : Mapped (write m a bs) x n := by
  intro i hi
  rw [ByteMemory.write, Option.isSome_or, h i hi, Bool.or_true]

/-- **Two blocks next to each other.** -/
theorem write_append (hlen : front.length + back.length ≤ 2 ^ 64) (hfront : front.length < 2 ^ 64) :
    write (write m a front) (a + .ofNat front.length) back = write m a (front ++ back) := by
  funext x
  have hx := (x - a).toNat_lt
  simp only [write, sub_add_ofNat x a hfront]
  split_ifs with h
  · rw [List.getElem?_append_right h, List.getElem?_eq_none h, Option.none_or]
  · rw [List.getElem?_append_left (by omega), List.getElem?_eq_none (l := back) (by omega), Option.none_or]

/-- What was read is the memory itself. -/
theorem getElem?_of_read (h : read m a n = some bs) {i : ℕ} (hi : i < n) : bs[i]? = m (a + .ofNat i) := by
  induction n generalizing a bs i with
  | zero => omega
  | succ n ih =>
    simp only [read] at h
    split at h
    · next b rest hb hrest =>
      cases h
      cases i with
      | zero => simpa using hb.symm
      | succ i =>
        rw [List.getElem?_cons_succ, ih hrest (by omega), add_one]
    · cases h

/-- A read returns as many bytes as are asked for. -/
theorem length_of_read (h : read m a n = some bs) : bs.length = n := by
  induction n generalizing a bs with
  | zero =>
    cases h
    rfl
  | succ n ih =>
    simp only [read] at h
    split at h
    · next b rest _ hrest =>
      cases h
      rw [List.length_cons, ih hrest]
    · cases h

/-- **What is written back is as it was**, whatever has stood there meanwhile. -/
theorem write_write_of_read {m' : Memory} (h : read m a n = some bs) (hfront : front.length = n) (hx : m x = m' x) :
    write (write m' a front) a bs x = m' x := by
  have hlen := length_of_read h
  simp only [write]
  rcases Nat.lt_or_ge (x - a).toNat n with hlt | hge
  · have hbs := getElem?_of_read h hlt
    rw [← eq_add_ofNat] at hbs
    rw [List.getElem?_eq_getElem (hlen ▸ hlt), Option.some_or, ← List.getElem?_eq_getElem (hlen ▸ hlt), hbs, hx]
  · rw [List.getElem?_eq_none (hlen ▸ hge), List.getElem?_eq_none (hfront ▸ hge), Option.none_or, Option.none_or]

/-- **The rest of a word.**  Bytes that are written back as they were change nothing. -/
theorem write_keep {word : List UInt8} (h : Holds m a word) :
    write m a (front ++ word.drop front.length) = write m a front := by
  funext x
  simp only [write]
  rcases Nat.lt_or_ge (x - a).toNat front.length with hlt | hge
  · rw [List.getElem?_append_left hlt]
  · rw [List.getElem?_append_right hge, List.getElem?_drop, Nat.add_sub_cancel' hge, List.getElem?_eq_none hge,
      Option.none_or]
    rcases Nat.lt_or_ge (x - a).toNat word.length with hword | hword
    · have hat := h _ hword
      rw [← eq_add_ofNat] at hat
      rw [← hat, Option.or_self]
    · rw [List.getElem?_eq_none hword, Option.none_or]

/-! ### A part of the memory -/

variable {owned : Set UInt64} {m' : Memory}

/-- An owned byte is kept. -/
theorem restrict_of_mem (h : x ∈ owned) : restrict owned m x = m x := if_pos h

/-- A byte that is not owned is hidden. -/
theorem restrict_of_not_mem (h : x ∉ owned) : restrict owned m x = none := if_neg h

/-- What a restriction shows is in the memory. -/
theorem eq_of_restrict {b : UInt8} (h : restrict owned m x = some b) : m x = some b := by
  by_cases hx : x ∈ owned
  · rwa [restrict_of_mem hx] at h
  · rw [restrict_of_not_mem hx] at h
    cases h

/-- A restriction depends on the owned bytes only. -/
theorem restrict_congr (h : ∀ x ∈ owned, m' x = m x) : restrict owned m' = restrict owned m := by
  funext x
  by_cases hx : x ∈ owned
  · rw [restrict_of_mem hx, restrict_of_mem hx, h x hx]
  · rw [restrict_of_not_mem hx, restrict_of_not_mem hx]

/-- What owned memory holds is held. -/
theorem Holds.of_restrict (h : Holds (restrict owned m) a bs) : Holds m a bs := by
  intro i hi
  have hat := h i hi
  rw [List.getElem?_eq_getElem hi] at hat ⊢
  exact eq_of_restrict hat

/-- What is read from owned memory is read. -/
theorem read_of_restrict (h : read (restrict owned m) a n = some bs) : read m a n = some bs := by
  induction n generalizing a bs with
  | zero => exact h
  | succ n ih =>
    simp only [read] at h
    split at h
    · next b rest hb hrest =>
      cases h
      simp only [read, eq_of_restrict hb, ih hrest]
    · cases h

/-- A range that is read is mapped. -/
theorem mapped_of_read (h : read m a n = some bs) : Mapped m a n := by
  intro i hi
  rw [← getElem?_of_read h hi, List.getElem?_eq_getElem (length_of_read h ▸ hi)]
  rfl

/-- A block that is written to what is owned. -/
theorem restrict_write (h : Mapped (restrict owned m) a bs.length) :
    restrict owned (write m a bs) = write (restrict owned m) a bs := by
  funext x
  by_cases hx : x ∈ owned
  · rw [restrict_of_mem hx, write, write, restrict_of_mem hx]
  · rw [restrict_of_not_mem hx, write, restrict_of_not_mem hx, Option.or_none]
    rcases Nat.lt_or_ge (x - a).toNat bs.length with hlt | hge
    · have hmapped := h _ hlt
      rw [← eq_add_ofNat, restrict_of_not_mem hx] at hmapped
      cases hmapped
    · rw [List.getElem?_eq_none hge]

/-- A write into owned memory leaves what is not owned. -/
theorem write_of_not_mem (h : Mapped (restrict owned m) a bs.length) (hx : x ∉ owned) : write m a bs x = m x := by
  apply write_frame
  by_contra hlt
  have hmapped := h (x - a).toNat (by omega)
  rw [← eq_add_ofNat, restrict_of_not_mem hx] at hmapped
  cases hmapped

end ByteMemory
