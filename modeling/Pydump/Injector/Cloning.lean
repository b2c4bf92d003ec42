/-
# A region, its blocks and its clones

What the helper gets from its operations in the target, on amd64: a region that is mapped and
unmapped, blocks that stand in it, a clone that starts on it, and the result that the clone's
child leaves there.  A result is taken for one only when the function has returned it, and by
then, as long as such a child gets to its exit while the helper sleeps, the child is gone
(`yields_pollResult`).
-/

import Pydump.Injector.Thread

namespace Pydump
namespace Injector

open ByteMemory (Holds Mapped Memory restrict)
open Deferred (Ensures Yields closing keepFirst outcome)
open X64 (At Passes at_of_holds exec loadWord)

variable {κ α : Type} {kernel : Kernel κ Amd64Registers} {world : κ → World} {text : Set UInt64} {pid : ℤ}
  {ghost t : Tracee κ Amd64Registers} {base : UInt64} {part : Memory} {events : List Event} {region : Option UInt64}
  {regs : Amd64Registers}

/-! ### What endures -/

/-- A quiet region stays quiet. -/
theorem quiet_enduring : Enduring text (Quiet text region part events) :=
  ⟨fun h hturn => h.turn hturn, fun h hturn => h.text_kept hturn⟩

/-- A quiet region does not depend on the text. -/
theorem quiet_beside : Beside text (Quiet text region part events) where
  rewrite h hm :=
    ⟨h.mapping, h.apart, (ByteMemory.restrict_congr fun x hx => hm x fun htext => h.apart x htext hx).trans h.reads,
      h.no_child, h.history⟩

/-- One of two conditions endures. -/
theorem Enduring.or {B B' : Target → Prop} (h : Enduring text B) (h' : Enduring text B') :
    Enduring text fun t => B t ∨ B' t where
  turn hB hturn := hB.imp (h.turn · hturn) (h'.turn · hturn)
  text_kept hB hturn := hB.elim (h.text_kept · hturn) (h'.text_kept · hturn)

/-- A condition endures under an assumption. -/
theorem Enduring.given {B : Target → Prop} (c : Prop) (h : Enduring text B) : Enduring text fun t => c ∧ B t where
  turn hB hturn := ⟨hB.1, h.turn hB.2 hturn⟩
  text_kept hB hturn := h.text_kept hB.2 hturn

/-- A condition endures for some value. -/
theorem Enduring.exists {ι : Sort*} {B : ι → Target → Prop} (h : ∀ i, Enduring text (B i)) :
    Enduring text fun t => ∃ i, B i t where
  turn hB hturn := hB.imp fun i hi => (h i).turn hi hturn
  text_kept hB hturn := hB.elim fun i hi => (h i).text_kept hi hturn

/-- One of two conditions is beside the text. -/
theorem Beside.or {B B' : Target → Prop} (h : Beside text B) (h' : Beside text B') : Beside text fun t => B t ∨ B' t :=
  ⟨fun hB hm => hB.imp (h.rewrite · hm) (h'.rewrite · hm)⟩

/-- A condition under an assumption is beside the text. -/
theorem Beside.given {B : Target → Prop} (c : Prop) (h : Beside text B) : Beside text fun t => c ∧ B t :=
  ⟨fun hB hm => ⟨hB.1, h.rewrite hB.2 hm⟩⟩

/-- A condition for some value is beside the text. -/
theorem Beside.exists {ι : Sort*} {B : ι → Target → Prop} (h : ∀ i, Beside text (B i)) :
    Beside text fun t => ∃ i, B i t :=
  ⟨fun hB hm => hB.imp fun i hi => (h i).rewrite hi hm⟩

/-! ### The region -/

/-- Nothing is mapped where nothing is looked at. -/
def nothing : Memory := fun _ => none

/-- Without a region nothing is looked at. -/
theorem restrict_own_none (m : Memory) : restrict (own none) m = nothing := by
  funext x
  exact ByteMemory.restrict_of_not_mem fun h => h

/-- The region is there, with nothing of the clones in it. -/
def Fresh (text : Set UInt64) (base : UInt64) (events : List Event) (t : Target) : Prop :=
  ∃ part, Mapped part base bootstrapSize.toNat ∧ Quiet text (some base) part events t

/-- A fresh region stays fresh. -/
theorem fresh_enduring : Enduring text (Fresh text base events) := Enduring.exists fun _ => quiet_enduring.given _

/-- A fresh region does not depend on the text. -/
theorem fresh_beside : Beside text (Fresh text base events) := Beside.exists fun _ => quiet_beside.given _

/-- A prepared system call has its number in `%rax`. -/
theorem prepared_number {code behind number : UInt64} {arguments : List UInt64} :
    ((Amd64.prepareSyscall regs code number arguments).goto behind).get .rax = number := rfl

variable (hkernel : kernel.Drives world text) (hcode : ∀ i < Amd64.syscallStub.length, ghost.code + .ofNat i ∈ text)
include hkernel hcode

/-- **The region is mapped**, on a page and beside the text. -/
theorem yields_mmap : Yields (Seen world ghost (Settled ghost.regs (Quiet text none nothing events)))
    (mmap kernel Amd64.arch pid bootstrapSize)
    fun base => fun t => Seen world ghost (Settled ghost.regs (Fresh text base events)) t ∧
      base.toNat % pageSize = 0 := by
  let C (value : UInt64) (t : Target) : Prop :=
    (IsErrno value ∧ Quiet text none nothing events t) ∨ (value.toNat % pageSize = 0 ∧ Fresh text value events t)
  have hC : ∀ value, Enduring text (C value) ∧ Beside text (C value) := fun value =>
    ⟨(quiet_enduring.given _).or (fresh_enduring.given _), (quiet_beside.given _).or (fresh_beside.given _)⟩
  refine (yields_remoteSyscall hkernel quiet_enduring quiet_beside hC hcode ?_).mono (fun _ => id) (fun value t h => ?_)
    fun _ _ => id
  · intro t t' after h hsyscall
    cases hsyscall with
    | fails answers errno => exact ⟨.inl (answers.rax ▸ ⟨errno, h⟩), answers.rip, fun _ _ => rfl⟩
    | @mmap base m _ number length free aligned fresh mapped elsewhere answers =>
      rw [answers.rax]
      refine ⟨.inr ⟨aligned, restrict (own (some base)) m, fun i hi => ?_, rfl, fresh, rfl, h.no_child, h.history⟩,
        answers.rip, fun x hx => elsewhere x (fresh x hx)⟩
      have hin : base + .ofNat i ∈ own (some base) := by
        change (base + .ofNat i - base).toNat < bootstrapSize.toNat
        have hsize : bootstrapSize.toNat < 2 ^ 64 := bootstrapSize.toNat_lt
        rwa [toNat_sub_base base (by omega)]
      rw [ByteMemory.restrict_of_mem hin]
      exact mapped i hi
    | mprotect number | munmap number | clone number => exact absurd (prepared_number.symm.trans number) (by decide)
  · obtain ⟨⟨hframe, hmode, htarget⟩, hgood⟩ := h
    rcases htarget with ⟨herror, -⟩ | ⟨haligned, hfresh⟩
    · exact absurd herror hgood
    · exact ⟨⟨hframe, hmode, hfresh⟩, haligned⟩

/-- `mprotect` leaves the region fresh. -/
theorem yields_mprotect (address length protection : UInt64) :
    Yields (Seen world ghost (Settled ghost.regs (Fresh text base events)))
      (mprotect kernel Amd64.arch pid address length protection)
      fun _ => Seen world ghost (Settled ghost.regs (Fresh text base events)) := by
  refine (yields_remoteSyscall (C := fun _ => Fresh text base events) hkernel fresh_enduring fresh_beside
    (fun _ => ⟨fresh_enduring, fresh_beside⟩) hcode ?_).bind fun result => yields_ite_raise fun _ =>
      Ensures.pure fun t h => h.1
  intro t t' after h hsyscall
  cases hsyscall with
  | fails answers => exact ⟨h, answers.rip, fun _ _ => rfl⟩
  | mprotect number answers => exact ⟨h, answers.rip, fun _ _ => rfl⟩
  | mmap number | munmap number | clone number => exact absurd (prepared_number.symm.trans number) (by decide)

/-- **The region is unmapped.** -/
theorem yields_munmap : Yields (Seen world ghost (Settled ghost.regs (Fresh text base events)))
    (munmap kernel Amd64.arch pid base bootstrapSize)
    fun _ => Seen world ghost (Settled ghost.regs (Quiet text none nothing events)) := by
  let C (value : UInt64) (t : Target) : Prop :=
    (IsErrno value ∧ Fresh text base events t) ∨ Quiet text none nothing events t
  have hC : ∀ value, Enduring text (C value) ∧ Beside text (C value) := fun value =>
    ⟨(fresh_enduring.given _).or quiet_enduring, (fresh_beside.given _).or quiet_beside⟩
  refine (yields_remoteSyscall hkernel fresh_enduring fresh_beside hC hcode ?_).bind fun result =>
    yields_ite_raise fun _ =>
    Ensures.pure fun t h => ?_
  · intro t t' after h hsyscall
    cases hsyscall with
    | fails answers errno => exact ⟨.inl (answers.rax ▸ ⟨errno, h⟩), answers.rip, fun _ _ => rfl⟩
    | munmap number region length elsewhere answers =>
      obtain ⟨part, -, hquiet⟩ := h
      rw [hquiet.mapping] at elsewhere
      exact ⟨.inr ⟨rfl, fun _ _ => id, restrict_own_none _, hquiet.no_child, hquiet.history⟩, answers.rip,
        fun x hx => elsewhere x (hquiet.apart x hx)⟩
    | mmap number | mprotect number | clone number => exact absurd (prepared_number.symm.trans number) (by decide)
  · obtain ⟨⟨hframe, hmode, htarget⟩, hgood⟩ := h
    exact ⟨hframe, hmode, htarget.resolve_left fun herror => hgood herror.1⟩

/-! ### Memory of the target -/

omit hkernel hcode in
/-- What was read in the region stands in `part`. -/
theorem Quiet.holds_of_read {t : Target} {address : UInt64} {n : ℕ} {data : List UInt8}
    (h : Quiet text region part events t) (hmapped : Mapped part address n)
    (hread : ByteMemory.read t.memory address n = some data) : Holds part address data := by
  intro i hi
  have hlen := ByteMemory.length_of_read hread
  have hat := hmapped i (hlen ▸ hi)
  rw [← h.reads] at hat ⊢
  have hin : address + .ofNat i ∈ own region := by
    by_contra hout
    rw [ByteMemory.restrict_of_not_mem hout] at hat
    cases hat
  rw [ByteMemory.restrict_of_mem hin, ByteMemory.getElem?_of_read hread (hlen ▸ hi)]

omit hcode in
/-- Data poked into a quiet region stands there. -/
theorem yields_pokeRegion {address : UInt64} {data : List UInt8} (hmapped : Mapped part address data.length) :
    Yields (Seen world ghost (Settled ghost.regs (Quiet text region part events))) (call (kernel.poke address data))
      fun _ => Seen world ghost (Settled ghost.regs
        (Quiet text region (ByteMemory.write part address data) events)) := by
  refine yields_poke hkernel quiet_enduring quiet_enduring fun t h _ => ⟨h.mapping, h.apart, ?_, h.no_child, h.history⟩
  dsimp only
  rw [ByteMemory.restrict_write (by rwa [h.reads]), h.reads]

omit hcode in
/-- **A block that is written to the region**, whole words of it. -/
theorem yields_writeTarget (words : ℕ) {address : UInt64} {data : List UInt8} (hlen : data.length ≤ 8 * words)
    (hwords : 8 * words < 2 ^ 64) (hmapped : Mapped part address (8 * words)) :
    Yields (Seen world ghost (Settled ghost.regs (Quiet text region part events))) (writeTarget kernel address data)
      fun _ => Seen world ghost (Settled ghost.regs
        (Quiet text region (ByteMemory.write part address data) events)) := by
  induction words generalizing part address data with
  | zero =>
    obtain rfl : data = [] := List.length_eq_zero_iff.1 (by omega)
    rw [writeTarget, dif_pos rfl, ByteMemory.write_nil]
    exact Ensures.pure fun _ h => h
  | succ words ih =>
    rw [writeTarget]
    split_ifs with hnil
    · rw [hnil, ByteMemory.write_nil]
      exact Ensures.pure fun _ h => h
    have hfirst : Mapped part address 8 := hmapped.mono (by omega)
    dsimp only
    refine Ensures.ite (fun hshort => ?_) fun hlong => ?_
    · -- what is left of the last word is peeked
      have hmin : min data.length 8 = data.length := by omega
      rw [hmin, List.take_length, List.drop_length]
      refine Ensures.bind (Q := fun word => Seen world ghost (Settled ghost.regs fun t =>
        Holds part address word ∧ word.length = 8 ∧ Quiet text region part events t)) ?_ fun word => ?_
      · refine yields_peek hkernel quiet_enduring (fun word => (quiet_enduring.given _).given _)
          fun t word h hread => ?_
        exact ⟨h.holds_of_read hfirst hread, ByteMemory.length_of_read hread, h⟩
      refine Ensures.mono (P := fun t => Seen world ghost (Settled ghost.regs (Quiet text region part events)) t ∧
        Holds part address word ∧ word.length = 8) (Ensures.assuming fun hfacts => ?_)
        (fun t h => ⟨⟨h.frame, h.view.mode, h.view.target.2.2⟩, h.view.target.1, h.view.target.2.1⟩) (fun _ _ => id)
          fun _ _ => id
      obtain ⟨hholds, hword⟩ := hfacts
      rw [pure_bind]
      have hchunk : (data ++ word.drop data.length).length = 8 := by
        rw [List.length_append, List.length_drop]
        omega
      refine (yields_pokeRegion hkernel (by rwa [hchunk])).bind fun _ => ?_
      rw [ByteMemory.write_keep hholds, writeTarget, dif_pos rfl]
      exact Ensures.pure fun _ h => h
    · have hmin : min data.length 8 = 8 := by omega
      have hchunk : (data.take 8).length = 8 := by
        rw [List.length_take]
        omega
      rw [pure_bind, hmin]
      refine (yields_pokeRegion hkernel (by rwa [hchunk])).bind fun _ => ?_
      have hrest : Mapped part (address + .ofNat 8) (8 * words) := by
        apply Mapped.drop
        rwa [Nat.add_comm, ← Nat.mul_succ]
      have hjoin := @ByteMemory.write_append part address (data.take 8) (data.drop 8)
        (by rw [hchunk, List.length_drop]; omega) (by omega)
      rw [hchunk, List.take_append_drop] at hjoin
      rw [← hjoin]
      exact ih (by rw [List.length_drop]; omega) (by omega) hrest.write

omit hkernel hcode

/-! ### The clone -/

section

variable {shellcode block : List UInt8} {offset : ℕ} {called : Call}

/-- The region with the code of a clone and its block. -/
def Loaded (text : Set UInt64) (base : UInt64) (code block : List UInt8) (events : List Event) (t : Target) : Prop :=
  ∃ part, (Ready base code part ∧ Holds part base block) ∧ Quiet text (some base) part events t

/-- A loaded region stays loaded. -/
theorem loaded_enduring {code : List UInt8} : Enduring text (Loaded text base code block events) :=
  Enduring.exists fun _ => quiet_enduring.given _

/-- What the system call answers with: an error, or the child's number. -/
def Cloned (text : Set UInt64) (base : UInt64) (code block : List UInt8) (offset : ℕ) (called : Call)
    (events : List Event) (value : UInt64) (t : Target) : Prop :=
  (IsErrno value ∧ Loaded text base code block events t) ∨
    (0 < signed value ∧ Launched text base code block offset called events t)

/-- The registers that a clone starts with, as far as it uses them. -/
structure Prepared (base : UInt64) (regs : Amd64Registers) : Prop where
  rdi : regs.get .rdi = cloneVM
  rsi : regs.get .rsi = base + .ofNat stackOffset
  r12 : regs.get .r12 = base + .ofNat (pageSize + Amd64.cloneBootstrap.length)
  r13 : regs.get .r13 = base

/-- The traced thread in `cloneBootstrap`. -/
inductive AtClone (text : Set UInt64) (base : UInt64) (code block : List UInt8) (offset : ℕ) (called : Call)
    (events : List Event) (regs : Amd64Registers) (t : Target) : Prop
  | first (rip : regs.rip = base + .ofNat (pageSize + 0)) (prepared : Prepared base regs)
    (target : Loaded text base code block events t)
  | before (rip : regs.rip = base + .ofNat (pageSize + 5)) (rax : regs.get .rax = Amd64.SYS_CLONE)
    (prepared : Prepared base regs) (target : Loaded text base code block events t)
  | behind (rip : regs.rip = base + .ofNat (pageSize + 7))
    (target : Cloned text base code block offset called events (regs.get .rax) t)
  | tested (rip : regs.rip = base + .ofNat (pageSize + 10)) (zero : regs.zero = false)
    (target : Cloned text base code block offset called events (regs.get .rax) t)
  | last (rip : regs.rip = base + .ofNat (pageSize + 12))
    (target : Cloned text base code block offset called events (regs.get .rax) t)

/-- A loaded region has its code. -/
theorem Loaded.ready {code : List UInt8} {t : Target} (h : Loaded text base code block events t) :
    Ready base code (restrict (own (some base)) t.memory) := by
  obtain ⟨part, ⟨hready, -⟩, hquiet⟩ := h
  rwa [hquiet.reads]

/-- Behind the clone the region has its code. -/
theorem Cloned.ready {code : List UInt8} {value : UInt64} {t : Target}
    (h : Cloned text base code block offset called events value t) :
    Ready base code (restrict (own (some base)) t.memory) :=
  h.elim (fun h => h.2.ready) fun h => h.2.stage.ready

/-- The answer of the clone is not zero. -/
theorem Cloned.ne_zero {code : List UInt8} {value : UInt64} {t : Target}
    (h : Cloned text base code block offset called events value t) : value ≠ 0 := by
  rintro rfl
  rcases h with ⟨herror, -⟩ | ⟨hpositive, -⟩
  · exact absurd herror.1 (by decide)
  · exact absurd hpositive (by decide)

/-- An instruction of `cloneBootstrap`, in the whole memory. -/
theorem at_bootstrap {m : Memory} {rest : List UInt8} (instruction : X64.Instruction) (k : ℕ) (bs : List UInt8)
    (h : Ready base (Amd64.cloneBootstrap ++ shellcode) (restrict (own (some base)) m))
    (hrip : regs.rip = base + .ofNat (pageSize + k)) (hdrop : (Amd64.cloneBootstrap ++ shellcode).drop k = bs ++ rest)
    (hlen : 0 < bs.length ∧ bs.length ≤ X64.maxLength)
    (hdecode : ∀ rest, X64.decode (bs ++ rest) = some (instruction, bs.length)) :
    X64.step m regs = exec instruction (regs.goto (base + .ofNat (pageSize + (k + bs.length)))) m := by
  have hat : At m regs instruction bs.length :=
    at_of_holds bs h.code.of_restrict hdrop (by rw [hrip, ByteMemory.add_ofNat_add]) hlen.2 hlen.1 hdecode
  rw [hat.step, hrip, ByteMemory.add_ofNat_add, Nat.add_assoc]

/-- The child starts where `cloneBootstrap` goes on. -/
theorem started_of_answers {child : Amd64Registers} (hprepared : Prepared base regs)
    (hrip : regs.rip = base + .ofNat (pageSize + 7)) (h : Answers (regs.set .rsp (regs.get .rsi)) 0 child) :
    Started base child := by
  obtain ⟨hrip', hrax, hkept⟩ := h
  refine ⟨by rw [hrip', X64.Registers.rip_set, hrip], hrax, ?_, ?_, ?_⟩
  · rw [hkept .rsp (by decide), X64.Registers.get_set, if_pos rfl, hprepared.rsi]
  · rw [hkept .r12 (by decide), X64.Registers.get_set, if_neg (by decide), hprepared.r12]
  · rw [hkept .r13 (by decide), X64.Registers.get_set, if_neg (by decide), hprepared.r13]

variable (hshell : Shell base (Amd64.cloneBootstrap ++ shellcode) block offset called)
include hshell

/-- A launched clone stays launched. -/
theorem launched_enduring :
    Enduring text (Launched text base (Amd64.cloneBootstrap ++ shellcode) block offset called events) :=
  ⟨fun h hturn => h.turn hshell hturn, fun h hturn => h.text_kept hshell hturn⟩

/-- What the clone has answered it has answered. -/
theorem cloned_enduring (value : UInt64) :
    Enduring text (Cloned text base (Amd64.cloneBootstrap ++ shellcode) block offset called events value) :=
  (loaded_enduring.given _).or ((launched_enduring hshell).given _)

/-- **The child starts** on the region, with the registers of its parent but for its stack. -/
theorem Loaded.clone {t : Target} {child : Amd64Registers}
    (h : Loaded text base (Amd64.cloneBootstrap ++ shellcode) block events t) (hstarted : Started base child) :
    Launched text base (Amd64.cloneBootstrap ++ shellcode) block offset called events
      { t with children := t.children ++ [.running false child] } := by
  obtain ⟨part, ⟨hready, hblock⟩, hquiet⟩ := h
  refine ⟨hquiet.mapping, hquiet.apart, ?_⟩
  dsimp only
  rw [hquiet.reads, hquiet.no_child, hquiet.history]
  exact .starting (hshell.enters hready hblock hstarted)

omit hshell

/-- What the thread does next in `cloneBootstrap`: it runs on, makes its system call, or traps. -/
inductive AtClone.Next (text : Set UInt64) (base : UInt64) (code block : List UInt8) (offset : ℕ) (called : Call)
    (events : List Event) (t : Target) : X64.Effect → Prop
  | runs {after : Amd64Registers} (there : AtClone text base code block offset called events after t) :
    Next text base code block offset called events t (.runs after t.memory)
  | calls {behind : Amd64Registers} (rip : behind.rip = base + .ofNat (pageSize + 7))
    (rax : behind.get .rax = Amd64.SYS_CLONE) (prepared : Prepared base behind)
    (target : Loaded text base code block events t) :
    Next text base code block offset called events t (.calls behind)
  | traps {behind : Amd64Registers} (target : Cloned text base code block offset called events (behind.get .rax) t) :
    Next text base code block offset called events t (.traps behind)

/-- A jump leaves what is prepared. -/
theorem Prepared.goto (h : Prepared base regs) (address : UInt64) : Prepared base (regs.goto address) := by
  constructor <;> rw [X64.Registers.get_goto]
  · exact h.rdi
  · exact h.rsi
  · exact h.r12
  · exact h.r13

/-- What the thread does next in `cloneBootstrap`. -/
theorem AtClone.next {t : Target}
    (h : AtClone text base (Amd64.cloneBootstrap ++ shellcode) block offset called events regs t) :
    AtClone.Next text base (Amd64.cloneBootstrap ++ shellcode) block offset called events t
      (X64.step t.memory regs) := by
  cases h with
  | first rip prepared target =>
    rw [at_bootstrap (.movImmediate .rax 56) 0 [0xB8, 0x38, 0, 0, 0] target.ready rip rfl (by decide) fun _ => rfl]
    exact .runs (.before (by simp) (by simp [Amd64.SYS_CLONE])
      ⟨by simp [prepared.rdi], by simp [prepared.rsi], by simp [prepared.r12], by simp [prepared.r13]⟩ target)
  | before rip rax prepared target =>
    rw [at_bootstrap .syscall 5 [0x0F, 0x05] target.ready rip rfl (by decide) fun _ => rfl]
    exact .calls (X64.Registers.rip_goto _ _) ((X64.Registers.get_goto _ _ _).trans rax) (prepared.goto _) target
  | behind rip target =>
    rw [at_bootstrap (.test .rax .rax) 7 [0x48, 0x85, 0xC0] target.ready rip rfl (by decide) fun _ => rfl]
    exact .runs (.tested (by simp) (by simp [target.ne_zero]) (by simpa using target))
  | tested rip zero target =>
    rw [at_bootstrap (.jumpZero 1) 10 [0x74, 0x01] target.ready rip rfl (by decide) fun _ => rfl]
    simp only [exec, X64.Registers.zero_goto, zero, Bool.false_eq_true, if_false]
    exact .runs (.last (by simp) (by simpa using target))
  | last rip target =>
    rw [at_bootstrap .int3 12 [0xCC] target.ready rip rfl (by decide) fun _ => rfl]
    exact .traps (by rwa [X64.Registers.get_goto])

/-- **The traced thread clones** and traps behind the system call, while the child runs. -/
theorem course_clone (hshell : Shell base (Amd64.cloneBootstrap ++ shellcode) block offset called) :
    Course text (AtClone text base (Amd64.cloneBootstrap ++ shellcode) block offset called events)
      (Cloned text base (Amd64.cloneBootstrap ++ shellcode) block offset called events) where
  turn h hturn := by
    cases h with
    | first rip prepared target => exact .first rip prepared (loaded_enduring.turn target hturn)
    | before rip rax prepared target => exact .before rip rax prepared (loaded_enduring.turn target hturn)
    | behind rip target => exact .behind rip ((cloned_enduring hshell _).turn target hturn)
    | tested rip zero target => exact .tested rip zero ((cloned_enduring hshell _).turn target hturn)
    | last rip target => exact .last rip ((cloned_enduring hshell _).turn target hturn)
  runs h hstep := by
    have hnext := h.next
    rw [hstep] at hnext
    cases hnext with
    | runs there => exact there
  calls h hstep hsyscall := by
    have hnext := h.next
    rw [hstep] at hnext
    cases hnext with
    | calls rip rax prepared target =>
      cases hsyscall with
      | fails answers errno => exact .behind (answers.rip.trans rip) (.inl ⟨answers.rax ▸ errno, target⟩)
      | clone number flags positive answers starts =>
        exact .behind (answers.rip.trans rip)
          (.inr ⟨answers.rax ▸ positive, target.clone hshell (started_of_answers prepared rip starts)⟩)
      | mmap number | mprotect number | munmap number =>
        rw [rax] at number
        exact absurd number (by decide)
  traps h hstep := by
    have hnext := h.next
    rw [hstep] at hnext
    cases hnext with
    | traps target => exact target
  endures := cloned_enduring hshell

/-- The region with a block, before a clone. -/
def Written (text : Set UInt64) (base : UInt64) (block : List UInt8) (events : List Event) (t : Target) : Prop :=
  ∃ part, (Mapped part base bootstrapSize.toNat ∧ Holds part base block) ∧ Quiet text (some base) part events t

/-- `startClone` writes the code and clones. -/
theorem yields_startClone (hkernel : kernel.Drives world text)
    (hshell : Shell base (Amd64.cloneBootstrap ++ shellcode) block offset called) :
    Yields (Seen world ghost (Settled ghost.regs (Written text base block events)))
      (Amd64.startClone kernel pid (base + .ofNat pageSize) (base + .ofNat stackOffset) base shellcode)
      fun value => Seen world ghost (Settled ghost.regs
        (Cloned text base (Amd64.cloneBootstrap ++ shellcode) block offset called events value)) := by
  have hpage : pageSize = 4096 := rfl
  have hsize := bootstrapSize_eq
  have hstack : stackOffset = 2101248 := rfl
  have hcode := hshell.code_length
  have hblock := hshell.block_length
  refine yields_ite_raise fun _ => ?_
  refine Ensures.bind (Q := fun _ => Seen world ghost (Settled ghost.regs
    (Loaded text base (Amd64.cloneBootstrap ++ shellcode) block events))) (Ensures.wrapping_const ?_) fun _ => ?_
  · refine Ensures.mono (P := fun t => ∃ part,
      Seen world ghost (Settled ghost.regs (Quiet text (some base) part events)) t ∧
      Mapped part base bootstrapSize.toNat ∧ Holds part base block)
      (Ensures.choosing fun part => Ensures.assuming fun ⟨hmapped, hholds⟩ => ?_)
      (fun t ⟨hframe, hmode, part, hpart, hquiet⟩ => ⟨part, ⟨hframe, hmode, hquiet⟩, hpart⟩) (fun _ _ => id)
        fun _ _ => id
    have hroom : Mapped part (base + .ofNat pageSize) (8 * 512) :=
      (hmapped.mono (k := pageSize + 8 * 512) (by omega)).drop
    refine (yields_writeTarget hkernel 512 (by omega) (by omega) hroom).mono (fun _ => id) (fun _ t h => ?_)
      fun _ _ => id
    refine ⟨h.frame, h.view.mode, _, ⟨⟨ByteMemory.holds_write (by omega), hmapped.write⟩, ?_⟩, h.view.target⟩
    rw [← ByteMemory.holds_add_zero] at hholds ⊢
    exact hholds.write_beside (by omega) (by omega) (by omega)
  · refine yields_get_bind fun t ht => ?_
    have hregs : t.regs = ghost.regs := by rw [ht]
    rw [hregs]
    refine yields_executeRegisters hkernel loaded_enduring (course_clone hshell) fun t h => ?_
    exact .first rfl ⟨rfl, rfl, ByteMemory.add_ofNat_add _ _ _, rfl⟩ h

/-! ### Its result -/

section

variable {code : List UInt8}

/-- The function has returned the value. -/
structure Finished (text : Set UInt64) (base : UInt64) (code block : List UInt8) (offset : ℕ) (called : Call)
    (events : List Event) (value : UInt64) (t : Target) : Prop
    extends Launched text base code block offset called events t where
  returned : ∃ entry m, t.events = events ++ [.called entry m, .returned value]

/-- The child has exited behind it. -/
def Ended (text : Set UInt64) (base : UInt64) (block : List UInt8) (called : Call) (events : List Event)
    (value : UInt64) (t : Target) : Prop :=
  ∃ entry m, Called base block called entry m ∧ Fresh text base (events ++ [.called entry m, .returned value]) t

/-- **The result word** is as the helper has left it until the function has returned. -/
theorem Stage.word (hshell : Shell base code block offset called) {children : List Child} {history : List Event}
    (h : Stage base code block offset called events part children history) :
    ∃ word, loadWord part 8 base = some word ∧
      (word = resultPending ∨ ∃ entry m, history = events ++ [.called entry m, .returned word]) := by
  cases h with
  | starting way =>
    rcases way.invariant_or_goal with hway | hthere
    · exact hway.result.imp fun word hword => ⟨hword.1, .inl hword.2⟩
    · exact ⟨_, hshell.pending hthere.block, .inl rfl⟩
  | calling _ there => exact ⟨_, hshell.pending there.block, .inl rfl⟩
  | finishing _ way =>
    rcases way.invariant_or_goal with hway | hthere
    · obtain ⟨word, hload, rfl | rfl⟩ := hway.result
      · exact ⟨_, hload, .inl rfl⟩
      · exact ⟨_, hload, .inr ⟨_, _, rfl⟩⟩
    · exact ⟨_, hthere.result, .inr ⟨_, _, rfl⟩⟩
  | exited _ _ result => exact ⟨_, result, .inr ⟨_, _, rfl⟩⟩

/-- A clone whose function has returned. -/
theorem Stage.of_returned {children : List Child} {history : List Event} {value : UInt64}
    (h : Stage base code block offset called events part children history)
    (hreturned : ∃ entry m, history = events ++ [.called entry m, .returned value]) :
    (∃ regs, children = [.running true regs]) ∨ children = [] := by
  obtain ⟨entry, m, hhistory⟩ := hreturned
  cases h with
  | starting => simp at hhistory
  | calling => simp at hhistory
  | finishing => exact .inl ⟨_, rfl⟩
  | exited => exact .inr rfl

/-- A finished call stays finished. -/
theorem Finished.turn (hshell : Shell base code block offset called) {value : UInt64} {t t' : Target}
    (h : Finished text base code block offset called events value t) (hturn : t.Turn text t') :
    Finished text base code block offset called events value t' := by
  refine ⟨h.toLaunched.turn hshell hturn, ?_⟩
  have hreturned := h.returned
  cases hturn with
  | others | runs | works | exits => exact hreturned
  | calls child | returns child =>
    rcases h.stage.of_returned hreturned with ⟨regs, hchildren⟩ | hchildren
    · rw [hchildren] at child
      simpa using (eq_of_singleton child).2.1
    · simp [hchildren] at child

/-- A finished call without children has ended. -/
theorem Finished.ended {value : UInt64} {t : Target} (h : Finished text base code block offset called events value t)
    (hchildren : t.children = []) : Ended text base block called events value t := by
  obtain ⟨⟨hmapping, hapart, hstage⟩, entry, m, hevents⟩ := h
  rw [hchildren, hevents] at hstage
  generalize hhistory : events ++ [Event.called entry m, .returned value] = history at hstage
  cases hstage with
  | exited hcalled hready =>
    obtain ⟨⟨rfl, rfl⟩, rfl⟩ : (entry = _ ∧ m = _) ∧ value = _ := by simpa using hhistory
    exact ⟨entry, m, hcalled, _, hready.mapped, hmapping, hapart, rfl, hchildren, hevents⟩

/-- What is known where the helper has read a word. -/
def Polled (text : Set UInt64) (base : UInt64) (code block : List UInt8) (offset : ℕ) (called : Call)
    (events : List Event) (word : UInt64) (t : Target) : Prop :=
  Launched text base code block offset called events t ∧
    (word ≠ resultPending → Finished text base code block offset called events word t)

/-- What is known behind a poll endures. -/
theorem polled_enduring (hshell : Shell base code block offset called) (word : UInt64) :
    Enduring text (Polled text base code block offset called events word) where
  turn h hturn := ⟨h.1.turn hshell hturn, fun hword => (h.2 hword).turn hshell hturn⟩
  text_kept h hturn := h.1.text_kept hshell hturn

/-- A poll of a launched clone reads its result word. -/
theorem Launched.polled (hshell : Shell base code block offset called) {t : Target}
    (h : Launched text base code block offset called events t) {data : List UInt8}
    (hread : ByteMemory.read t.memory base 8 = some data) :
    Polled text base code block offset called events (.ofNat (LittleEndian.decode data)) t := by
  refine ⟨h, fun hword => ⟨h, ?_⟩⟩
  obtain ⟨word, hload, hcase⟩ := h.stage.word hshell
  have hword' : word = .ofNat (LittleEndian.decode data) := by
    have hwhole := X64.loadWord_restrict hload
    rw [loadWord, hread] at hwhole
    exact (Option.some.inj hwhole).symm
  subst hword'
  exact hcase.resolve_left hword

/-- **The helper waits for the result**, and for the exit that follows it. -/
theorem yields_pollResult (hkernel : kernel.Drives world text) (hprompt : kernel.Prompt world)
    (hshell : Shell base code block offset called) (timeout : ℤ) (rounds : ℕ) :
    Yields (Seen world ghost (Settled ghost.regs (Launched text base code block offset called events)))
      (pollResult kernel base timeout rounds)
      fun value => Seen world ghost (Settled ghost.regs (Ended text base block called events value)) := by
  have hendures : Enduring text (Launched text base code block offset called events) :=
    ⟨fun h hturn => h.turn hshell hturn, fun h hturn => h.text_kept hshell hturn⟩
  induction rounds with
  | zero => exact Yields.throw
  | succ rounds ih =>
    refine Ensures.bind (Q := fun _ => Seen world ghost (Settled ghost.regs
      (Launched text base code block offset called events))) (yields_leaving hendures fun s a s' hrun => ?_)
        fun early =>
        yields_ite_raise fun _ => ?_
    · cases hrun
      exact hkernel.early s
    refine Ensures.bind (Q := fun word => Seen world ghost (Settled ghost.regs
      (Polled text base code block offset called events word))) (Ensures.wrapping_const ?_) fun word => ?_
    · refine (yields_peek (D := fun data => Polled text base code block offset called events
        (.ofNat (LittleEndian.decode data)))
        hkernel hendures (fun data => polled_enduring hshell _) fun t data h hread => h.polled hshell hread).bind
          fun data =>
          Ensures.pure fun t h => h
    refine Ensures.bind (Q := fun _ => Seen world ghost fun w => Settled ghost.regs
      (Polled text base code block offset called events word) w ∧ (word ≠ resultPending → w.target.children = []))
      (yields_call fun s a s' hP hrun => ?_) fun _ => ?_
    · -- the child of a function that has returned exits during the sleep
      cases hrun
      have hturns := hkernel.sleep s
      refine ⟨hP.turns (polled_enduring hshell _) hturns, fun hword => hprompt s fun child hchild => ?_⟩
      have hfinished := hP.target.2 hword
      rcases hfinished.stage.of_returned hfinished.returned with ⟨regs, hchildren⟩ |
        hchildren <;> rw [hchildren] at hchild
      · exact ⟨regs, List.mem_singleton.1 hchild⟩
      · cases hchild
    refine Ensures.ite (fun hword => Ensures.pure fun t h => ?_) fun hword => ?_
    · exact ⟨h.frame, h.view.1.mode, (h.view.1.target.2 hword).ended (h.view.2 hword)⟩
    · exact ih.mono (fun t h => ⟨h.frame, h.view.1.mode, h.view.1.target.1⟩) (fun _ _ => id) fun _ _ => id

end

end

end Injector
end Pydump
