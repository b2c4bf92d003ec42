/-
# The traced thread at work

The helper runs a thread of the target up to a breakpoint and sets its registers back.
`Course` is what has to be known of the thread on the way, whatever turns the other tasks take
meanwhile; `yields_executeRegisters` turns it into what the helper gets back, and
`yields_remoteSyscall` does so for a system call.
-/

import Pydump.Injector.Restoring
import Pydump.Injector.TargetSpec

namespace Pydump
namespace Injector

open ByteMemory (Holds Mapped Memory restrict)
open Deferred (Ensures Yields)
open X64 (At at_of_holds)

variable {κ α : Type} {kernel : Kernel κ Amd64Registers} {world : κ → World} {text : Set UInt64} {pid : ℤ}
  {ghost t : Tracee κ Amd64Registers} {B : Target → Prop} {C : UInt64 → Target → Prop}
  {J : Amd64Registers → Target → Prop} {regs : Amd64Registers} {w w' : World}

/-! ### Turns -/

/-- What no turn of a task takes away, and where none changes the text. -/
structure Enduring (text : Set UInt64) (B : Target → Prop) : Prop where
  turn : ∀ {t t' : Target}, B t → t.Turn text t' → B t'
  text_kept : ∀ {t t' : Target}, B t → t.Turn text t' → ∀ x ∈ text, t'.memory x = t.memory x

/-- What does not depend on the text. -/
structure Beside (text : Set UInt64) (B : Target → Prop) : Prop where
  rewrite : ∀ {t : Target} {m : Memory}, B t → (∀ x ∉ text, m x = t.memory x) → B { t with memory := m }

/-- The thread does not run, and has these registers. -/
structure Settled (regs : Amd64Registers) (B : Target → Prop) (w : World) : Prop where
  mode : w.mode.halted = some regs
  target : B w.target

/-- What is known of the thread while it runs, and when a breakpoint stops it. -/
structure Course (text : Set UInt64) (J : Amd64Registers → Target → Prop) (C : UInt64 → Target → Prop) : Prop where
  turn : ∀ {regs : Amd64Registers} {t t' : Target}, J regs t → t.Turn text t' → J regs t'
  runs : ∀ {regs after : Amd64Registers} {t : Target} {m : Memory}, J regs t → X64.step t.memory regs = .runs after m →
    J after { t with memory := m }
  calls : ∀ {regs behind after : Amd64Registers} {t t' : Target}, J regs t → X64.step t.memory regs = .calls behind →
    Syscall text behind t after t' → J after t'
  traps : ∀ {regs behind : Amd64Registers} {t : Target}, J regs t → X64.step t.memory regs = .traps behind →
    C (behind.get .rax) t
  endures : ∀ value, Enduring text (C value)

/-- The thread runs, or a breakpoint has stopped it behind what it was to do. -/
structure Running (J : Amd64Registers → Target → Prop) (C : UInt64 → Target → Prop) (w : World) : Prop where
  held : w.mode ≠ .free
  running : ∀ regs, w.mode = .running regs → J regs w.target
  trapped : ∀ regs, w.mode = .trapped regs → C (regs.get .rax) w.target

/-- A settled thread stays settled. -/
theorem Settled.turns (hB : Enduring text B) (h : Settled regs B w) (hturns : World.Turns text w w') :
    Settled regs B w' := by
  induction hturns with
  | refl => exact h
  | tail _ hturn ih =>
    obtain ⟨hmode, htarget⟩ := ih
    cases hturn with
    | tasks turn => exact ⟨hmode, hB.turn htarget turn⟩
    | runs | calls | traps | stops | attached => simp [Mode.halted] at hmode

/-- **A run of the thread**, with all that happens meanwhile. -/
theorem Running.turns (hcourse : Course text J C) (h : Running J C w) (hturns : World.Turns text w w') :
    Running J C w' := by
  induction hturns with
  | refl => exact h
  | tail _ hturn ih =>
    obtain ⟨hheld, hrunning, htrapped⟩ := ih
    cases hturn with
    | tasks turn =>
      exact ⟨hheld, fun regs hmode => hcourse.turn (hrunning regs hmode) turn,
        fun regs hmode => (hcourse.endures _).turn (htrapped regs hmode) turn⟩
    | runs step =>
      refine ⟨nofun, fun regs hmode => ?_, nofun⟩
      cases hmode
      exact hcourse.runs (hrunning _ rfl) step
    | calls step syscall =>
      refine ⟨nofun, fun regs hmode => ?_, nofun⟩
      cases hmode
      exact hcourse.calls (hrunning _ rfl) step syscall
    | traps step =>
      refine ⟨nofun, nofun, fun regs hmode => ?_⟩
      cases hmode
      exact hcourse.traps (hrunning _ rfl) step
    | stops => exact ⟨nofun, nofun, nofun⟩
    | attached => exact absurd rfl hheld

/-! ### Calls of the kernel -/

/-- The helper has these values, and the world is as `P` says. -/
structure Seen (world : κ → World) (ghost : Tracee κ Amd64Registers) (P : World → Prop) (t : Tracee κ Amd64Registers) :
    Prop where
  frame : t = { ghost with system := t.system }
  view : P (world t.system)

/-- A call of the kernel with its answer. -/
theorem yields_call {f : κ → Except Failure α × κ} {P : World → Prop} {Q : α → World → Prop}
    (h : ∀ s a s', P (world s) → f s = (.ok a, s') → Q a (world s')) :
    Yields (Seen world ghost P) (call f) fun a => Seen world ghost (Q a) := by
  refine ensures_call (fun t a s ht hrun => ⟨?_, h _ _ _ ht.view hrun⟩) fun _ _ _ _ _ => trivial
  rw [ht.frame]

/-- The helper reads its own values. -/
theorem yields_get_bind {P : World → Prop} {Q : α → Tracee κ Amd64Registers → Prop}
    {f : Tracee κ Amd64Registers → Injection κ Amd64Registers α}
    (h : ∀ t, t = { ghost with system := t.system } → Yields (Seen world ghost P) (f t) Q) :
    Yields (Seen world ghost P) (get >>= f) Q :=
  Ensures.get_bind fun t ht => (h t ht.frame).mono (fun _ hs => hs ▸ ht) (fun _ _ => id) fun _ _ => id

/-- A result is passed on or fails. -/
theorem yields_returned {x : Except Failure α} {P : Tracee κ Amd64Registers → Prop} :
    Yields P (returned x : Injection κ Amd64Registers α) fun a t => P t ∧ x = .ok a := by
  cases x with
  | error e => exact Yields.throw
  | ok a => exact Ensures.pure fun t ht => ⟨ht, rfl⟩

/-- Where the helper goes on only if nothing is wrong. -/
theorem yields_ite_raise {c : Prop} [Decidable c] {message : String} {P : Tracee κ Amd64Registers → Prop}
    {m : Injection κ Amd64Registers α} {Q : α → Tracee κ Amd64Registers → Prop} (h : ¬c → Yields P m Q) :
    Yields P (if c then raise message else m) Q :=
  Ensures.ite (fun _ => Yields.throw) h

section

variable (hkernel : kernel.Drives world text)
include hkernel

omit hkernel in
/-- A call that only takes time. -/
theorem yields_leaving {f : κ → Except Failure α × κ} (hB : Enduring text B)
    (hf : ∀ s a s', f s = (.ok a, s') → World.Turns text (world s) (world s')) :
    Yields (Seen world ghost (Settled regs B)) (call f) fun _ => Seen world ghost (Settled regs B) :=
  yields_call fun _ _ _ hP hrun => hP.turns hB (hf _ _ _ hrun)

/-- The registers are those that were set. -/
theorem yields_setRegisters (hB : Enduring text B) (after : Amd64Registers) :
    Yields (Seen world ghost (Settled regs B)) (call (kernel.setRegisters after))
      fun _ => Seen world ghost (Settled after B) := by
  refine yields_call fun s _ s' hP hrun => ?_
  obtain ⟨w, hto, -, hfrom⟩ := hkernel.setRegisters after s s' hrun
  have hset : Settled after B ⟨.stopped after, w.target⟩ := ⟨rfl, (hP.turns hB hto).target⟩
  exact hset.turns hB hfrom

/-- A poke changes the memory alone. -/
theorem yields_poke {B' : Target → Prop} (hB : Enduring text B) (hB' : Enduring text B') {address : UInt64}
    {data : List UInt8} (hpoke : ∀ t, B t → Mapped t.memory address data.length →
      B' { t with memory := ByteMemory.write t.memory address data }) :
    Yields (Seen world ghost (Settled regs B)) (call (kernel.poke address data))
      fun _ => Seen world ghost (Settled regs B') := by
  refine yields_call fun s _ s' hP hrun => ?_
  obtain ⟨w, hto, hmapped, hfrom⟩ := hkernel.poke address data s s' hrun
  obtain ⟨hmode, htarget⟩ := hP.turns hB hto
  have hpoked : Settled regs B' ⟨w.mode, { w.target with memory := ByteMemory.write w.target.memory address data }⟩ :=
    ⟨hmode, hpoke _ htarget hmapped⟩
  exact hpoked.turns hB' hfrom

/-- A word that is read, with what is known where it is read. -/
theorem yields_peek {D : List UInt8 → Target → Prop} (hB : Enduring text B) (hD : ∀ data, Enduring text (D data))
    {address : UInt64} {n : ℕ} (hpeek : ∀ t data, B t → ByteMemory.read t.memory address n = some data → D data t) :
    Yields (Seen world ghost (Settled regs B)) (call (kernel.peek address n))
      fun data => Seen world ghost (Settled regs (D data)) := by
  refine yields_call fun s data s' hP hrun => ?_
  obtain ⟨w, hto, hread, hfrom⟩ := hkernel.peek address n s data s' hrun
  obtain ⟨hmode, htarget⟩ := hP.turns hB hto
  have hseen : Settled regs (D data) w := ⟨hmode, hpeek _ _ htarget hread⟩
  exact hseen.turns (hD data) hfrom

/-! ### A run up to a breakpoint -/

/-- `runRegisters` returns at the end of the course. -/
theorem yields_runRegisters (hB : Enduring text B) (hcourse : Course text J C) (hstart : ∀ t, B t → J regs t) :
    Yields (Seen world ghost (Settled ghost.regs B)) (runRegisters kernel Amd64.arch pid regs)
      fun value => Seen world ghost fun w => ∃ completed, Settled completed (C value) w := by
  refine (yields_setRegisters hkernel hB regs).wrapping_const.bind fun _ => ?_
  refine Ensures.bind (Q := fun _ => Seen world ghost (Running J C)) (Ensures.wrapping_const (yields_call ?_))
    fun _ => ?_
  · intro s _ s' hP hrun
    obtain ⟨w, regs', hto, hhalted, hfrom⟩ := hkernel.cont s s' hrun
    obtain ⟨hmode, htarget⟩ := hP.turns hB hto
    obtain rfl : regs' = regs := Option.some.inj (hhalted.symm.trans hmode)
    have hgoes : Running J C ⟨.running regs', w.target⟩ :=
      ⟨nofun, fun regs hregs => by cases hregs; exact hstart _ htarget, nofun⟩
    exact hgoes.turns hcourse hfrom
  -- the breakpoint is behind what the thread was to do
  refine Ensures.bind (Q := fun status => Seen world ghost fun w => stopSignal status = SIGTRAP →
    ∃ completed, Settled completed (C (completed.get .rax)) w) (Ensures.wrapping_const (yields_call ?_))
      fun status => ?_
  · intro s status s' hP hrun hsignal
    have hend := hP.turns hcourse (hkernel.wait s status s' hrun)
    obtain ⟨completed, hmode⟩ := hkernel.trapped s status s' hrun hsignal
    exact ⟨completed, by rw [hmode]; rfl, hend.trapped completed hmode⟩
  refine yields_ite_raise fun hgood => ?_
  have hsignal : stopSignal status = SIGTRAP := by
    by_contra hne
    exact hgood (.inr hne)
  refine Ensures.bind (Q := fun completed => Seen world ghost (Settled completed (C (completed.get .rax))))
    (Ensures.wrapping_const (yields_call ?_)) fun completed => ?_
  · intro s completed s' hP hrun
    obtain ⟨regs', hsettled⟩ := hP hsignal
    obtain ⟨hturns, hhalted⟩ := hkernel.getRegisters s completed s' hrun
    have hstill := hsettled.turns (hcourse.endures _) hturns
    obtain rfl : completed = regs' := Option.some.inj (hhalted.symm.trans hstill.mode)
    exact hstill
  · exact Ensures.pure fun t ht => ⟨ht.frame, completed, ht.view⟩

/-- **The helper runs the thread** and gets what is in its result register. -/
theorem yields_executeRegisters (hB : Enduring text B) (hcourse : Course text J C) (hstart : ∀ t, B t → J regs t) :
    Yields (Seen world ghost (Settled ghost.regs B)) (executeRegisters kernel Amd64.arch pid regs)
      fun value => Seen world ghost (Settled ghost.regs (C value)) := by
  refine Yields.closing (yields_runRegisters hkernel hB hcourse hstart) fun value => yields_get_bind fun t ht => ?_
  have hregs : t.regs = ghost.regs := by rw [ht]
  rw [hregs]
  have hback : ∀ completed, Yields (Seen world ghost (Settled completed (C value)))
      (within "restore general registers" (call (kernel.setRegisters ghost.regs)))
      fun _ => Seen world ghost (Settled ghost.regs (C value)) := fun completed =>
    (yields_setRegisters hkernel (hcourse.endures value) ghost.regs).wrapping_const
  exact (Ensures.choosing hback).mono (fun _ h => h.view.imp fun completed hview => ⟨h.frame, hview⟩) (fun _ _ => id)
    fun _ _ => id

/-! ### A system call -/

omit hkernel in
/-- A write into the text leaves the rest. -/
theorem write_text {m : Memory} {address : UInt64} {data : List UInt8}
    (hdata : ∀ i < data.length, address + .ofNat i ∈ text) (x : UInt64) (hx : x ∉ text) :
    ByteMemory.write m address data x = m x := by
  refine ByteMemory.write_frame (Nat.le_of_not_lt fun hlt => hx ?_)
  rw [ByteMemory.eq_add_ofNat x address]
  exact hdata _ hlt

omit hkernel in
/-- What stands in the text stays while the text does. -/
theorem holds_of_text {m m' : Memory} {address : UInt64} {data : List UInt8} (h : Holds m address data)
    (hdata : ∀ i < data.length, address + .ofNat i ∈ text) (hkept : ∀ x ∈ text, m' x = m x) : Holds m' address data :=
  fun i hi => (hkept _ (hdata i hi)).trans (h i hi)

/-- A stub in the text is run in place of what stands there. -/
theorem yields_execute {stub : List UInt8} (hB : Enduring text B) (hbeside : Beside text B)
    (hcourse : Course text J C) (hC : ∀ value, Beside text (C value))
    (hstub : ∀ i < stub.length, ghost.code + .ofNat i ∈ text) (hlen : stub.length ≤ 2 ^ 64)
    (hstart : ∀ t, B t → Holds t.memory ghost.code stub → J regs t) :
    Yields (Seen world ghost (Settled ghost.regs B)) (execute kernel Amd64.arch pid regs stub)
      fun value => Seen world ghost (Settled ghost.regs (C value)) := by
  refine yields_get_bind fun t ht => ?_
  have hcode : t.code = ghost.code := by rw [ht]
  rw [hcode]
  have hpeek : Yields (Seen world ghost (Settled ghost.regs B)) (call (kernel.peek ghost.code stub.length))
      fun backup => fun t => Seen world ghost (Settled ghost.regs B) t ∧ backup.length = stub.length := by
    refine (yields_peek (D := fun backup t => B t ∧ backup.length = stub.length) hkernel hB (fun backup => ?_) ?_).mono
      (fun _ => id) (fun backup t h => ?_) fun _ _ => id
    · exact ⟨fun h hturn => ⟨hB.turn h.1 hturn, h.2⟩, fun h hturn => hB.text_kept h.1 hturn⟩
    · exact fun t data h hread => ⟨h, ByteMemory.length_of_read hread⟩
    · exact ⟨⟨h.frame, h.view.mode, h.view.target.1⟩, h.view.target.2⟩
  refine hpeek.wrapping_const.bind fun backup => Ensures.assuming fun hlength => ?_
  -- the stub stands in the text until the backup is written
  have hwritten : Enduring text fun t => B t ∧ Holds t.memory ghost.code stub :=
    ⟨fun h hturn => ⟨hB.turn h.1 hturn, holds_of_text h.2 hstub (hB.text_kept h.1 hturn)⟩,
      fun h hturn => hB.text_kept h.1 hturn⟩
  refine (yields_poke hkernel hB hwritten fun t h _ =>
    ⟨hbeside.rewrite h (write_text hstub), ByteMemory.holds_write hlen⟩).wrapping_const.bind
    fun _ => ?_
  refine Yields.closing (yields_executeRegisters hkernel hwritten hcourse fun t h => hstart t h.1 h.2) fun value =>
    yields_get_bind fun t ht => ?_
  have hcode : t.code = ghost.code := by rw [ht]
  rw [hcode]
  exact (yields_poke hkernel (hcourse.endures value) (hcourse.endures value)
    fun t h _ => (hC value).rewrite h (write_text (hlength ▸ hstub))).wrapping_const

/-- The thread at the system call of the stub, or behind it. -/
inductive AtSyscall (code : UInt64) (prepared : Amd64Registers) (B : Target → Prop) (C : UInt64 → Target → Prop)
    (regs : Amd64Registers) (t : Target) : Prop
  | before (stub : Holds t.memory code Amd64.syscallStub) (registers : regs = prepared) (target : B t)
  | behind (stub : Holds t.memory code Amd64.syscallStub) (rip : regs.rip = code + .ofNat 2)
    (target : C (regs.get .rax) t)

omit hkernel in
/-- The system call stands at the code. -/
theorem AtSyscall.at_before {code : UInt64} {prepared : Amd64Registers} {m : Memory} (hrip : prepared.rip = code)
    (h : Holds m code Amd64.syscallStub) : At m prepared .syscall 2 :=
  at_of_holds (k := 0) [0x0F, 0x05] h rfl (hrip.trans (UInt64.add_zero code).symm) (by decide) (by decide) fun _ => rfl

omit hkernel in
/-- The breakpoint stands behind the system call. -/
theorem AtSyscall.at_behind {code : UInt64} {m : Memory} (hrip : regs.rip = code + .ofNat 2)
    (h : Holds m code Amd64.syscallStub) : At m regs .int3 1 :=
  at_of_holds (k := 2) [0xCC] h rfl hrip (by decide) (by decide) fun _ => rfl

omit hkernel in
/-- **The thread makes one system call** and traps. -/
theorem course_syscall {code : UInt64} {prepared : Amd64Registers} (hB : Enduring text B)
    (hC : ∀ value, Enduring text (C value))
    (hrip : prepared.rip = code) (hcode : ∀ i < Amd64.syscallStub.length, code + .ofNat i ∈ text)
    (hcalls : ∀ {t t' : Target} {after : Amd64Registers}, B t →
      Syscall text (prepared.goto (code + .ofNat 2)) t after t' →
      C (after.get .rax) t' ∧ after.rip = code + .ofNat 2 ∧ ∀ x ∈ text, t'.memory x = t.memory x) :
    Course text (AtSyscall code prepared B C) C where
  turn h hturn := by
    cases h with
    | before stub registers target =>
      exact .before (holds_of_text stub hcode (hB.text_kept target hturn)) registers (hB.turn target hturn)
    | behind stub rip target =>
      exact .behind (holds_of_text stub hcode ((hC _).text_kept target hturn)) rip ((hC _).turn target hturn)
  runs h hstep := by
    cases h with
    | before stub registers target =>
      subst registers
      rw [(AtSyscall.at_before hrip stub).step] at hstep
      cases hstep
    | behind stub rip target =>
      rw [(AtSyscall.at_behind rip stub).step] at hstep
      cases hstep
  calls h hstep hsyscall := by
    cases h with
    | before stub registers target =>
      subst registers
      rw [(AtSyscall.at_before hrip stub).step, hrip] at hstep
      cases hstep
      obtain ⟨hresult, hbehind, hkept⟩ := hcalls target hsyscall
      exact .behind (holds_of_text stub hcode hkept) hbehind hresult
    | behind stub rip target =>
      rw [(AtSyscall.at_behind rip stub).step] at hstep
      cases hstep
  traps h hstep := by
    cases h with
    | before stub registers target =>
      subst registers
      rw [(AtSyscall.at_before hrip stub).step] at hstep
      cases hstep
    | behind stub rip target =>
      rw [(AtSyscall.at_behind rip stub).step] at hstep
      cases hstep
      rwa [X64.Registers.get_goto]
  endures := hC

/-- **A system call in the thread**, where it does not fail. -/
theorem yields_remoteSyscall {number : UInt64} {arguments : List UInt64} (hB : Enduring text B)
    (hbeside : Beside text B) (hC : ∀ value, Enduring text (C value) ∧ Beside text (C value))
    (hcode : ∀ i < Amd64.syscallStub.length, ghost.code + .ofNat i ∈ text)
    (hcalls : ∀ {t t' : Target} {after : Amd64Registers}, B t →
      Syscall text ((Amd64.prepareSyscall ghost.regs ghost.code number arguments).goto (ghost.code + .ofNat 2)) t after
        t' →
        C (after.get .rax) t' ∧ after.rip = ghost.code + .ofNat 2 ∧ ∀ x ∈ text, t'.memory x = t.memory x) :
    Yields (Seen world ghost (Settled ghost.regs B)) (remoteSyscall kernel Amd64.arch pid number arguments)
      fun value => fun t => Seen world ghost (Settled ghost.regs (C value)) t ∧ ¬IsErrno value := by
  refine yields_get_bind fun t ht => ?_
  have hregs : t.regs = ghost.regs := by rw [ht]
  have hentry : t.code = ghost.code := by rw [ht]
  rw [hregs, hentry]
  have hcourse : Course text (AtSyscall ghost.code (Amd64.prepareSyscall ghost.regs ghost.code number arguments) B C)
    C :=
    course_syscall hB (fun value => (hC value).1) rfl hcode hcalls
  refine (yields_execute hkernel hB hbeside hcourse (fun value => (hC value).2) hcode
    (by decide) fun t h hstub => .before hstub rfl h).bind fun result => ?_
  refine Ensures.ite (fun _ => Yields.throw) fun hresult => Ensures.pure fun t h => ⟨h, hresult⟩

end

end Injector
end Pydump
