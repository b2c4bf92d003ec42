/-
# What the helper leaves in the target

The helper runs its stubs in a thread of the target, with registers of its own, and on
instructions of the target that it overwrites.  `inject_restores` says that it takes all this
back: the target is detached, its thread goes on with the registers that it was stopped with,
and its text reads as before, on both architectures and on every path through `Inject`.

What is assumed of the kernel is `Kernel.Honest`: other tasks run at any time and may change
what they like, except the registers of a thread that is stopped, and the text; they may also
kill the target.  `Kernel.Obeys` is about the calls that the helper takes back with.
-/

import Pydump.Injector.ArgumentsSpec
import Pydump.Injector.Tracee

namespace Pydump
namespace Injector

open ByteMemory (Memory)
open Deferred (Ensures closing keepFirst outcome outcome_bind)

variable {κ R α : Type}

/-! ### The target -/

/-- The target in the system: the registers that its thread was stopped with, or last let go
with, its memory, and whether it is traced. -/
structure View (κ R : Type) where
  registers : κ → R
  memory : κ → Memory
  traced : κ → Bool

variable (view : View κ R) (text : Set UInt64)

/-- The text reads the same. -/
def View.SameText (s s' : κ) : Prop := ∀ x ∈ text, view.memory s' x = view.memory s x

/-- The thread would go on in `s'` as in `s`. -/
structure View.Same (s s' : κ) : Prop where
  registers : view.registers s' = view.registers s
  text : view.SameText text s s'

/-- **The target has been let go as it was stopped**: traced in `s`, and in `s'` no more, with
the registers and the text of `s`. -/
structure View.LetGo (s s' : κ) : Prop extends view.Same text s s' where
  held : view.traced s = true
  freed : view.traced s' = false

/-- A call that does nothing to the thread, whatever it answers. -/
def View.Leaves (f : κ → Except Failure α × κ) : Prop := ∀ s, view.Same text s (f s).2

/-- What `ptrace` does, and what the tasks of the target do meanwhile.  No task of the target
writes the text.  Registers are read of a tracee only, and nobody else traces the target; it
may be killed at any time. -/
structure Kernel.Honest (kernel : Kernel κ R) : Prop where
  readMaps : view.Leaves text kernel.readMaps
  readMaps_free : ∀ s, view.traced s = false → view.traced (kernel.readMaps s).2 = false
  refused : ∀ s e s', kernel.attach s = (.error e, s') → view.traced s = false → view.traced s' = false
  getRegisters : view.Leaves text kernel.getRegisters
  got : ∀ s regs s', kernel.getRegisters s = (.ok regs, s') → regs = view.registers s
  got_traced : ∀ s regs s', kernel.getRegisters s = (.ok regs, s') → view.traced s' = true
  set_text : ∀ regs s, view.SameText text s (kernel.setRegisters regs s).2
  set : ∀ regs s s', kernel.setRegisters regs s = (.ok (), s') → view.registers s' = regs
  cont : ∀ s, view.SameText text s (kernel.cont s).2
  wait : ∀ s, view.SameText text s (kernel.wait s).2
  peek : ∀ address n, view.Leaves text (kernel.peek address n)
  peeked : ∀ address n s data s', kernel.peek address n s = (.ok data, s') →
    ByteMemory.read (view.memory s) address n = some data
  poke_registers : ∀ address data s, view.registers (kernel.poke address data s).2 = view.registers s
  poke_elsewhere : ∀ address data s, ∀ x ∈ text, data.length ≤ (x - address).toNat →
    view.memory (kernel.poke address data s).2 x = view.memory s x
  poked : ∀ address data s s', kernel.poke address data s = (.ok (), s') →
    ∀ x ∈ text, view.memory s' x = ByteMemory.write (view.memory s) address data x
  detach : view.Leaves text kernel.detach
  detach_free : ∀ s, view.traced s = false → view.traced (kernel.detach s).2 = false
  detached : ∀ s s', kernel.detach s = (.ok (), s') → view.traced s' = false
  early : ∀ s, view.Same text s (kernel.early s).2
  sleep : ∀ s, view.Same text s (kernel.sleep s)

/-- A call behind which the target is traced as before. -/
def View.Holds (f : κ → α × κ) : Prop := ∀ s, view.traced s = true → view.traced (f s).2 = true

/-- A kernel that does not refuse what the helper takes back with, and a target that nobody
takes from the helper. -/
structure Kernel.Obeys (kernel : Kernel κ R) (code : UInt64) : Prop where
  setRegisters : ∀ regs s, view.traced s = true → (kernel.setRegisters regs s).1 = .ok ()
  poke : ∀ data s, view.traced s = true → (kernel.poke code data s).1 = .ok ()
  detach : ∀ s, view.traced s = true → (kernel.detach s).1 = .ok ()
  readMaps_holds : view.Holds kernel.readMaps
  getRegisters_holds : view.Holds kernel.getRegisters
  setRegisters_holds : ∀ regs, view.Holds (kernel.setRegisters regs)
  cont_holds : view.Holds kernel.cont
  wait_holds : view.Holds kernel.wait
  peek_holds : ∀ address n, view.Holds (kernel.peek address n)
  poke_holds : ∀ address data, view.Holds (kernel.poke address data)
  early_holds : view.Holds kernel.early
  sleep_holds : ∀ s, view.traced s = true → view.traced (kernel.sleep s) = true

/-- What the helper goes back to: the registers and the memory that it found, and where its
stubs stand. -/
structure Snapshot (R : Type) where
  registers : R
  memory : Memory
  code : UInt64

/-- The helper holds the target, whose text is that of the snapshot. -/
structure Held (kernel : Kernel κ R) (kept : Snapshot R) (t : Tracee κ R) : Prop where
  text : ∀ x ∈ text, view.memory t.system x = kept.memory x
  regs : t.regs = kept.registers
  code : t.code = kept.code
  attached : t.attached = true
  traced : kernel.Obeys view kept.code → view.traced t.system = true

/-- … and its thread is stopped with the registers that are saved. -/
structure Stopped (kernel : Kernel κ R) (kept : Snapshot R) (t : Tracee κ R) : Prop
    extends Held view text kernel kept t where
  registers : view.registers t.system = kept.registers

/-- A part of `Inject` that leaves the thread stopped as it was. -/
def Stays (kernel : Kernel κ R) (kept : Snapshot R) (m : Injection κ R α) : Prop :=
  Ensures (Stopped view text kernel kept) m (fun _ => Stopped view text kernel kept)
    fun _ t => kernel.Obeys view kept.code → Stopped view text kernel kept t

variable {view text}

section

variable {kernel : Kernel κ R} {arch : Arch R} {pid : ℤ} {kept : Snapshot R} {t : Tracee κ R} {s : κ}

/-- The helper holds the target where the text reads the same and the target is still traced. -/
theorem Held.system (h : Held view text kernel kept t) (hs : view.SameText text t.system s)
    (htraced : kernel.Obeys view kept.code → view.traced t.system = true → view.traced s = true) :
    Held view text kernel kept { t with system := s } where
  text x hx := (hs x hx).trans (h.text x hx)
  regs := h.regs
  code := h.code
  attached := h.attached
  traced hobeys := htraced hobeys (h.traced hobeys)

/-- The thread stays stopped where its registers and the text are the same. -/
theorem Stopped.system (h : Stopped view text kernel kept t) (hs : view.Same text t.system s)
    (htraced : kernel.Obeys view kept.code → view.traced t.system = true → view.traced s = true) :
    Stopped view text kernel kept { t with system := s } where
  toHeld := h.toHeld.system hs.text htraced
  registers := hs.registers.trans h.registers

/-- Registers that are set and the snapshot has make a thread that is stopped. -/
theorem Held.stopped (h : Held view text kernel kept t) (hs : view.SameText text t.system s)
    (htraced : kernel.Obeys view kept.code → view.traced t.system = true → view.traced s = true)
    (hregisters : view.registers s = t.regs) : Stopped view text kernel kept { t with system := s } where
  toHeld := h.system hs htraced
  registers := hregisters.trans h.regs

/-! ### Rules -/

/-- What a call ensures is what both of its answers ensure. -/
theorem ensures_call {f : κ → Except Failure α × κ} {P : Tracee κ R → Prop} {Q : α → Tracee κ R → Prop}
    {E : Failure → Tracee κ R → Prop}
    (hok : ∀ t a s, P t → f t.system = (.ok a, s) → Q a { t with system := s })
    (herror : ∀ t e s, P t → f t.system = (.error e, s) → E e { t with system := s }) :
    Ensures P (call f : Injection κ R α) Q E where
  returns t a t' ht hrun := by
    simp only [outcome, call, Prod.mk.injEq] at hrun
    rw [← hrun.2]
    exact hok t a _ ht (Prod.ext hrun.1 rfl)
  fails t e t' ht hrun := by
    simp only [outcome, call, Prod.mk.injEq] at hrun
    rw [← hrun.2]
    exact herror t e _ ht (Prod.ext hrun.1 rfl)

/-- Returning does nothing to the thread. -/
theorem stays_pure (a : α) : Stays view text kernel kept (pure a : Injection κ R α) :=
  Ensures.pure fun _ h => h

/-- Failing does nothing to the thread. -/
theorem stays_throw (e : Failure) : Stays view text kernel kept (throw e : Injection κ R α) :=
  Ensures.throw fun _ h _ => h

/-- An error of the helper does nothing to the thread. -/
theorem stays_raise (message : String) : Stays view text kernel kept (raise message : Injection κ R α) :=
  stays_throw _

/-- One part behind another. -/
theorem Stays.bind {β : Type} {m : Injection κ R α} {f : α → Injection κ R β}
    (h : Stays view text kernel kept m) (hf : ∀ a, Stays view text kernel kept (f a)) :
    Stays view text kernel kept (m >>= f) :=
  Ensures.bind h hf

/-- A part that goes on with what the helper has. -/
theorem stays_get_bind {β : Type} {f : Tracee κ R → Injection κ R β}
    (h : ∀ t, Stopped view text kernel kept t → Stays view text kernel kept (f t)) :
    Stays view text kernel kept (get >>= f) :=
  Ensures.get_bind fun t ht => (h t ht).mono (fun _ hs => hs ▸ ht) (fun _ _ => id) fun _ _ => id

/-- Either of two parts. -/
theorem Stays.ite {c : Prop} [Decidable c] {m m' : Injection κ R α} (h : Stays view text kernel kept m)
    (h' : Stays view text kernel kept m') : Stays view text kernel kept (if c then m else m') :=
  Ensures.ite (fun _ => h) fun _ => h'

/-- The text of an error does not matter. -/
theorem Stays.within {context : String} {m : Injection κ R α} (h : Stays view text kernel kept m) :
    Stays view text kernel kept (within context m) :=
  Ensures.wrapping_const h

/-- What the helper notes for itself. -/
theorem stays_modify {g : Tracee κ R → Tracee κ R}
    (h : ∀ t, Stopped view text kernel kept t → Stopped view text kernel kept (g t)) :
    Stays view text kernel kept (modify g) :=
  Ensures.modify h

/-- A call that leaves the thread alone, and the target traced. -/
theorem stays_call {f : κ → Except Failure α × κ} (h : view.Leaves text f)
    (hholds : kernel.Obeys view kept.code → view.Holds f) : Stays view text kernel kept (call f) :=
  ensures_call
    (fun t a s ht hrun => by
      simpa only [hrun] using ht.system (h t.system) fun hobeys => hholds hobeys t.system)
    fun t e s ht hrun _ => by
      simpa only [hrun] using ht.system (h t.system) fun hobeys => hholds hobeys t.system

/-- A value that is there, or an error. -/
theorem stays_returned_bind {β : Type} {x : Except Failure α} {f : α → Injection κ R β}
    (h : ∀ a, x = .ok a → Stays view text kernel kept (f a)) : Stays view text kernel kept (returned x >>= f) := by
  cases x with
  | error e => exact (stays_throw e : Stays view text kernel kept (throw e : Injection κ R β))
  | ok a => exact h a rfl

/-- An argument block, or the error that there is no room for it. -/
theorem stays_block_bind {x : Except InjectorError (List UInt8)} {f : List UInt8 → Injection κ R α}
    (h : ∀ a, x = .ok a → Stays view text kernel kept (f a)) : Stays view text kernel kept (block x >>= f) :=
  stays_returned_bind fun a ha => h a (by cases x <;> simp_all [Except.mapError])

/-- A search in the files of the target. -/
theorem stays_searched (find : (List UInt8 → Option ElfFile) → Except Failure RemoteSymbol) :
    Stays view text kernel kept (searched kernel find) :=
  stays_get_bind fun t _ => by
    have h : Stays view text kernel kept (returned (find (kernel.elfFile t.system)) >>= pure) :=
      stays_returned_bind fun a _ => stays_pure a
    simpa only [bind_pure] using h

variable (hkernel : kernel.Honest view text)
include hkernel

/-! ### Operations in the target -/

/-- While a stub runs the helper holds the target. -/
theorem ensures_runRegisters (regs : R) : Ensures (Held view text kernel kept) (runRegisters kernel arch pid regs)
    (fun _ => Held view text kernel kept) fun _ => Held view text kernel kept := by
  have hcall : ∀ {β : Type} {f : κ → Except Failure β × κ}, (∀ s, view.SameText text s (f s).2) →
      (kernel.Obeys view kept.code → view.Holds f) →
      Ensures (Held view text kernel kept) (call f) (fun _ => Held view text kernel kept)
        fun _ => Held view text kernel kept := by
    intro β f hf hholds
    refine ensures_call (fun t a s ht hrun => ?_) fun t e s ht hrun => ?_
    · simpa only [hrun] using ht.system (hf t.system) fun hobeys => hholds hobeys t.system
    · simpa only [hrun] using ht.system (hf t.system) fun hobeys => hholds hobeys t.system
  refine (hcall (hkernel.set_text regs) fun h => h.setRegisters_holds regs).wrapping_const.bind fun _ => ?_
  refine (hcall hkernel.cont fun h => h.cont_holds).wrapping_const.bind fun _ => ?_
  refine (hcall hkernel.wait fun h => h.wait_holds).wrapping_const.bind fun status => ?_
  refine Ensures.ite (fun _ => Ensures.throw fun _ h => h) fun _ => ?_
  refine (hcall (fun s => (hkernel.getRegisters s).text) fun h => h.getRegisters_holds).wrapping_const.bind ?_
  exact fun completed => Ensures.pure fun _ h => h

/-- **The registers are set back** behind an operation, whatever becomes of it. -/
theorem ensures_executeRegisters (regs : R) : Ensures (Held view text kernel kept)
    (executeRegisters kernel arch pid regs) (fun _ => Stopped view text kernel kept)
    fun _ t => kernel.Obeys view kept.code → Stopped view text kernel kept t := by
  have hrestore : Ensures (Held view text kernel kept) (restoreRegisters kernel)
      (fun _ => Stopped view text kernel kept)
      fun _ t => kernel.Obeys view kept.code → Stopped view text kernel kept t := by
    refine Ensures.get_bind fun t ht => Ensures.wrapping_const (ensures_call ?_ ?_)
    · rintro t _ s rfl hrun
      have htext := hkernel.set_text t.regs t.system
      rw [hrun] at htext
      refine ht.stopped htext (fun hobeys htraced => ?_) (hkernel.set _ _ _ hrun)
      have hheld := hobeys.setRegisters_holds t.regs t.system htraced
      rwa [hrun] at hheld
    · rintro t e s rfl hrun hobeys
      have hok := hobeys.setRegisters t.regs t.system (ht.traced hobeys)
      rw [hrun] at hok
      cases hok
  exact (ensures_runRegisters hkernel regs).closing (fun _ => hrestore)
    fun _ => hrestore.mono (fun _ => id) (fun _ _ h _ => h) fun _ _ => id

/-- What is written over the stubs while one of them runs. -/
def Snapshot.covered (kept : Snapshot R) (stub : List UInt8) : Snapshot R :=
  { kept with memory := ByteMemory.write kept.memory kept.code stub }

omit hkernel in
/-- The helper holds a target whose text it has written over. -/
theorem Held.cover (h : Held view text kernel kept t) {stub : List UInt8}
    (hwritten : ∀ x ∈ text, view.memory s x = ByteMemory.write (view.memory t.system) kept.code stub x)
    (htraced : kernel.Obeys view kept.code → view.traced t.system = true → view.traced s = true) :
    Held view text kernel (kept.covered stub) { t with system := s } where
  text x hx := by
    rw [hwritten x hx]
    simp only [Snapshot.covered, ByteMemory.write, h.text x hx]
  regs := h.regs
  code := h.code
  attached := h.attached
  traced hobeys := htraced hobeys (h.traced hobeys)

/-- **A stub is run** and the instructions of the target are put back. -/
theorem stays_execute (regs : R) (stub : List UInt8) :
    Stays view text kernel kept (execute kernel arch pid regs stub) := by
  refine stays_get_bind fun t ht => ?_
  rw [ht.code]
  refine Ensures.bind (Q := fun backup t => Stopped view text kernel kept t ∧
    ∃ m, ByteMemory.read m kept.code stub.length = some backup ∧ ∀ x ∈ text, m x = kept.memory x) ?_ fun backup => ?_
  · have hholds := fun (t : Tracee κ R) (h : kernel.Obeys view kept.code) =>
      h.peek_holds kept.code stub.length t.system
    refine Ensures.wrapping_const (ensures_call
      (fun t a s ht hrun => ⟨?_, view.memory t.system, ?_, ht.text⟩) fun t e s ht hrun _ => ?_)
    · simpa only [hrun] using ht.system (hkernel.peek kept.code stub.length t.system) (hholds t)
    · exact hkernel.peeked _ _ _ _ _ hrun
    · simpa only [hrun] using ht.system (hkernel.peek kept.code stub.length t.system) (hholds t)
  refine Ensures.assuming fun ⟨m, hread, hm⟩ => ?_
  -- the stub stands in the text until the backup is written
  refine Ensures.bind (Q := fun _ => Held view text kernel (kept.covered stub)) ?_ fun _ => ?_
  · refine Ensures.wrapping_const (ensures_call (fun t a s ht hrun => ?_) ?_)
    · refine ht.toHeld.cover (hkernel.poked _ _ _ _ hrun) fun hobeys htraced => ?_
      have hheld := hobeys.poke_holds kept.code stub t.system htraced
      rwa [hrun] at hheld
    · intro t e s ht hrun hobeys
      have hok := hobeys.poke stub t.system (ht.traced hobeys)
      rw [hrun] at hok
      cases hok
  have hrestore : Ensures (Stopped view text kernel (kept.covered stub)) (restoreCode kernel backup)
      (fun _ => Stopped view text kernel kept)
      fun _ t => kernel.Obeys view kept.code → Stopped view text kernel kept t := by
    refine Ensures.get_bind fun t ht => Ensures.wrapping_const (ensures_call ?_ ?_)
    · rintro t _ s rfl hrun
      have hcode : t.code = kept.code := ht.code
      rw [hcode] at hrun
      have hregisters := hkernel.poke_registers kept.code backup t.system
      rw [hrun] at hregisters
      have hheld : Held view text kernel ((kept.covered stub).covered backup) { t with system := s } := by
        refine ht.toHeld.cover (hkernel.poked _ _ _ _ hrun) fun hobeys htraced => ?_
        have hheld := hobeys.poke_holds kept.code backup t.system htraced
        rwa [hrun] at hheld
      refine ⟨⟨fun x hx => (hheld.text x hx).trans ?_, hheld.regs, hheld.code, hheld.attached, hheld.traced⟩,
        hregisters.trans ht.registers⟩
      exact ByteMemory.write_write_of_read hread rfl (hm x hx)
    · rintro t e s rfl hrun hobeys
      have hcode : t.code = kept.code := ht.code
      have hok := hobeys.poke backup t.system (ht.traced hobeys)
      rw [hcode] at hrun
      rw [hrun] at hok
      cases hok
  refine (ensures_executeRegisters hkernel regs).closing (fun _ => hrestore) fun _ => ?_
  exact (Ensures.given fun _ => hrestore).mono (fun _ h => h) (fun _ _ => id) fun _ _ h hobeys => h hobeys hobeys

/-- A system call of the target. -/
theorem stays_remoteSyscall (number : UInt64) (arguments : List UInt64) :
    Stays view text kernel kept (remoteSyscall kernel arch pid number arguments) :=
  stays_get_bind fun _ _ => (stays_execute hkernel _ _).bind fun _ => (stays_throw _).ite (stays_pure _)

/-- A call of a function of the target. -/
theorem stays_callFunction (address : UInt64) (arguments : List UInt64) :
    Stays view text kernel kept (callFunction kernel arch pid address arguments) :=
  stays_get_bind fun _ _ => stays_execute hkernel _ _

/-- Pages of the target get a protection. -/
theorem stays_mprotect (address length protection : UInt64) :
    Stays view text kernel kept (mprotect kernel arch pid address length protection) :=
  (stays_remoteSyscall hkernel _ _).bind fun _ => (stays_raise _).ite (stays_pure _)

/-- Pages of the target are taken away. -/
theorem stays_munmap (address length : UInt64) :
    Stays view text kernel kept (munmap kernel arch pid address length) :=
  (stays_remoteSyscall hkernel _ _).bind fun _ => (stays_raise _).ite (stays_pure _)

/-! ### Memory of the target -/

/-- A word that is written beside the text. -/
theorem stays_poke {address : UInt64} {data : List UInt8} (hfree : ∀ x ∈ text, data.length ≤ (x - address).toNat) :
    Stays view text kernel kept (call (kernel.poke address data)) := by
  refine stays_call (fun s => ?_) fun h => h.poke_holds address data
  exact ⟨hkernel.poke_registers address data s, fun x hx => hkernel.poke_elsewhere _ _ _ x hx (hfree x hx)⟩

/-- **A block that is written beside the text**, whole words of it. -/
theorem stays_writeTarget (words : ℕ) {address : UInt64} {data : List UInt8} (hlen : data.length ≤ 8 * words)
    (hwords : 8 * words < 2 ^ 64) (hfree : ∀ x ∈ text, 8 * words ≤ (x - address).toNat) :
    Stays view text kernel kept (writeTarget kernel address data) := by
  induction words generalizing address data with
  | zero =>
    obtain rfl : data = [] := List.length_eq_zero_iff.1 (by omega)
    rw [writeTarget, dif_pos rfl]
    exact stays_pure ()
  | succ words ih =>
    rw [writeTarget]
    split_ifs with hnil
    · exact stays_pure ()
    · have hpoke : ∀ chunk : List UInt8, chunk.length = 8 → Stays view text kernel kept
          (call (kernel.poke address chunk) >>= fun _ =>
            writeTarget kernel (address + .ofNat (min data.length 8)) (data.drop (min data.length 8))) := by
        intro chunk hchunk
        refine (stays_poke hkernel fun x hx => ?_).bind fun _ => ?_
        · have hx := hfree x hx
          omega
        · rcases Nat.lt_or_ge data.length 8 with hshort | hlong
          · rw [List.drop_of_length_le (by omega), writeTarget, dif_pos rfl]
            exact stays_pure ()
          · rw [Nat.min_eq_right hlong]
            refine ih (by rw [List.length_drop]; omega) (by omega) fun x hx => ?_
            have hx := hfree x hx
            rw [ByteMemory.sub_add_ofNat x address (by omega), if_pos (by omega)]
            omega
      dsimp only
      refine Ensures.ite (fun hshort => ?_) fun hlong => ?_
      · -- what is left of the last word is peeked
        have hpeek : Stays view text kernel kept (call (kernel.peek address 8)) :=
          stays_call (hkernel.peek address 8) fun h => h.peek_holds address 8
        refine Ensures.bind (hpeek.knowing (p := fun word => word.length = 8) fun t word t' hrun => ?_)
          fun word => Ensures.assuming fun hword => ?_
        · simp only [outcome, call, Prod.mk.injEq] at hrun
          exact ByteMemory.length_of_read (hkernel.peeked _ _ _ _ _ (Prod.ext hrun.1 rfl))
        · rw [pure_bind]
          exact hpoke _ (by rw [List.length_append, List.length_drop, List.length_take]; omega)
      · rw [pure_bind]
        exact hpoke _ (by rw [List.length_take]; omega)

/-- The helper waits for the result of a clone. -/
theorem stays_pollResult (address : UInt64) (timeout : ℤ) (rounds : ℕ) :
    Stays view text kernel kept (pollResult kernel address timeout rounds) := by
  induction rounds with
  | zero => exact stays_raise _
  | succ rounds ih =>
    have hearly : Stays view text kernel kept (advance kernel.early) :=
      stays_call (fun s => hkernel.early s) fun h => h.early_holds
    have hpeek : Stays view text kernel kept (call (kernel.peek address 8)) :=
      stays_call (hkernel.peek address 8) fun h => h.peek_holds address 8
    have hsleep : Stays view text kernel kept (advance fun system => ((), kernel.sleep system)) :=
      stays_call (fun s => hkernel.sleep s) fun h => h.sleep_holds
    refine hearly.bind fun early => (stays_raise _).ite ?_
    refine Stays.bind (Stays.within (hpeek.bind fun data => stays_pure _)) fun result => ?_
    exact hsleep.bind fun _ => (stays_pure _).ite ih

/-- The mappings of the target are read. -/
theorem stays_readMappings : Stays view text kernel kept (readMappings kernel pid) :=
  (stays_call hkernel.readMaps fun h => h.readMaps_holds).within.bind fun _ => stays_pure _

/-! ### Injecting -/

omit hkernel in
/-- The helper notes whether the region is in use. -/
theorem stays_setInUse (inUse : Bool) :
    Stays view text kernel kept (setInUse inUse : Injection κ R Unit) :=
  stays_modify fun _ h => ⟨⟨h.text, h.regs, h.code, h.attached, h.traced⟩, h.registers⟩

/-- The region is released where it is not in use. -/
theorem stays_releaseBootstrap (base : UInt64) :
    Stays view text kernel kept (releaseBootstrap kernel arch pid base) :=
  stays_get_bind fun _ _ => (stays_pure _).ite (stays_munmap hkernel _ _).within

/-- **Letting go**: a detach that goes well lets the target go as it stands; the kernel has
refused one that does not. -/
theorem ensures_detach (pid : ℤ) (hattached : t.attached = true) : Ensures (· = t) (detach kernel pid)
    (fun _ t' => view.Same text t.system t'.system ∧ view.traced t'.system = false)
    fun _ t' => (kernel.detach t.system).1 ≠ .ok () ∧
      (view.traced t.system = false → view.traced t'.system = false) := by
  refine Ensures.get_bind fun u hu => ?_
  subst hu
  rw [if_pos hattached]
  refine Ensures.bind (Q := fun _ t' => view.Same text u.system t'.system ∧ view.traced t'.system = false)
    (Ensures.wrapping_const (ensures_call ?_ ?_)) fun _ => Ensures.modify fun _ h => h
  · rintro t _ s rfl hrun
    have hsame := hkernel.detach t.system
    rw [hrun] at hsame
    exact ⟨hsame, hkernel.detached _ _ hrun⟩
  · rintro t e s rfl hrun
    have hfree := hkernel.detach_free t.system
    rw [hrun] at hfree ⊢
    exact ⟨nofun, hfree⟩

end

/-! ### The architectures -/

/-- A page, in bytes and as a length of the source. -/
theorem pageBytes_eq : pageBytes = .ofNat pageSize := rfl

/-- **The code of a clone is written beside the text.** -/
theorem stays_startClone (architecture : Architecture) {kernel : Kernel κ architecture.Registers}
    {view : View κ architecture.Registers} (hkernel : kernel.Honest view text) {pid : ℤ}
    {kept : Snapshot architecture.Registers} {codeAddress : UInt64}
    (hfree : ∀ x ∈ text, pageSize ≤ (x - codeAddress).toNat) {shellcode : List UInt8}
    (hlen : shellcode.length ≤ pageSize) (cloneAddress childStack dataAddress : UInt64) :
    Stays view text kernel kept
      ((architecture.platform kernel pid).startClone cloneAddress codeAddress childStack dataAddress shellcode) := by
  cases architecture with
  | amd64 =>
    refine Ensures.ite (fun _ => stays_raise _) fun hfits => ?_
    refine Stays.bind (Stays.within (stays_writeTarget hkernel 512 ?_ (by omega) hfree)) fun _ => ?_
    · rw [List.length_append]
      unfold pageSize at hfits
      omega
    · exact stays_get_bind fun _ _ => (ensures_executeRegisters hkernel _).mono (fun _ h => h.toHeld) (fun _ _ => id)
        fun _ _ => id
  | arm64 =>
    exact (stays_writeTarget hkernel 512 hlen (by omega) hfree).bind fun _ => stays_callFunction hkernel _ _

/-- Both shellcodes of an architecture fit a page. -/
theorem shellcodes_length (architecture : Architecture) (kernel : Kernel κ architecture.Registers) (pid : ℤ) :
    (architecture.platform kernel pid).dlopenShellcode.length ≤ pageSize ∧
      (architecture.platform kernel pid).scheduleShellcode.length ≤ pageSize := by
  cases architecture
  · exact (by decide : dlopenShellcode.length ≤ pageSize ∧ scheduleShellcode.length ≤ pageSize)
  · exact (by decide : Arm64.dlopenShellcode.length ≤ pageSize ∧ Arm64.scheduleShellcode.length ≤ pageSize)

section

variable (architecture : Architecture) {kernel : Kernel κ architecture.Registers} {view : View κ architecture.Registers}
  (hkernel : kernel.Honest view text) {options : Options} {kept : Snapshot architecture.Registers}
include hkernel

/-- A clone is started and its result awaited. -/
theorem stays_runClone (starting refused : String)
    {wait : Injection κ architecture.Registers UInt64 → Injection κ architecture.Registers UInt64}
    (hwait : ∀ m, Stays view text kernel kept m → Stays view text kernel kept (wait m))
    {codeAddress : UInt64} (hfree : ∀ x ∈ text, pageSize ≤ (x - codeAddress).toNat) {shellcode : List UInt8}
    (hlen : shellcode.length ≤ pageSize) (cloneAddress childStack dataAddress : UInt64) :
    Stays view text kernel kept (runClone kernel (architecture.platform kernel options.pid) options
      starting refused wait cloneAddress codeAddress childStack dataAddress shellcode) := by
  refine (stays_setInUse true).bind fun _ => ?_
  refine (stays_startClone architecture hkernel hfree hlen _ _ _).within.bind fun child => Stays.ite ?_ ?_
  · exact (stays_setInUse false).bind fun _ => stays_raise _
  · refine (hwait _ (stays_pollResult hkernel _ _ _)).bind fun result => ?_
    exact (stays_setInUse false).bind fun _ => stays_pure _

/-- **The bootstrap** of the Agent, in a region beside the text. -/
theorem stays_bootstrap {base : UInt64} (hfresh : ∀ x ∈ text, bootstrapSize.toNat ≤ (x - base).toNat)
    (dlopen clone : RemoteSymbol) : Stays view text kernel kept
      (bootstrap kernel (architecture.platform kernel options.pid) options base dlopen clone) := by
  have hsize : bootstrapSize.toNat = 2 * pageSize + 2097152 := by decide
  have hdata : ∀ x ∈ text, 8 * 512 ≤ (x - base).toNat := fun x hx => by
    have hx := hfresh x hx
    unfold pageSize at hsize
    omega
  have hcode : ∀ x ∈ text, pageSize ≤ (x - (base + pageBytes)).toNat := fun x hx => by
    have hx := hfresh x hx
    unfold pageSize at hsize ⊢
    rw [pageBytes_eq, ByteMemory.sub_add_ofNat x base (by decide), if_pos (by unfold pageSize; omega)]
    unfold pageSize
    omega
  obtain ⟨hdlopen, hschedule⟩ := shellcodes_length architecture kernel options.pid
  have hmodify : Stays view text kernel kept (modify fun tracee : Tracee κ architecture.Registers =>
      { tracee with stackTop := base + bootstrapSize }) :=
    stays_modify fun _ h => ⟨⟨h.text, h.regs, h.code, h.attached, h.traced⟩, h.registers⟩
  refine hmodify.bind fun _ => ?_
  refine Stays.bind (Stays.within (stays_mprotect hkernel _ _ _)) fun _ => ?_
  refine stays_block_bind fun arguments harguments => ?_
  have hlen := dlopenArguments_length harguments
  refine Stays.bind (Stays.within (stays_writeTarget hkernel 512 hlen (by decide) hdata)) fun _ => ?_
  refine stays_get_bind fun t _ => ?_
  refine (stays_runClone architecture hkernel _ _ (fun _ => id) hcode hdlopen _ _ _).bind fun handle => ?_
  refine (stays_raise _).ite ((stays_readMappings hkernel).bind fun loadedMaps => ?_)
  refine (Stays.within (stays_searched _)).bind fun schedule => stays_block_bind fun scheduleData hscheduleData => ?_
  have hlen := scheduleArguments_length hscheduleData
  refine Stays.bind (Stays.within (stays_writeTarget hkernel 512 hlen (by decide) hdata)) fun _ => ?_
  refine (stays_runClone architecture hkernel _ _ (fun _ => Stays.within) hcode hschedule _ _ _).bind fun status => ?_
  exact (stays_raise _).ite (stays_pure _)

/-! ### Attaching -/

/-- What is so behind `attach`: the registers of the thread, which is traced, are saved. -/
def Arrived (view : View κ R) (code : UInt64) (t : Tracee κ R) : Prop :=
  t.regs = view.registers t.system ∧ view.traced t.system = true ∧ t.code = code ∧ t.attached = true

/-- What is left of an `attach` that fails: nothing, unless the kernel refuses to detach. -/
def Abandoned (view : View κ R) (kernel : Kernel κ R) (t : Tracee κ R) : Prop :=
  (∀ s, view.traced s = true → (kernel.detach s).1 = .ok ()) → view.traced t.system = false

/-- **Behind `attach`** the registers of the thread are saved, and no error leaves the target
traced that was not. -/
theorem ensures_attach (c : Prop) (code : UInt64) (pid : ℤ) :
    Ensures (fun t => (c → view.traced t.system = false) ∧ t.code = code) (attach kernel pid)
      (fun _ => Arrived view code) fun _ t => c → Abandoned view kernel t := by
  have hattach : Ensures (fun t => (c → view.traced t.system = false) ∧ t.code = code)
      (call kernel.attach : Injection κ architecture.Registers Unit) (fun _ t => t.code = code)
      fun _ t => c → Abandoned view kernel t :=
    ensures_call (fun _ _ _ ht _ => ht.2) fun t e s ht hrun hc _ => hkernel.refused _ _ _ hrun (ht.1 hc)
  have hwait : Ensures (fun t => t.code = code ∧ t.attached = true)
      (call kernel.wait : Injection κ architecture.Registers UInt32) (fun _ t => t.code = code ∧ t.attached = true)
      fun _ t => t.attached = true :=
    ensures_call (fun _ _ _ ht _ => ht) fun _ _ _ ht _ => ht.2
  have hget : Ensures (fun t => t.code = code ∧ t.attached = true)
      (call kernel.getRegisters : Injection κ architecture.Registers architecture.Registers)
      (fun regs t => regs = view.registers t.system ∧ view.traced t.system = true ∧ t.code = code ∧ t.attached = true)
      fun _ t => t.attached = true := by
    refine ensures_call (fun t regs s ht hrun => ⟨?_, hkernel.got_traced _ _ _ hrun, ht⟩) fun _ _ _ ht _ => ht.2
    have hsame := (hkernel.getRegisters t.system).registers
    rw [hrun] at hsame
    exact (hkernel.got _ _ _ hrun).trans hsame.symm
  refine hattach.wrapping_const.bind fun _ => ?_
  refine Ensures.bind (Q := fun _ t => t.code = code ∧ t.attached = true) (Ensures.modify fun _ h => ⟨h, rfl⟩)
    fun _ => ?_
  refine Ensures.deferred (A := fun _ => Arrived view code) (B := fun _ t => t.attached = true) ?_
    (fun _ => Ensures.pure fun _ h => h) fun e => ⟨fun t a t' _ hrun => ?_, fun t e' t' ht hrun _ hobeys => ?_⟩
  · refine hwait.wrapping_const.bind fun status => Ensures.ite (fun _ => Ensures.throw fun _ h => h.2) fun _ => ?_
    exact hget.wrapping_const.bind fun regs => Ensures.modify fun _ h => h
  · -- an error stays one
    simp only [outcome, abandon] at hrun
    split at hrun <;> cases hrun
  · have hdetach := ensures_detach hkernel pid ht
    simp only [outcome, abandon] at hrun
    split at hrun
    · next t₁ hdone =>
      cases hrun
      exact (hdetach.returns t () _ rfl hdone).2
    · next cause t₁ hdone =>
      cases hrun
      obtain ⟨hrefused, hfree⟩ := hdetach.fails t cause _ rfl hdone
      exact hfree (Bool.eq_false_iff.2 fun htraced => hrefused (hobeys _ htraced))

/-- Looking for symbols traces nobody. -/
theorem ensures_resolve : Ensures (fun t => view.traced t.system = false)
    (resolve kernel (architecture.platform kernel options.pid) options) (fun _ t => view.traced t.system = false)
    fun _ t => view.traced t.system = false := by
  have hsearched : ∀ find : (List UInt8 → Option ElfFile) → Except Failure RemoteSymbol,
      Ensures (fun t => view.traced t.system = false) (searched kernel find)
        (fun _ t => view.traced t.system = false) fun _ t => view.traced t.system = false := by
    intro find
    refine Ensures.get_bind fun t ht => ?_
    cases find (kernel.elfFile t.system) with
    | error e => exact Ensures.throw fun _ hs => hs ▸ ht
    | ok a => exact Ensures.pure fun _ hs => hs ▸ ht
  have hmaps : Ensures (fun t => view.traced t.system = false)
      (readMappings kernel options.pid : Injection κ architecture.Registers (List Mapping))
      (fun _ t => view.traced t.system = false) fun _ t => view.traced t.system = false := by
    refine Ensures.bind (Ensures.wrapping_const (ensures_call (fun t a s ht hrun => ?_) fun t e s ht hrun => ?_))
      fun _ => Ensures.pure fun _ h => h
    · simpa only [hrun] using hkernel.readMaps_free t.system ht
    · simpa only [hrun] using hkernel.readMaps_free t.system ht
  have hclone : ∀ maps, Ensures (fun t => view.traced t.system = false)
      ((architecture.platform kernel options.pid).resolveClone maps) (fun _ t => view.traced t.system = false)
      fun _ t => view.traced t.system = false := by
    intro maps
    cases architecture with
    | amd64 => exact Ensures.pure fun _ h => h
    | arm64 => exact hsearched fun files => findSymbol files maps ["clone", "__clone"]
  refine Ensures.ite (fun _ => Ensures.throw fun _ h => h) fun _ => hmaps.bind fun maps => ?_
  refine (hsearched _).wrapping_const.bind fun dlopen => (hclone maps).wrapping_const.bind fun clone => ?_
  exact Ensures.pure fun _ h => h

/-- **What `Inject` has done when it gets behind `attach`**, and what where it does not. -/
theorem ensures_arrive (options : Options) (c : Prop) : Ensures (fun t => c → view.traced t.system = false)
    (arrive kernel (architecture.platform kernel options.pid) options)
    (fun found => Arrived view found.1.entry) fun _ t => c → Abandoned view kernel t := by
  refine Ensures.bind ((Ensures.given fun _ => ensures_resolve architecture hkernel).mono (fun _ => id) (fun _ _ => id)
    fun _ _ h hc _ => h hc) fun found => ?_
  refine Ensures.bind (Q := fun _ t => (c → view.traced t.system = false) ∧ t.code = found.1.entry)
    (Ensures.modify fun _ h => ⟨h, rfl⟩) fun _ => ?_
  exact (ensures_attach architecture hkernel _ _ _).bind fun _ => Ensures.pure fun _ h => h

/-! ### Injecting -/

variable (hfresh : ∀ t base t', outcome (mmap kernel (architecture.platform kernel options.pid).toArch options.pid
  bootstrapSize) t = (.ok base, t') → ∀ x ∈ text, bootstrapSize.toNat ≤ (x - base).toNat)
include hfresh

/-- **All that `Inject` does with the target in its hands.** -/
theorem stays_injectAttached (dlopen clone : RemoteSymbol) : Stays view text kernel kept
    (injectAttached kernel (architecture.platform kernel options.pid) options dlopen clone) := by
  have hmmap : Stays view text kernel kept (mmap kernel (architecture.platform kernel options.pid).toArch
      options.pid bootstrapSize) := stays_remoteSyscall hkernel _ _
  refine Ensures.bind (hmmap.knowing hfresh).wrapping_const fun base => Ensures.assuming fun hbase => ?_
  refine (stays_setInUse false).bind fun _ => ?_
  have hrelease : Stays view text kernel kept (releaseBootstrap kernel
      (architecture.platform kernel options.pid).toArch options.pid base) := stays_releaseBootstrap hkernel base
  exact (stays_bootstrap architecture hkernel hbase dlopen clone).keepFirst (fun _ => hrelease)
    fun _ => (Ensures.given fun _ => hrelease).mono (fun _ h => h) (fun _ _ => id) fun _ _ h hobeys => h hobeys hobeys

/-- **The target as it was found.**  When `Inject` returns no error, it has stopped the target
as a tracee and has let it go again, with the registers that its thread was stopped with and
the text that it had then.  On a kernel that does not refuse what the helper takes back with,
while nobody takes the target from it, this is so whatever `Inject` returns behind `attach`;
and where it does not get behind `attach`, it leaves no target traced. -/
theorem inject_restores (t : Tracee κ architecture.Registers) :
    (∀ t', outcome (inject kernel (architecture.platform kernel options.pid) options) t = (.ok (), t') →
      ∃ found stop, outcome (arrive kernel (architecture.platform kernel options.pid) options) t = (.ok found, stop) ∧
        view.LetGo text stop.system t'.system) ∧
    (∀ found stop, outcome (arrive kernel (architecture.platform kernel options.pid) options) t = (.ok found, stop) →
      kernel.Obeys view found.1.entry → ∀ result t',
        outcome (inject kernel (architecture.platform kernel options.pid) options) t = (result, t') →
          view.LetGo text stop.system t'.system) ∧
    ∀ e stop, outcome (arrive kernel (architecture.platform kernel options.pid) options) t = (.error e, stop) →
      view.traced t.system = false → (∀ s, view.traced s = true → (kernel.detach s).1 = .ok ()) →
        outcome (inject kernel (architecture.platform kernel options.pid) options) t = (.error e, stop) ∧
          view.traced stop.system = false := by
  have hstop := ensures_arrive architecture hkernel options (view.traced t.system = false)
  have hrun : outcome (inject kernel (architecture.platform kernel options.pid) options) t = _ := outcome_bind _ _ t
  rcases harrive : outcome (arrive kernel (architecture.platform kernel options.pid) options) t with ⟨e | found, stop⟩
  · rw [harrive] at hrun
    refine ⟨fun t' ht' => by simp [hrun] at ht', fun found' stop' hfound => (by cases hfound), ?_⟩
    rintro e' stop' ⟨⟩ hfree hobeys
    exact ⟨hrun, hstop.fails t e stop id harrive hfree hobeys⟩
  rw [harrive] at hrun
  obtain ⟨hregs, htraced, hcode, hattached⟩ := hstop.returns t found stop id harrive
  let kept : Snapshot architecture.Registers :=
    ⟨view.registers stop.system, view.memory stop.system, found.1.entry⟩
  have hstopped : Stopped view text kernel kept stop :=
    ⟨⟨fun _ _ => rfl, hregs, hcode, hattached, fun _ => htraced⟩, rfl⟩
  have hdetach : Ensures (Stopped view text kernel kept) (detach kernel options.pid)
      (fun _ t' => view.LetGo text stop.system t'.system)
      fun _ t' => kernel.Obeys view kept.code → view.LetGo text stop.system t'.system := by
    refine ⟨fun u a t' hu hdone => ?_, fun u e t' hu hdone hobeys => ?_⟩
    · obtain ⟨hsame, hfree⟩ := (ensures_detach hkernel _ hu.attached).returns u a t' rfl hdone
      refine ⟨⟨hsame.registers.trans hu.registers, fun x hx => (hsame.text x hx).trans (hu.text x hx)⟩, htraced, hfree⟩
    · obtain ⟨hrefused, -⟩ := (ensures_detach hkernel _ hu.attached).fails u e t' rfl hdone
      exact absurd (hobeys.detach _ (hu.traced hobeys)) hrefused
  have hstays : Stays view text kernel kept
      (injectAttached kernel (architecture.platform kernel options.pid) options found.1 found.2) :=
    stays_injectAttached architecture hkernel hfresh found.1 found.2
  have hwhole := hstays.keepFirst (fun _ => hdetach)
    fun _ => (Ensures.given fun _ => hdetach).mono (fun _ h => h) (fun _ _ => id) fun _ _ h hobeys => h hobeys hobeys
  refine ⟨fun t' ht' => ⟨found, stop, rfl, hwhole.returns stop () t' hstopped (hrun.symm.trans ht')⟩, ?_,
    fun e' stop' hfound => by cases hfound⟩
  rintro found' stop' ⟨⟩ hobeys result t' ht'
  rcases result with e | a
  · exact hwhole.fails stop e t' hstopped (hrun.symm.trans ht') hobeys
  · exact hwhole.returns stop a t' hstopped (hrun.symm.trans ht')

end

/-! ### A target -/

/-- A target of one thread with all of its memory mapped. -/
structure Simulated where
  registers : Amd64Registers
  bytes : UInt64 → UInt8
  traced : Bool

namespace Simulated

/-- The target as it is. -/
def seen : View Simulated Amd64Registers := ⟨registers, fun s x => some (s.bytes x), traced⟩

/-- Where `mmap` maps. -/
def region : UInt64 := 0x10000

/-- What runs up to the next stop: a system call, or the child of a clone with its function. -/
def run (s : Simulated) : Simulated :=
  let result (value : UInt64) : Amd64Registers := { s.registers with rax := value }
  match s.registers.rax with
  | 9 => { s with registers := result region }
  | 56 =>
    -- 1 for `dlopen`, 0 for `pydump_schedule`
    let word (i : ℕ) : UInt8 := if i = 0 then 3 - s.bytes (region + 9) else 0
    { s with
      registers := result 1
      bytes := fun x => if (x - region).toNat < 8 then word (x - region).toNat else s.bytes x }
  | _ => { s with registers := result 0 }

/-- A libc and an Agent. -/
def maps : String :=
  "7f0000000000-7f0000001000 r-xp 00000000 08:01 1 /lib/libc.so.6\n" ++
    "7f1000000000-7f1000001000 r-xp 00000000 08:01 2 /tmp/agent.so\n"

/-- Their symbols. -/
def elfFile (path : List UInt8) : Option ElfFile :=
  if path = Utf8.encode "/lib/libc.so.6" then some ⟨0x100, [⟨true, 0, 0⟩], some [⟨"dlopen", true, 0x200⟩]⟩
  else some ⟨0, [⟨true, 0, 0⟩], some [⟨"pydump_schedule", true, 0x300⟩]⟩

/-- A kernel that traces one target. -/
def kernel : Kernel Simulated Amd64Registers where
  readMaps s := (.ok (Utf8.encode maps), s)
  elfFile _ := elfFile
  attach s := if s.traced then (.error (.errno 1), s) else (.ok (), { s with traced := true })
  wait s := (.ok 0x057F, s)
  getRegisters s := if s.traced then (.ok s.registers, s) else (.error (.errno 3), s)
  setRegisters registers s := (.ok (), { s with registers := registers })
  cont s := (.ok (), s.run)
  peek address n s := (.ok ((List.range n).map fun i => s.bytes (address + .ofNat i)), s)
  poke address data s := (.ok (), { s with bytes := fun x => (data[(x - address).toNat]?).getD (s.bytes x) })
  detach s := if s.traced then (.ok (), { s with traced := false }) else (.error (.errno 3), s)
  early s := (true, s)
  sleep s := s

/-- The helper, with a target that goes about its business. -/
def start : Tracee Simulated Amd64Registers :=
  ⟨⟨⟨1, 2, 3, 4, 5, 6, 7, 8, 9, 10, 11, 12, 13, 14, 15, 16, 17, 18, 19, 20, 21, 22, 23, 24, 25, 26, 27⟩, fun _ => 7,
      false⟩, 0, 0,
    ⟨0, 0, 0, 0, 0, 0, 0, 0, 0, 0, 0, 0, 0, 0, 0, 0, 0, 0, 0, 0, 0, 0, 0, 0, 0, 0, 0⟩, false, false⟩

/-- The options of the helper. -/
def options : Options := ⟨1, Utf8.encode "/tmp/agent.so", Utf8.encode "/tmp/socket", Utf8.encode "aa", 10 ^ 9⟩

/-- The instructions at the entry of the libc. -/
def entryText : Set UInt64 := {x | (x - 0x7F0000000100).toNat < 8}

/-- Memory that is all mapped is read byte for byte. -/
theorem read_bytes (bytes : UInt64 → UInt8) (address : UInt64) (n : ℕ) :
    ByteMemory.read (fun x => some (bytes x)) address n =
      some ((List.range n).map fun i => bytes (address + .ofNat i)) := by
  induction n generalizing address with
  | zero => rfl
  | succ n ih =>
    rw [ByteMemory.read, ih, List.range_succ_eq_map]
    simp [Function.comp_def, ByteMemory.add_one]

/-- The entry of the libc is not in the region. -/
theorem far_of_entryText {x : UInt64} (h : x ∈ entryText) : bootstrapSize.toNat ≤ (x - region).toNat := by
  have hregion : region.toNat = 0x10000 := rfl
  have hentry : (0x7F0000000100 : UInt64).toNat = 0x7F0000000100 := rfl
  have hsize : bootstrapSize.toNat = 2105344 := rfl
  have hx := x.toNat_lt
  simp only [entryText, Set.mem_ofPred_eq, UInt64.toNat_sub, hentry] at h
  rw [UInt64.toNat_sub, hregion, hsize]
  omega

/-- Only a tracee has its registers read. -/
theorem getRegisters_eq (s : Simulated) :
    kernel.getRegisters s = if s.traced then (.ok s.registers, s) else (.error (.errno 3), s) := rfl

/-- Only a tracee is let go. -/
theorem detach_eq (s : Simulated) :
    kernel.detach s = if s.traced then (.ok (), { s with traced := false }) else (.error (.errno 3), s) := rfl

/-- The target is one that the helper is meant for. -/
theorem honest : kernel.Honest seen entryText where
  readMaps _ := ⟨rfl, fun _ _ => rfl⟩
  readMaps_free _ h := h
  refused s e s' h hs := by
    have hfree : s.traced = false := hs
    have hrun : (kernel.attach s).1 = .ok () := by simp [kernel, hfree]
    rw [h] at hrun
    cases hrun
  getRegisters s := by
    rw [getRegisters_eq]
    split <;> exact ⟨rfl, fun _ _ => rfl⟩
  got s regs s' h := by
    rw [getRegisters_eq] at h
    split at h
    · cases h
      rfl
    · cases h
  got_traced s regs s' h := by
    rw [getRegisters_eq] at h
    split at h
    · cases h
      assumption
    · cases h
  set_text _ _ _ _ := rfl
  set _ _ _ h := by cases h; rfl
  cont s x hx := by
    have hfar := far_of_entryText hx
    change some (s.run.bytes x) = some (s.bytes x)
    unfold run
    split
    · rfl
    · have hsize : bootstrapSize.toNat = 2105344 := rfl
      dsimp only
      rw [if_neg (by omega)]
    · rfl
  wait _ _ _ := rfl
  peek _ _ _ := ⟨rfl, fun _ _ => rfl⟩
  peeked _ _ _ _ _ h := by
    cases h
    exact read_bytes _ _ _
  poke_registers _ _ _ := rfl
  poke_elsewhere _ _ _ x _ hx := by simp [seen, kernel, List.getElem?_eq_none hx]
  poked _ data _ _ h x _ := by
    cases h
    simp only [seen, ByteMemory.write]
    cases data[(x - _ : UInt64).toNat]? <;> rfl
  detach s := by
    rw [detach_eq]
    split <;> exact ⟨rfl, fun _ _ => rfl⟩
  detach_free s h := by
    rw [detach_eq]
    split
    · rfl
    · exact h
  detached s s' h := by
    rw [detach_eq] at h
    split at h
    · cases h
      rfl
    · cases h
  early _ := ⟨rfl, fun _ _ => rfl⟩
  sleep _ := ⟨rfl, fun _ _ => rfl⟩

/-- … and refuses nothing. -/
theorem obeys (code : UInt64) : kernel.Obeys seen code where
  setRegisters _ _ _ := rfl
  poke _ _ _ := rfl
  detach s h := by
    have htraced : s.traced = true := h
    rw [detach_eq, if_pos htraced]
  readMaps_holds _ h := h
  getRegisters_holds s h := by
    have htraced : s.traced = true := h
    rw [getRegisters_eq, if_pos htraced]
    exact h
  setRegisters_holds _ _ h := h
  cont_holds s h := by
    change s.run.traced = true
    unfold run
    split <;> exact h
  wait_holds _ h := h
  peek_holds _ _ _ h := h
  poke_holds _ _ _ h := h
  early_holds _ h := h
  sleep_holds _ h := h

/-- What `mmap` returns is not in the text. -/
theorem fresh (t : Tracee Simulated Amd64Registers) (base : UInt64) (t' : Tracee Simulated Amd64Registers)
    (h : outcome (mmap kernel Amd64.arch options.pid bootstrapSize) t = (.ok base, t')) (x : UInt64)
    (hx : x ∈ entryText) : bootstrapSize.toNat ≤ (x - base).toNat := by
  rcases t with ⟨⟨registers, bytes, traced⟩, code, stackTop, regs, attached, bootstrapInUse⟩
  cases traced with
  | false => cases h
  | true =>
    have hrun : (outcome (mmap kernel Amd64.arch options.pid bootstrapSize)
      ⟨⟨registers, bytes, true⟩, code, stackTop, regs, attached, bootstrapInUse⟩).1 = .ok region := rfl
    rw [h] at hrun
    obtain rfl := Except.ok.inj hrun
    exact far_of_entryText hx

set_option maxRecDepth 20000 in
/-- `Inject` gets behind `attach`. -/
theorem arrives : (outcome (arrive kernel (Architecture.amd64.platform kernel options.pid) options) start).1 =
    .ok (⟨0x7F0000000200, 0x7F0000000100⟩, ⟨0, 0⟩) := rfl

end Simulated

/-- The target goes on from where it was stopped, with the instructions at the entry of its
libc, and is traced no more. -/
theorem inject_restores_simulated : ∃ found stop,
    outcome (arrive Simulated.kernel (Architecture.amd64.platform Simulated.kernel Simulated.options.pid)
      Simulated.options) Simulated.start = (.ok found, stop) ∧
    ∀ result t',
      outcome (inject Simulated.kernel (Architecture.amd64.platform Simulated.kernel Simulated.options.pid)
        Simulated.options) Simulated.start = (result, t') →
          Simulated.seen.LetGo Simulated.entryText stop.system t'.system := by
  obtain ⟨-, h, -⟩ := inject_restores .amd64 Simulated.honest Simulated.fresh Simulated.start
  have harrives := Simulated.arrives
  rcases harrive : outcome (arrive Simulated.kernel (Architecture.amd64.platform Simulated.kernel Simulated.options.pid)
    Simulated.options) Simulated.start with ⟨result, stop⟩
  rw [harrive] at harrives
  obtain rfl : result = _ := harrives
  exact ⟨_, stop, rfl, h _ stop harrive (Simulated.obeys _)⟩

end Injector
end Pydump
