/-
# A target on amd64

The process that the helper works in, as its kernel runs it: the thread that is traced, the
children of its clones, and everything else in it.  The traced thread and the children
execute the instructions that stand in the memory.  A child that leaves the region has called
a function, which runs as the calling convention says: it comes back to where it was called
from, with the registers of its caller, and of the region it writes only the stack below.

`Kernel.Drives` says what an answer of the kernel that is not an error means for this process.
Between two answers, and within one, everyone in it may take any number of turns.
-/

import Pydump.Injector.CloneCode
import Mathlib.Logic.Relation

namespace Pydump
namespace Injector

open ByteMemory (Mapped Memory)

/-! ### The process -/

/-- A child of a clone: where it executes code of the region, or as it has entered a function. -/
inductive Child
  | running (returned : Bool) (regs : Amd64Registers)
  | calling (entry : Amd64Registers)

/-- What the children have called, with the memory at the call, and what was returned to them. -/
inductive Event
  | called (entry : Amd64Registers) (memory : Memory)
  | returned (value : UInt64)

/-- The process without its traced thread; `region` is where the bootstrap memory is mapped. -/
structure Target where
  memory : Memory
  region : Option UInt64
  children : List Child
  events : List Event

/-- The addresses of the region. -/
def own : Option UInt64 → Set UInt64
  | none => ∅
  | some base => {x | Inside base x}

/-- What a function leaves in the region: everything but the stack below its caller's. -/
def spared (base : UInt64) (entry : Amd64Registers) : Set UInt64 :=
  {x | Inside base x ∧ ((x - base).toNat < 2 * pageSize ∨ (entry.get .rsp - base).toNat ≤ (x - base).toNat)}

/-- A return to the caller: above the return address, with the registers that a function keeps. -/
structure Returns (m : Memory) (entry after : Amd64Registers) : Prop where
  rip : X64.loadWord m 8 (entry.get .rsp) = some after.rip
  rsp : after.get .rsp = entry.get .rsp + 8
  kept : ∀ register ∈ [X64.Register.rbx, .rbp, .r12, .r13, .r14, .r15], after.get register = entry.get register

/-- A turn of someone other than the traced thread. -/
inductive Target.Turn (text : Set UInt64) (t : Target) : Target → Prop
  /-- Other tasks write neither the text nor the region. -/
  | others {m : Memory} (text_kept : ∀ x ∈ text, m x = t.memory x)
    (region_kept : ∀ x ∈ own t.region, m x = t.memory x) :
    Turn text t { t with memory := m }
  | runs {front back : List Child} {returned : Bool} {regs after : Amd64Registers} {m : Memory}
    (child : t.children = front ++ .running returned regs :: back) (inside : regs.rip ∈ own t.region)
    (step : X64.step t.memory regs = .runs after m) :
    Turn text t { t with memory := m, children := front ++ .running returned after :: back }
  /-- A child leaves the region for a function. -/
  | calls {front back : List Child} {regs : Amd64Registers} (child : t.children = front ++ .running false regs :: back)
    (outside : regs.rip ∉ own t.region) :
    Turn text t { t with children := front ++ .calling regs :: back, events := t.events ++ [.called regs t.memory] }
  /-- The function works, on its stack and beside text and region. -/
  | works {front back : List Child} {entry : Amd64Registers} {m : Memory}
    (child : t.children = front ++ .calling entry :: back) (text_kept : ∀ x ∈ text, m x = t.memory x)
    (region_kept : ∀ base ∈ t.region, ∀ x ∈ spared base entry, m x = t.memory x)
    (mapped : ∀ x ∈ own t.region, (t.memory x).isSome → (m x).isSome) :
    Turn text t { t with memory := m }
  | returns {front back : List Child} {entry after : Amd64Registers}
    (child : t.children = front ++ .calling entry :: back) (back_home : Returns t.memory entry after) :
    Turn text t
      { t with children := front ++ .running true after :: back, events := t.events ++ [.returned (after.get .rax)] }
  /-- `exit` -/
  | exits {front back : List Child} {returned : Bool} {regs after : Amd64Registers}
    (child : t.children = front ++ .running returned regs :: back) (inside : regs.rip ∈ own t.region)
    (step : X64.step t.memory regs = .calls after) (number : after.get .rax = 60) :
    Turn text t { t with children := front ++ back }

/-! ### System calls of the traced thread -/

/-- The registers behind a system call. -/
structure Answers (regs : Amd64Registers) (value : UInt64) (after : Amd64Registers) : Prop where
  rip : after.rip = regs.rip
  rax : after.get .rax = value
  kept : ∀ register, register ∉ [X64.Register.rax, .rcx, .r11] → after.get register = regs.get register

/-- An answer that stands for an error. -/
def IsErrno (value : UInt64) : Prop := signed value < 0 ∧ -4095 ≤ signed value

/-- The system calls of the helper. -/
inductive Syscall (text : Set UInt64) (regs : Amd64Registers) (t : Target) : Amd64Registers → Target → Prop
  | fails {value : UInt64} {after : Amd64Registers} (answers : Answers regs value after) (errno : IsErrno value) :
    Syscall text regs t after t
  /-- `mmap` of an anonymous region, where nothing of the text is. -/
  | mmap {base : UInt64} {m : Memory} {after : Amd64Registers} (number : regs.get .rax = 9)
    (length : regs.get .rsi = bootstrapSize) (free : t.region = none) (aligned : base.toNat % pageSize = 0)
    (fresh : ∀ x ∈ text, x ∉ own (some base)) (mapped : Mapped m base bootstrapSize.toNat)
    (elsewhere : ∀ x ∉ own (some base), m x = t.memory x) (answers : Answers regs base after) :
    Syscall text regs t after { t with memory := m, region := some base }
  | mprotect {after : Amd64Registers} (number : regs.get .rax = 10) (answers : Answers regs 0 after) :
    Syscall text regs t after t
  | munmap {m : Memory} {after : Amd64Registers} (number : regs.get .rax = 11)
    (region : t.region = some (regs.get .rdi))
    (length : regs.get .rsi = bootstrapSize) (elsewhere : ∀ x ∉ own t.region, m x = t.memory x)
    (answers : Answers regs 0 after) :
    Syscall text regs t after { t with memory := m, region := none }
  /-- `clone`, with a child that shares the memory. -/
  | clone {pid : UInt64} {after child : Amd64Registers} (number : regs.get .rax = Amd64.SYS_CLONE)
    (flags : regs.get .rdi = cloneVM) (positive : 0 < signed pid) (answers : Answers regs pid after)
    (starts : Answers (regs.set .rsp (regs.get .rsi)) 0 child) :
    Syscall text regs t after { t with children := t.children ++ [.running false child] }

/-! ### The traced thread -/

/-- What the traced thread does. -/
inductive Mode
  | free
  | running (regs : Amd64Registers)
  | stopped (regs : Amd64Registers)
  /-- … by a breakpoint. -/
  | trapped (regs : Amd64Registers)

/-- The registers of a thread that does not run. -/
def Mode.halted : Mode → Option Amd64Registers
  | .free | .running _ => none
  | .stopped regs | .trapped regs => some regs

/-- The process with its traced thread. -/
structure World where
  mode : Mode
  target : Target

/-- A turn of someone. -/
inductive World.Turn (text : Set UInt64) : World → World → Prop
  | tasks {mode : Mode} {t t' : Target} (turn : t.Turn text t') : Turn text ⟨mode, t⟩ ⟨mode, t'⟩
  | runs {regs after : Amd64Registers} {t : Target} {m : Memory} (step : X64.step t.memory regs = .runs after m) :
    Turn text ⟨.running regs, t⟩ ⟨.running after, { t with memory := m }⟩
  | calls {regs behind after : Amd64Registers} {t t' : Target} (step : X64.step t.memory regs = .calls behind)
    (syscall : Syscall text behind t after t') : Turn text ⟨.running regs, t⟩ ⟨.running after, t'⟩
  | traps {regs behind : Amd64Registers} {t : Target} (step : X64.step t.memory regs = .traps behind) :
    Turn text ⟨.running regs, t⟩ ⟨.trapped behind, t⟩
  /-- Another signal stops it. -/
  | stops {regs : Amd64Registers} {t : Target} : Turn text ⟨.running regs, t⟩ ⟨.stopped regs, t⟩
  /-- The signal of `PTRACE_ATTACH` has arrived. -/
  | attached {regs : Amd64Registers} {t : Target} : Turn text ⟨.free, t⟩ ⟨.stopped regs, t⟩

/-- Any number of turns. -/
def World.Turns (text : Set UInt64) : World → World → Prop := Relation.ReflTransGen (World.Turn text)

/-! ### The kernel -/

/-- What the answers of the kernel mean, where they are not errors. -/
structure Kernel.Drives {κ : Type} (kernel : Kernel κ Amd64Registers) (world : κ → World) (text : Set UInt64) :
    Prop where
  readMaps : ∀ s content s', kernel.readMaps s = (.ok content, s') → World.Turns text (world s) (world s')
  attach : ∀ s s', kernel.attach s = (.ok (), s') → World.Turns text (world s) (world s')
  wait : ∀ s status s', kernel.wait s = (.ok status, s') → World.Turns text (world s) (world s')
  waited : ∀ s status s', kernel.wait s = (.ok status, s') → stopped status → (world s').mode.halted.isSome
  trapped : ∀ s status s', kernel.wait s = (.ok status, s') → stopSignal status = SIGTRAP →
    ∃ regs, (world s').mode = .trapped regs
  getRegisters : ∀ s regs s', kernel.getRegisters s = (.ok regs, s') →
    World.Turns text (world s) (world s') ∧ (world s').mode.halted = some regs
  setRegisters : ∀ regs s s', kernel.setRegisters regs s = (.ok (), s') → ∃ w, World.Turns text (world s) w ∧
    w.mode.halted.isSome ∧ World.Turns text ⟨.stopped regs, w.target⟩ (world s')
  cont : ∀ s s', kernel.cont s = (.ok (), s') → ∃ w regs, World.Turns text (world s) w ∧ w.mode.halted = some regs ∧
    World.Turns text ⟨.running regs, w.target⟩ (world s')
  peek : ∀ address n s data s', kernel.peek address n s = (.ok data, s') → ∃ w, World.Turns text (world s) w ∧
    ByteMemory.read w.target.memory address n = some data ∧ World.Turns text w (world s')
  poke : ∀ address data s s', kernel.poke address data s = (.ok (), s') → ∃ w, World.Turns text (world s) w ∧
    Mapped w.target.memory address data.length ∧
      World.Turns text ⟨w.mode, { w.target with memory := ByteMemory.write w.target.memory address data }⟩ (world s')
  detach : ∀ s s', kernel.detach s = (.ok (), s') → ∃ w, World.Turns text (world s) w ∧
    World.Turns text ⟨.free, w.target⟩ (world s')
  early : ∀ s, World.Turns text (world s) (world (kernel.early s).2)
  sleep : ∀ s, World.Turns text (world s) (world (kernel.sleep s))

/-- Ten milliseconds are enough for a child whose function has returned. -/
def Kernel.Prompt {κ : Type} (kernel : Kernel κ Amd64Registers) (world : κ → World) : Prop :=
  ∀ s, (∀ child ∈ (world s).target.children, ∃ regs, child = .running true regs) →
    (world (kernel.sleep s)).target.children = []

/-- What the files of the target say about its memory: `dlopen` and the entry of its library
are text, and no function is in anonymous memory. -/
structure Kernel.Locates {κ : Type} (kernel : Kernel κ Amd64Registers) (world : κ → World) (text : Set UInt64) :
    Prop where
  dlopen : ∀ s content s' symbol, kernel.readMaps s = (.ok content, s') →
    findSymbol (kernel.elfFile s') (parseMappings content) ["dlopen", "__libc_dlopen_mode"] = .ok symbol →
      symbol.address ∈ text ∧ ∀ i < Amd64.syscallStub.length, symbol.entry + .ofNat i ∈ text
  schedule : ∀ s content s' path symbol, kernel.readMaps s = (.ok content, s') →
    findSymbolInPath (kernel.elfFile s') (parseMappings content) path "pydump_schedule" = .ok symbol →
      symbol.address ∉ own (world s').target.region

end Injector
end Pydump
