/-
# A part of x86-64

The instructions that a short stub of machine code consists of, in the encoding of the
processor: a REX prefix, the byte after the opcode with its two register fields, and a
displacement of one byte.  `step` takes the instruction at `rip` and says what becomes of it:
the thread runs on, makes a system call, traps, or faults.  Of the flags only the zero flag is kept.
-/

import Pydump.Lib.ByteMemory
import Pydump.Lib.LittleEndian

namespace X64

open ByteMemory (Memory)

/-! ### Registers -/

/-- The general registers, in the order of their numbers. -/
inductive Register
  | rax
  | rcx
  | rdx
  | rbx
  | rsp
  | rbp
  | rsi
  | rdi
  | r8
  | r9
  | r10
  | r11
  | r12
  | r13
  | r14
  | r15
  deriving DecidableEq

/-- The register of a field of three bits, with the bit of the prefix above it. -/
def Register.ofField (high : Bool) (field : UInt8) : Register :=
  match high, field.toNat % 8 with
  | false, 0 => .rax
  | false, 1 => .rcx
  | false, 2 => .rdx
  | false, 3 => .rbx
  | false, 4 => .rsp
  | false, 5 => .rbp
  | false, 6 => .rsi
  | false, _ => .rdi
  | true, 0 => .r8
  | true, 1 => .r9
  | true, 2 => .r10
  | true, 3 => .r11
  | true, 4 => .r12
  | true, 5 => .r13
  | true, 6 => .r14
  | true, _ => .r15

/-- The registers of a thread, `user_regs_struct`. -/
structure Registers where
  r15 : UInt64
  r14 : UInt64
  r13 : UInt64
  r12 : UInt64
  rbp : UInt64
  rbx : UInt64
  r11 : UInt64
  r10 : UInt64
  r9 : UInt64
  r8 : UInt64
  rax : UInt64
  rcx : UInt64
  rdx : UInt64
  rsi : UInt64
  rdi : UInt64
  origRax : UInt64
  rip : UInt64
  cs : UInt64
  eflags : UInt64
  rsp : UInt64
  ss : UInt64
  fsBase : UInt64
  gsBase : UInt64
  ds : UInt64
  es : UInt64
  fs : UInt64
  gs : UInt64
  deriving DecidableEq

namespace Registers

/-- The value of a register. -/
def get (regs : Registers) : Register → UInt64
  | .rax => regs.rax
  | .rcx => regs.rcx
  | .rdx => regs.rdx
  | .rbx => regs.rbx
  | .rsp => regs.rsp
  | .rbp => regs.rbp
  | .rsi => regs.rsi
  | .rdi => regs.rdi
  | .r8 => regs.r8
  | .r9 => regs.r9
  | .r10 => regs.r10
  | .r11 => regs.r11
  | .r12 => regs.r12
  | .r13 => regs.r13
  | .r14 => regs.r14
  | .r15 => regs.r15

/-- The registers with one of them changed. -/
def set (regs : Registers) (register : Register) (value : UInt64) : Registers :=
  match register with
  | .rax => { regs with rax := value }
  | .rcx => { regs with rcx := value }
  | .rdx => { regs with rdx := value }
  | .rbx => { regs with rbx := value }
  | .rsp => { regs with rsp := value }
  | .rbp => { regs with rbp := value }
  | .rsi => { regs with rsi := value }
  | .rdi => { regs with rdi := value }
  | .r8 => { regs with r8 := value }
  | .r9 => { regs with r9 := value }
  | .r10 => { regs with r10 := value }
  | .r11 => { regs with r11 := value }
  | .r12 => { regs with r12 := value }
  | .r13 => { regs with r13 := value }
  | .r14 => { regs with r14 := value }
  | .r15 => { regs with r15 := value }

/-- The thread goes on at an address. -/
def goto (regs : Registers) (address : UInt64) : Registers := { regs with rip := address }

/-- The zero flag. -/
def zero (regs : Registers) : Bool := regs.eflags &&& 0x40 ≠ 0

/-- The zero flag of a result. -/
def setZero (regs : Registers) (result : UInt64) : Registers :=
  { regs with eflags := if result = 0 then regs.eflags ||| 0x40 else regs.eflags &&& ~~~0x40 }

end Registers

/-! ### Instructions -/

/-- The instructions of the bootstrap and of the shellcodes. -/
inductive Instruction
  | push (source : Register)
  | pop (target : Register)
  /-- `mov %source,%target` -/
  | mov (target source : Register)
  /-- `mov $value,%target` of 32 bits. -/
  | movImmediate (target : Register) (value : UInt64)
  /-- `mov disp(%base),%target` -/
  | load (target base : Register) (disp : UInt8)
  /-- … of 32 bits. -/
  | load32 (target base : Register) (disp : UInt8)
  /-- `lea disp(%base),%target` -/
  | lea (target base : Register) (disp : UInt8)
  /-- `mov %source,(%base)` -/
  | store (base source : Register)
  /-- `call *disp(%base)` -/
  | callAt (base : Register) (disp : UInt8)
  /-- `call *%target` -/
  | call (target : Register)
  | ret
  /-- `test %second,%first` -/
  | test (first second : Register)
  /-- `jz disp` -/
  | jumpZero (disp : UInt8)
  /-- `xor %source,%target` of 32 bits. -/
  | xor32 (target source : Register)
  | syscall
  | int3
  | ud2
  deriving DecidableEq

/-- The prefix: a wide operand, and the fourth bits of the two register fields. -/
structure Prefix where
  wide : Bool
  register : Bool
  base : Bool

/-- A prefix is there, and names no index. -/
def isPrefix (b : UInt8) : Bool := b &&& 0xF2 = 0x40

/-- The prefix of a byte. -/
def prefixOf (b : UInt8) : Prefix := ⟨b &&& 8 ≠ 0, b &&& 4 ≠ 0, b &&& 1 ≠ 0⟩

/-- The instruction behind its prefix, and its length there. -/
def decodeOpcode (pre : Prefix) : List UInt8 → Option (Instruction × ℕ)
  | 0x0F :: 0x05 :: _ => some (.syscall, 2)
  | 0x0F :: 0x0B :: _ => some (.ud2, 2)
  | 0xC3 :: _ => some (.ret, 1)
  | 0xCC :: _ => some (.int3, 1)
  | 0x74 :: disp :: _ => some (.jumpZero disp, 2)
  | 0x31 :: modrm :: _ =>
    if modrm >>> 6 = 3 ∧ ¬pre.wide then some (.xor32 (.ofField pre.base modrm) (.ofField pre.register (modrm >>> 3)), 2)
    else none
  | 0x85 :: modrm :: _ =>
    if modrm >>> 6 = 3 ∧ pre.wide then some (.test (.ofField pre.base modrm) (.ofField pre.register (modrm >>> 3)), 2)
    else none
  | 0x89 :: modrm :: _ =>
    if ¬pre.wide then none
    else if modrm >>> 6 = 3 then some (.mov (.ofField pre.base modrm) (.ofField pre.register (modrm >>> 3)), 2)
    -- without a displacement, 4 and 5 stand for other operands
    else if modrm >>> 6 = 0 ∧ modrm &&& 7 ≠ 4 ∧ modrm &&& 7 ≠ 5 then
      some (.store (.ofField pre.base modrm) (.ofField pre.register (modrm >>> 3)), 2)
    else none
  | 0x8B :: modrm :: disp :: _ =>
    if modrm >>> 6 = 1 ∧ modrm &&& 7 ≠ 4 then
      if pre.wide then some (.load (.ofField pre.register (modrm >>> 3)) (.ofField pre.base modrm) disp, 3)
      else some (.load32 (.ofField pre.register (modrm >>> 3)) (.ofField pre.base modrm) disp, 3)
    else none
  | 0x8D :: modrm :: disp :: _ =>
    if modrm >>> 6 = 1 ∧ modrm &&& 7 ≠ 4 ∧ pre.wide then
      some (.lea (.ofField pre.register (modrm >>> 3)) (.ofField pre.base modrm) disp, 3)
    else none
  | 0xFF :: modrm :: rest =>
    if (modrm >>> 3) &&& 7 ≠ 2 then none
    else if modrm >>> 6 = 3 then some (.call (.ofField pre.base modrm), 2)
    else
      match rest with
      | disp :: _ =>
        if modrm >>> 6 = 1 ∧ modrm &&& 7 ≠ 4 then some (.callAt (.ofField pre.base modrm) disp, 3) else none
      | [] => none
  | opcode :: rest =>
    if opcode &&& 0xF8 = 0x50 then some (.push (.ofField pre.base opcode), 1)
    else if opcode &&& 0xF8 = 0x58 then some (.pop (.ofField pre.base opcode), 1)
    else if opcode &&& 0xF8 = 0xB8 ∧ ¬pre.wide then
      match rest with
      | b₀ :: b₁ :: b₂ :: b₃ :: _ =>
        some (.movImmediate (.ofField pre.base opcode) (.ofNat (LittleEndian.decode [b₀, b₁, b₂, b₃])), 5)
      | _ => none
    else none
  | [] => none

/-- The instruction at the front of the bytes, and its length. -/
def decode : List UInt8 → Option (Instruction × ℕ)
  | b :: rest =>
    if isPrefix b then (decodeOpcode (prefixOf b) rest).map fun (instruction, length) => (instruction, length + 1)
    else decodeOpcode ⟨false, false, false⟩ (b :: rest)
  | [] => none

/-! ### Execution -/

/-- The little-endian word of `width` bytes at an address. -/
def loadWord (m : Memory) (width : ℕ) (a : UInt64) : Option UInt64 :=
  (ByteMemory.read m a width).map fun bs => .ofNat (LittleEndian.decode bs)

/-- A word of eight bytes is stored where all of them are mapped. -/
def storeWord (m : Memory) (a value : UInt64) : Option Memory :=
  (ByteMemory.read m a 8).map fun _ => ByteMemory.write m a (LittleEndian.encode 8 value.toNat)

/-- A displacement of one byte, with its sign. -/
def displace (base : UInt64) (disp : UInt8) : UInt64 :=
  if disp < 0x80 then base + disp.toUInt64 else base + disp.toUInt64 - 256

/-- What becomes of a thread at an instruction. -/
inductive Effect
  | runs (regs : Registers) (memory : Memory)
  /-- A system call; the thread is behind it. -/
  | calls (regs : Registers)
  /-- A breakpoint; the thread is behind it. -/
  | traps (regs : Registers)
  | faults

/-- The thread runs on where there is a result. -/
def Effect.ofOption : Option (Registers × Memory) → Effect
  | some (regs, memory) => .runs regs memory
  | none => .faults

/-- A value goes on the stack. -/
def pushed (regs : Registers) (m : Memory) (value : UInt64) : Option (Registers × Memory) :=
  (storeWord m (regs.get .rsp - 8) value).map fun m => (regs.set .rsp (regs.get .rsp - 8), m)

/-- A value comes off the stack. -/
def popped (regs : Registers) (m : Memory) : Option (UInt64 × Registers) :=
  (loadWord m 8 (regs.get .rsp)).map fun value => (value, regs.set .rsp (regs.get .rsp + 8))

/-- An instruction, where `rip` is behind it. -/
def exec (instruction : Instruction) (regs : Registers) (m : Memory) : Effect :=
  match instruction with
  | .push source => .ofOption (pushed regs m (regs.get source))
  | .pop target => .ofOption ((popped regs m).map fun (value, regs) => (regs.set target value, m))
  | .mov target source => .runs (regs.set target (regs.get source)) m
  | .movImmediate target value => .runs (regs.set target value) m
  | .load target base disp =>
    .ofOption ((loadWord m 8 (displace (regs.get base) disp)).map fun value => (regs.set target value, m))
  | .load32 target base disp =>
    .ofOption ((loadWord m 4 (displace (regs.get base) disp)).map fun value => (regs.set target value, m))
  | .lea target base disp => .runs (regs.set target (displace (regs.get base) disp)) m
  | .store base source => .ofOption ((storeWord m (regs.get base) (regs.get source)).map fun m => (regs, m))
  | .callAt base disp =>
    .ofOption ((loadWord m 8 (displace (regs.get base) disp)).bind fun callee =>
      (pushed regs m regs.rip).map fun (regs, m) => (regs.goto callee, m))
  | .call target => .ofOption ((pushed regs m regs.rip).map fun (after, m) => (after.goto (regs.get target), m))
  | .ret => .ofOption ((popped regs m).map fun (address, regs) => (regs.goto address, m))
  | .test first second => .runs (regs.setZero (regs.get first &&& regs.get second)) m
  | .jumpZero disp => .runs (if regs.zero then regs.goto (displace regs.rip disp) else regs) m
  | .xor32 target source =>
    let result := (regs.get target ^^^ regs.get source) &&& 0xFFFFFFFF
    .runs ((regs.set target result).setZero result) m
  | .syscall => .calls regs
  | .int3 => .traps regs
  | .ud2 => .faults

/-- The bytes at an address, as far as they are mapped. -/
def fetch (m : Memory) : ℕ → UInt64 → List UInt8
  | 0, _ => []
  | n + 1, a =>
    match m a with
    | some b => b :: fetch m n (a + 1)
    | none => []

/-- The longest instruction of the processor. -/
def maxLength : ℕ := 15

/-- The instruction at `rip`. -/
def step (m : Memory) (regs : Registers) : Effect :=
  match decode (fetch m maxLength regs.rip) with
  | some (instruction, length) => exec instruction (regs.goto (regs.rip + .ofNat length)) m
  | none => .faults

end X64
