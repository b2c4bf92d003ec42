/-
# The argument block of the bootstrap

`dlopenArguments` and `scheduleArguments` lay out what the child needs in one page, and
`tracee.write` copies the block into the target eight bytes at a time: a full word is
poked as it is, and for what is left of the block the word that stands there is peeked
first and its beginning replaced.

`dlopenShellcode` and `scheduleShellcode` are the bytes of the source.  `decode` names
the instructions they consist of and `runToCall` runs them on the memory up to the call,
so what a block has to hold is what these instructions read.
-/

import Pydump.Lib.ByteMemory
import Pydump.Lib.ExceptLoop
import Pydump.Lib.LittleEndian

namespace Pydump
namespace Injector

open ByteMemory (Memory)

/-- The errors of the loader, as far as the argument block goes. -/
inductive InjectorError where
  /-- What `ptrace` answers where an addressed byte is not mapped. -/
  | eio
  | message (text : String)
  deriving DecidableEq

/-! ### Writing into the target -/

/-- `syscall.PtracePeekData` of one word. -/
def peekData (memory : Memory) (address : UInt64) : Except InjectorError (List UInt8) :=
  match ByteMemory.read memory address 8 with
  | some word => .ok word
  | none => .error .eio

/-- `syscall.PtracePokeData`. -/
def pokeData (memory : Memory) (address : UInt64) (data : List UInt8) : Except InjectorError Memory :=
  match ByteMemory.read memory address data.length with
  | some _ => .ok (ByteMemory.write memory address data)
  | none => .error .eio

/-- `tracee.write`. -/
def write (address : UInt64) (data : List UInt8) (memory : Memory) : Except InjectorError Memory :=
  if _h : data = [] then .ok memory
  else do
    let length := min data.length 8
    let chunk := data.take length
    let chunk ← if length < 8 then do
        let word ← peekData memory address
        pure (chunk ++ word.drop chunk.length)
      else pure chunk
    let memory ← pokeData memory address chunk
    write (address + .ofNat length) (data.drop length) memory
termination_by data.length
decreasing_by
  have hpos := List.length_pos_of_ne_nil _h
  rw [List.length_drop]
  omega

/-! ### The blocks -/

def pageSize : ℕ := 4096
def rtldNow : ℕ := 2
def resultPending : UInt64 := 0xFFFFFFFFFFFFFFFF
def stringsOffset : ℕ := 32

/-- `copy(data[offset:], bytes)`, where there is room for all of them. -/
def put (offset : ℕ) (bytes data : List UInt8) : List UInt8 :=
  data.take offset ++ bytes ++ data.drop (offset + bytes.length)

/-- `binary.LittleEndian.PutUint64(data[offset:], value)`. -/
def putUint64 (offset : ℕ) (value : UInt64) : List UInt8 → List UInt8 := put offset (LittleEndian.encode 8 value.toNat)

/-- `binary.LittleEndian.PutUint32(data[offset:], value)`. -/
def putUint32 (offset value : ℕ) : List UInt8 → List UInt8 := put offset (LittleEndian.encode 4 value)

def dlopenArguments (address : UInt64) (path : List UInt8) : Except InjectorError (List UInt8) :=
  if path.length + 25 > pageSize then .error (.message "Agent path exceeds bootstrap data page")
  else
    let data := List.replicate (24 + path.length + 1) 0
    let data := putUint64 0 resultPending data
    let data := putUint64 8 address data
    let data := putUint32 16 rtldNow data
    .ok (put 24 path data)

def scheduleArguments (address dataAddress : UInt64) (socketPath nonce : List UInt8) :
    Except InjectorError (List UInt8) :=
  let nonceOffset := stringsOffset + socketPath.length + 1
  if nonceOffset + nonce.length + 1 > pageSize then
    .error (.message "Agent arguments exceed bootstrap data page")
  else
    let data := List.replicate (nonceOffset + nonce.length + 1) 0
    let data := putUint64 0 resultPending data
    let data := putUint64 8 address data
    let data := putUint64 16 (dataAddress + .ofNat stringsOffset) data
    let data := putUint64 24 (dataAddress + .ofNat nonceOffset) data
    let data := put stringsOffset socketPath data
    .ok (put nonceOffset nonce data)

/-! ### The shellcodes -/

def dlopenShellcode : List UInt8 :=
  [0x53, 0x48, 0x89, 0xfb, 0x8b, 0x73, 0x10, 0x48, 0x8d, 0x7b, 0x18, 0xff, 0x53, 0x08, 0x48, 0x89, 0x03, 0x5b, 0xc3]

def scheduleShellcode : List UInt8 :=
  [0x53, 0x48, 0x89, 0xfb, 0x48, 0x8b, 0x7b, 0x10, 0x48, 0x8b, 0x73, 0x18, 0xff, 0x53, 0x08, 0x48, 0x89, 0x03,
    0x5b, 0xc3]

/-- The instructions of the two shellcodes; operands in the order of the comments
beside the source's bytes. -/
inductive Instruction where
  /-- `push %rbx` -/
  | pushRbx
  /-- `mov %rdi,%rbx` -/
  | movRdiRbx
  /-- `mov disp(%rbx),%esi` -/
  | loadEsi (disp : UInt8)
  /-- `mov disp(%rbx),%rdi` -/
  | loadRdi (disp : UInt8)
  /-- `mov disp(%rbx),%rsi` -/
  | loadRsi (disp : UInt8)
  /-- `lea disp(%rbx),%rdi` -/
  | leaRdi (disp : UInt8)
  /-- `call *disp(%rbx)` -/
  | call (disp : UInt8)
  /-- `mov %rax,(%rbx)` -/
  | storeRax
  /-- `pop %rbx` -/
  | popRbx
  /-- `ret` -/
  | ret
  deriving DecidableEq

/-- The instructions of a byte list, if it consists of these. -/
def decode : List UInt8 → Option (List Instruction)
  | [] => some []
  | 0x53 :: rest => (decode rest).map (.pushRbx :: ·)
  | 0x48 :: 0x89 :: 0xfb :: rest => (decode rest).map (.movRdiRbx :: ·)
  | 0x8b :: 0x73 :: disp :: rest => (decode rest).map (.loadEsi disp :: ·)
  | 0x48 :: 0x8b :: 0x7b :: disp :: rest => (decode rest).map (.loadRdi disp :: ·)
  | 0x48 :: 0x8b :: 0x73 :: disp :: rest => (decode rest).map (.loadRsi disp :: ·)
  | 0x48 :: 0x8d :: 0x7b :: disp :: rest => (decode rest).map (.leaRdi disp :: ·)
  | 0xff :: 0x53 :: disp :: rest => (decode rest).map (.call disp :: ·)
  | 0x48 :: 0x89 :: 0x03 :: rest => (decode rest).map (.storeRax :: ·)
  | 0x5b :: rest => (decode rest).map (.popRbx :: ·)
  | 0xc3 :: rest => (decode rest).map (.ret :: ·)
  | _ => none

/-- The registers that the shellcodes use before their call. -/
structure Registers where
  rbx : UInt64
  rdi : UInt64
  rsi : UInt64
  deriving DecidableEq

/-- A call: the function and its first two arguments, and where its result goes. -/
structure Call where
  callee : UInt64
  first : UInt64
  second : UInt64
  result : UInt64
  deriving DecidableEq

/-- A signed displacement of one byte. -/
def displaced (base : UInt64) (disp : UInt8) : UInt64 :=
  if disp < 0x80 then base + disp.toUInt64 else base + disp.toUInt64 - 256

/-- The little-endian integer of `w` bytes at an address. -/
def uintAt (memory : Memory) (w : ℕ) (address : UInt64) : Option ℕ :=
  (ByteMemory.read memory address w).map LittleEndian.decode

/-- The instructions up to the call, which `mov %rax,(%rbx)` has to follow. -/
def runToCall (memory : Memory) : List Instruction → Registers → Option Call
  | .pushRbx :: rest, regs => runToCall memory rest regs
  | .movRdiRbx :: rest, regs => runToCall memory rest { regs with rbx := regs.rdi }
  | .loadEsi disp :: rest, regs => do
    let value ← uintAt memory 4 (displaced regs.rbx disp)
    runToCall memory rest { regs with rsi := .ofNat value }
  | .loadRdi disp :: rest, regs => do
    let value ← uintAt memory 8 (displaced regs.rbx disp)
    runToCall memory rest { regs with rdi := .ofNat value }
  | .loadRsi disp :: rest, regs => do
    let value ← uintAt memory 8 (displaced regs.rbx disp)
    runToCall memory rest { regs with rsi := .ofNat value }
  | .leaRdi disp :: rest, regs => runToCall memory rest { regs with rdi := displaced regs.rbx disp }
  | .call disp :: .storeRax :: _, regs => do
    let callee ← uintAt memory 8 (displaced regs.rbx disp)
    pure ⟨.ofNat callee, regs.rdi, regs.rsi, regs.rbx⟩
  | _, _ => none

/-- The call a shellcode makes when it is entered with `argument` in `%rdi`. -/
def callOf (shellcode : List UInt8) (memory : Memory) (argument : UInt64) : Option Call := do
  let instructions ← decode shellcode
  runToCall memory instructions ⟨0, argument, 0⟩

end Injector
end Pydump
