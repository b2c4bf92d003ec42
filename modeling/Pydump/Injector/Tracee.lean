/-
# The helper and its tracee

`Inject` of `injector_linux.go` with everything it calls, over a `Kernel`: what `ptrace`,
`wait4`, `/proc` and the clock answer, each answer with the state of the system behind it, in
which other tasks may have run.  A function of the source is an `Injection`: it goes on from
the state behind an error as well, and the deferred functions see every way out.

The two architectures differ in their registers, their stubs and in how the clone is started;
`Arch` and `Platform` hold these.
-/

import Pydump.Injector.Symbols
import Pydump.Lib.Deferred
import Pydump.Lib.X64

namespace Pydump
namespace Injector

open Deferred (Program closing keepFirst outcome wrapping)

/-! ### The system -/

/-- What the system does with a call.  `wait` is `Wait4` of the tracee, `early` compares
`time.Now()` with the deadline, `sleep` waits for ten milliseconds. -/
structure Kernel (κ R : Type) where
  readMaps : κ → Except Failure (List UInt8) × κ
  elfFile : κ → List UInt8 → Option ElfFile
  attach : κ → Except Failure Unit × κ
  wait : κ → Except Failure UInt32 × κ
  getRegisters : κ → Except Failure R × κ
  setRegisters : R → κ → Except Failure Unit × κ
  cont : κ → Except Failure Unit × κ
  peek : UInt64 → ℕ → κ → Except Failure (List UInt8) × κ
  poke : UInt64 → List UInt8 → κ → Except Failure Unit × κ
  detach : κ → Except Failure Unit × κ
  early : κ → Bool × κ
  sleep : κ → κ

/-- `Options`; the timeout in nanoseconds. -/
structure Options where
  pid : ℤ
  agentPath : List UInt8
  socketPath : List UInt8
  nonce : List UInt8
  timeout : ℤ

/-- The system, `tracee` without its PID, and `bootstrapInUse`. -/
structure Tracee (κ R : Type) where
  system : κ
  code : UInt64
  stackTop : UInt64
  regs : R
  attached : Bool
  bootstrapInUse : Bool

/-- A function of the helper. -/
abbrev Injection (κ R α : Type) : Type := Program (Tracee κ R) Failure α

/-- What an architecture gives to the helper. -/
structure Arch (R : Type) where
  syscallStub : List UInt8
  callStub : List UInt8
  dlopenShellcode : List UInt8
  scheduleShellcode : List UInt8
  sysMmap : UInt64
  sysMprotect : UInt64
  sysMunmap : UInt64
  prepareSyscall : R → UInt64 → UInt64 → List UInt64 → R
  prepareCall : R → UInt64 → UInt64 → UInt64 → List UInt64 → R
  registerResult : R → UInt64

variable {κ R α : Type}

/-- A call of the system. -/
def call (f : κ → Except Failure α × κ) : Injection κ R α := fun tracee =>
  ((f tracee.system).1, { tracee with system := (f tracee.system).2 })

/-- A call that cannot fail. -/
def advance (f : κ → α × κ) : Injection κ R α := call fun system => (.ok (f system).1, (f system).2)

/-- `fmt.Errorf("context: %w", err)` where there is an error. -/
def within (context : String) : Injection κ R α → Injection κ R α := wrapping (.wrapped (Utf8.encode context))

/-- An error that is returned as it is. -/
def raise (message : String) : Injection κ R α := throw (.ofText message)

/-- What a function without effects returns. -/
def returned (x : Except Failure α) : Injection κ R α :=
  match x with
  | .ok a => pure a
  | .error e => throw e

/-- `errors.Join(err, cause)` with a `cause` that is not nil. -/
def errorsJoin (err : Option Failure) (cause : Failure) : Failure :=
  match err with
  | none => .alone cause
  | some err => .joined err cause

/-! ### Constants and texts -/

def pageBytes : UInt64 := 4096
def stackSize : UInt64 := 2097152
def bootstrapSize : UInt64 := 2 * pageBytes + stackSize
def cloneVM : UInt64 := 0x100
def protRead : UInt64 := 1
def protWrite : UInt64 := 2
def protExec : UInt64 := 4
def mapPrivate : UInt64 := 2
def mapAnonymous : UInt64 := 0x20

/-- `int64(value)` -/
def signed (value : UInt64) : ℤ := if value.toNat < 2 ^ 63 then value.toNat else (value.toNat : ℤ) - 2 ^ 64

/-- `%#x` -/
def hexText (value : ℕ) : String := "0x" ++ String.ofList (Nat.toDigits 16 value)

/-- The fraction of `value / 10 ^ digits`, without zeros at its end. -/
def fractionText (value digits : ℕ) : String :=
  let written := Nat.toDigits 10 (value % 10 ^ digits)
  let padded := List.replicate (digits - written.length) '0' ++ written
  let shown := (padded.reverse.dropWhile (· = '0')).reverse
  if shown = [] then "" else String.ofList ('.' :: shown)

/-- `time.Duration.String`, of a duration that is not negative. -/
def durationText (nanoseconds : ℕ) : String :=
  if nanoseconds = 0 then "0s"
  else if nanoseconds < 10 ^ 3 then s!"{nanoseconds}ns"
  else if nanoseconds < 10 ^ 6 then s!"{nanoseconds / 10 ^ 3}{fractionText nanoseconds 3}µs"
  else if nanoseconds < 10 ^ 9 then s!"{nanoseconds / 10 ^ 6}{fractionText nanoseconds 6}ms"
  else
    let seconds := nanoseconds / 10 ^ 9
    let minutes := seconds / 60
    let hours := minutes / 60
    (if hours = 0 then "" else s!"{hours}h") ++ (if minutes = 0 then "" else s!"{minutes % 60}m") ++
      s!"{seconds % 60}{fractionText nanoseconds 9}s"

/-- `WaitStatus.Stopped` -/
def stopped (status : UInt32) : Bool := status &&& 0xFF = 0x7F

/-- `WaitStatus.StopSignal` -/
def stopSignal (status : UInt32) : ℤ := if stopped status then ((status >>> 8) &&& 0xFF).toNat else -1

def SIGTRAP : ℤ := 5

/-- `Signal.String` -/
def signalText (signal : ℤ) : String :=
  let names := ["hangup", "interrupt", "quit", "illegal instruction", "trace/breakpoint trap", "aborted", "bus error",
    "floating point exception", "killed", "user defined signal 1", "segmentation fault", "user defined signal 2",
    "broken pipe", "alarm clock", "terminated"]
  if 1 ≤ signal then (names[signal.toNat - 1]?).getD s!"signal {signal}" else s!"signal {signal}"

section

variable (kernel : Kernel κ R) (arch : Arch R) (pid : ℤ)

/-! ### Attaching -/

def detach : Injection κ R Unit := do
  let tracee ← get
  if tracee.attached then do
    within s!"detach PID {pid}" (call kernel.detach)
    modify fun tracee => { tracee with attached := false }
  else pure ()

/-- The deferred function of `attach`. -/
def abandon : Except Failure Unit → Injection κ R Unit
  | .ok () => pure ()
  | .error e => fun tracee =>
    match outcome (detach kernel pid) tracee with
    | (.ok (), tracee) => (.error (.alone e), tracee)
    | (.error cause, tracee) => (.error (errorsJoin (some e) cause), tracee)

/-- What `attach` does with a tracee that is to stop. -/
def awaitStop : Injection κ R Unit := do
  let status ← within s!"wait for PID {pid} attach" (call kernel.wait)
  if ¬stopped status then raise s!"PID {pid} did not stop after attach: {hexText status.toNat}"
  else do
    let regs ← within s!"read PID {pid} general registers" (call kernel.getRegisters)
    modify fun tracee => { tracee with regs := regs }

def attach : Injection κ R Unit := do
  within s!"attach PID {pid}" (call kernel.attach)
  modify fun tracee => { tracee with attached := true }
  Deferred.deferred (abandon kernel pid) (awaitStop kernel pid)

/-! ### Operations in the target -/

/-- `executeRegisters` up to its deferred function. -/
def runRegisters (regs : R) : Injection κ R UInt64 := do
  within "set general registers" (call (kernel.setRegisters regs))
  within s!"continue PID {pid}" (call kernel.cont)
  let status ← within "wait for remote operation" (call kernel.wait)
  if ¬stopped status ∨ stopSignal status ≠ SIGTRAP then
    raise s!"remote operation stopped by {signalText (stopSignal status)} (wait status {hexText status.toNat})"
  else do
    let completed ← within "read remote result" (call kernel.getRegisters)
    pure (arch.registerResult completed)

/-- The deferred function of `executeRegisters`. -/
def restoreRegisters : Injection κ R Unit := do
  let tracee ← get
  within "restore general registers" (call (kernel.setRegisters tracee.regs))

def executeRegisters (regs : R) : Injection κ R UInt64 :=
  closing errorsJoin (restoreRegisters kernel) (runRegisters kernel arch pid regs)

/-- The deferred function of `execute`. -/
def restoreCode (backup : List UInt8) : Injection κ R Unit := do
  let tracee ← get
  within "restore bootstrap instruction" (call (kernel.poke tracee.code backup))

def execute (regs : R) (code : List UInt8) : Injection κ R UInt64 := do
  let tracee ← get
  let backup ← within "read bootstrap instruction" (call (kernel.peek tracee.code code.length))
  within "write bootstrap instruction" (call (kernel.poke tracee.code code))
  closing errorsJoin (restoreCode kernel backup) (executeRegisters kernel arch pid regs)

def remoteSyscall (number : UInt64) (arguments : List UInt64) : Injection κ R UInt64 := do
  let tracee ← get
  let result ← execute kernel arch pid (arch.prepareSyscall tracee.regs tracee.code number arguments) arch.syscallStub
  if signed result < 0 ∧ -4095 ≤ signed result then throw (.errno (-signed result).toNat) else pure result

/-- `tracee.call` -/
def callFunction (address : UInt64) (arguments : List UInt64) : Injection κ R UInt64 := do
  let tracee ← get
  execute kernel arch pid (arch.prepareCall tracee.regs tracee.code tracee.stackTop address arguments) arch.callStub

def mmap (length : UInt64) : Injection κ R UInt64 :=
  remoteSyscall kernel arch pid arch.sysMmap
    [0, length, protRead ||| protWrite, mapPrivate ||| mapAnonymous, 0xFFFFFFFFFFFFFFFF, 0]

def mprotect (address length protection : UInt64) : Injection κ R Unit := do
  let result ← remoteSyscall kernel arch pid arch.sysMprotect [address, length, protection]
  if result ≠ 0 then raise s!"mprotect returned {result.toNat}" else pure ()

def munmap (address length : UInt64) : Injection κ R Unit := do
  let result ← remoteSyscall kernel arch pid arch.sysMunmap [address, length]
  if result ≠ 0 then raise s!"munmap returned {result.toNat}" else pure ()

/-! ### Memory of the target -/

/-- `tracee.write` -/
def writeTarget (address : UInt64) (data : List UInt8) : Injection κ R Unit :=
  if _h : data = [] then pure ()
  else do
    let length := min data.length 8
    let chunk := data.take length
    let chunk ← if length < 8 then do
        let word ← call (kernel.peek address 8)
        pure (chunk ++ word.drop chunk.length)
      else pure chunk
    call (kernel.poke address chunk)
    writeTarget (address + .ofNat length) (data.drop length)
termination_by data.length
decreasing_by
  have hpos := List.length_pos_of_ne_nil _h
  rw [List.length_drop]
  omega

def readUint64 (address : UInt64) : Injection κ R UInt64 := do
  let data ← call (kernel.peek address 8)
  pure (.ofNat (LittleEndian.decode data))

/-- The rounds that there are before a deadline, at ten milliseconds each. -/
def pollRounds (timeout : ℤ) : ℕ := (timeout.toNat + 10 ^ 7 - 1) / 10 ^ 7

/-- The loop of `waitForCloneResult`. -/
def pollResult (address : UInt64) (timeout : ℤ) : ℕ → Injection κ R UInt64
  | 0 => raise s!"clone task did not finish within {durationText timeout.toNat}"
  | rounds + 1 => do
    let early ← advance kernel.early
    if ¬early then raise s!"clone task did not finish within {durationText timeout.toNat}"
    else do
      let result ← within "read clone result" (readUint64 kernel address)
      advance fun system => ((), kernel.sleep system)
      if result ≠ resultPending then pure result else pollResult address timeout rounds

/-- `waitForCloneResult`, which has completed unless it fails. -/
def waitForCloneResult (address : UInt64) (timeout : ℤ) : Injection κ R UInt64 :=
  pollResult kernel address timeout (pollRounds timeout)

/-- `bootstrapInUse = inUse` -/
def setInUse (inUse : Bool) : Injection κ R Unit := modify fun tracee => { tracee with bootstrapInUse := inUse }

/-- The deferred function of `Inject` that releases the region. -/
def releaseBootstrap (base : UInt64) : Injection κ R Unit := do
  let tracee ← get
  if tracee.bootstrapInUse then pure ()
  else within "release bootstrap memory" (munmap kernel arch pid base bootstrapSize)

/-- `readMappings` -/
def readMappings : Injection κ R (List Mapping) := do
  let content ← within s!"read PID {pid} mappings" (call kernel.readMaps)
  pure (parseMappings content)

/-- A search in the files of the target. -/
def searched (find : (List UInt8 → Option ElfFile) → Except Failure RemoteSymbol) : Injection κ R RemoteSymbol := do
  let tracee ← get
  returned (find (kernel.elfFile tracee.system))

/-- The errors of the argument blocks. -/
def Failure.ofBlock : InjectorError → Failure
  | .eio => .errno 5
  | .message reason => .ofText reason

def block (x : Except InjectorError (List UInt8)) : Injection κ R (List UInt8) := returned (x.mapError Failure.ofBlock)

end

/-! ### Injecting -/

/-- An architecture with what starts a clone there. -/
structure Platform (κ R : Type) extends Arch R where
  resolveClone : List Mapping → Injection κ R RemoteSymbol
  startClone : UInt64 → UInt64 → UInt64 → UInt64 → List UInt8 → Injection κ R UInt64

section

variable (kernel : Kernel κ R) (platform : Platform κ R) (options : Options)

/-- A clone and the result of its child: `startClone` and `waitForCloneResult` with the
checks that stand between them. -/
def runClone (starting refused : String) (wait : Injection κ R UInt64 → Injection κ R UInt64)
    (cloneAddress codeAddress childStack dataAddress : UInt64) (shellcode : List UInt8) : Injection κ R UInt64 := do
  setInUse true
  let child ← within starting (platform.startClone cloneAddress codeAddress childStack dataAddress shellcode)
  if signed child ≤ 0 then do
    setInUse false
    raise s!"{refused} {signed child}"
  else do
    let result ← wait (waitForCloneResult kernel dataAddress options.timeout)
    setInUse false
    pure result

/-- `Inject` behind the allocation of the region. -/
def bootstrap (base : UInt64) (dlopen clone : RemoteSymbol) : Injection κ R Unit := do
  let dataAddress := base
  let codeAddress := base + pageBytes
  modify fun tracee => { tracee with stackTop := base + bootstrapSize }
  within "protect bootstrap code"
    (mprotect kernel platform.toArch options.pid codeAddress pageBytes (protRead ||| protExec))
  let arguments ← block (dlopenArguments dlopen.address options.agentPath)
  within "write dlopen arguments" (writeTarget kernel dataAddress arguments)
  let tracee ← get
  let childStack := (tracee.stackTop - pageBytes) &&& ~~~15
  let handle ← runClone kernel platform options "start dlopen thread" "clone returned" id clone.address codeAddress
    childStack dataAddress platform.dlopenShellcode
  if handle = 0 then raise "dlopen returned NULL"
  else do
    let loadedMaps ← readMappings kernel options.pid
    let schedule ← within "resolve pydump_schedule"
      (searched kernel fun files => findSymbolInPath files loadedMaps options.agentPath "pydump_schedule")
    let scheduleData ← block (scheduleArguments schedule.address dataAddress options.socketPath options.nonce)
    within "write schedule arguments" (writeTarget kernel dataAddress scheduleData)
    let status ← runClone kernel platform options "start schedule thread" "schedule clone returned"
      (within "wait for Agent schedule") clone.address codeAddress childStack dataAddress platform.scheduleShellcode
    if status ≠ 0 then raise s!"pydump_schedule returned {status.toNat}" else pure ()

/-- `Inject` behind `attach`, up to its deferred `detach`. -/
def injectAttached (dlopen clone : RemoteSymbol) : Injection κ R Unit := do
  let base ← within "allocate bootstrap memory" (mmap kernel platform.toArch options.pid bootstrapSize)
  setInUse false
  keepFirst (releaseBootstrap kernel platform.toArch options.pid base)
    (bootstrap kernel platform options base dlopen clone)

/-- `Inject` up to the first call of `ptrace`. -/
def resolve : Injection κ R (RemoteSymbol × RemoteSymbol) := do
  if options.timeout ≤ 0 then raise "timeout must be positive"
  else do
    let maps ← readMappings kernel options.pid
    let dlopen ← within "resolve dlopen"
      (searched kernel fun files => findSymbol files maps ["dlopen", "__libc_dlopen_mode"])
    let clone ← within "resolve clone" (platform.resolveClone maps)
    pure (dlopen, clone)

/-- `Inject` up to its first deferred function. -/
def arrive : Injection κ R (RemoteSymbol × RemoteSymbol) := do
  let (dlopen, clone) ← resolve kernel platform options
  modify fun tracee => { tracee with code := dlopen.entry, stackTop := 0, attached := false }
  attach kernel options.pid
  pure (dlopen, clone)

def inject : Injection κ R Unit := do
  let (dlopen, clone) ← arrive kernel platform options
  keepFirst (detach kernel options.pid) (injectAttached kernel platform options dlopen clone)

end

/-! ### amd64 -/

/-- `syscall.PtraceRegs` -/
abbrev Amd64Registers : Type := X64.Registers

namespace Amd64

/-- `argumentValues` -/
def argumentValue (arguments : List UInt64) (i : ℕ) : UInt64 := arguments.getD i 0

def prepareSyscall (regs : Amd64Registers) (code number : UInt64) (arguments : List UInt64) : Amd64Registers :=
  { regs with
    rip := code
    rax := number
    rdi := argumentValue arguments 0
    rsi := argumentValue arguments 1
    rdx := argumentValue arguments 2
    r10 := argumentValue arguments 3
    r8 := argumentValue arguments 4
    r9 := argumentValue arguments 5 }

def prepareCall (regs : Amd64Registers) (code stackTop address : UInt64) (arguments : List UInt64) : Amd64Registers :=
  { regs with
    rip := code
    rax := address
    rsp := stackTop &&& ~~~15
    rbp := stackTop &&& ~~~15
    rdi := argumentValue arguments 0
    rsi := argumentValue arguments 1
    rdx := argumentValue arguments 2
    rcx := argumentValue arguments 3
    r8 := argumentValue arguments 4
    r9 := argumentValue arguments 5 }

def SYS_CLONE : UInt64 := 56

def prepareClone (regs : Amd64Registers)
    (codeAddress parentStack childStack childFunction childArgument : UInt64) : Amd64Registers :=
  { regs with
    rip := codeAddress
    rsp := parentStack &&& ~~~15
    rbp := parentStack &&& ~~~15
    rax := SYS_CLONE
    rdi := cloneVM
    rsi := childStack
    rdx := 0
    r10 := 0
    r8 := 0
    r12 := childFunction
    r13 := childArgument }

def syscallStub : List UInt8 := [0x0F, 0x05, 0xCC]
def callStub : List UInt8 := [0xFF, 0xD0, 0xCC]

def cloneBootstrap : List UInt8 :=
  [0xB8, 0x38, 0x00, 0x00, 0x00, 0x0F, 0x05, 0x48, 0x85, 0xC0, 0x74, 0x01, 0xCC, 0x4C, 0x89, 0xEF, 0x41, 0xFF, 0xD4,
    0xB8, 0x3C, 0x00, 0x00, 0x00, 0x31, 0xFF, 0x0F, 0x05, 0x0F, 0x0B]

def arch : Arch Amd64Registers where
  syscallStub := syscallStub
  callStub := callStub
  dlopenShellcode := Injector.dlopenShellcode
  scheduleShellcode := Injector.scheduleShellcode
  sysMmap := 9
  sysMprotect := 10
  sysMunmap := 11
  prepareSyscall := prepareSyscall
  prepareCall := prepareCall
  registerResult regs := regs.rax

def startClone (kernel : Kernel κ Amd64Registers) (pid : ℤ) (codeAddress childStack dataAddress : UInt64)
    (childCode : List UInt8) : Injection κ Amd64Registers UInt64 := do
  if cloneBootstrap.length + childCode.length > pageSize then raise "clone bootstrap exceeds one code page"
  else do
    within "write raw clone bootstrap" (writeTarget kernel codeAddress (cloneBootstrap ++ childCode))
    let tracee ← get
    executeRegisters kernel arch pid (prepareClone tracee.regs codeAddress tracee.stackTop childStack
      (codeAddress + .ofNat cloneBootstrap.length) dataAddress)

def platform (kernel : Kernel κ Amd64Registers) (pid : ℤ) : Platform κ Amd64Registers where
  toArch := arch
  resolveClone _ := pure ⟨0, 0⟩
  startClone _ := startClone kernel pid

end Amd64

/-! ### arm64 -/

/-- `syscall.PtraceRegs` -/
structure Arm64Registers where
  regs : Fin 31 → UInt64
  sp : UInt64
  pc : UInt64
  pstate : UInt64

namespace Arm64

/-- `setRegisterArguments` -/
def setRegisterArguments (regs : Fin 31 → UInt64) (arguments : List UInt64) : Fin 31 → UInt64 := fun i =>
  if i < 6 then arguments.getD i 0 else regs i

def prepareSyscall (regs : Arm64Registers) (code number : UInt64) (arguments : List UInt64) : Arm64Registers :=
  { regs with
    pc := code
    regs := setRegisterArguments (fun i => if i = 8 then number else regs.regs i) arguments }

def prepareCall (regs : Arm64Registers) (code stackTop address : UInt64) (arguments : List UInt64) : Arm64Registers :=
  { regs with
    pc := code
    sp := stackTop &&& ~~~15
    regs := setRegisterArguments
      (fun i => if i = 29 then stackTop &&& ~~~15 else if i = 16 then address else regs.regs i) arguments }

def syscallStub : List UInt8 := [0x01, 0x00, 0x00, 0xD4, 0x00, 0x00, 0x20, 0xD4]
def callStub : List UInt8 := [0x00, 0x02, 0x3F, 0xD6, 0x00, 0x00, 0x20, 0xD4]

def dlopenShellcode : List UInt8 :=
  [0xF3, 0x7B, 0xBF, 0xA9, 0xF3, 0x03, 0x00, 0xAA, 0x70, 0x06, 0x40, 0xF9, 0x61, 0x12, 0x40, 0xB9, 0x60, 0x62, 0x00,
    0x91, 0x00, 0x02, 0x3F, 0xD6, 0x60, 0x02, 0x00, 0xF9, 0xF3, 0x7B, 0xC1, 0xA8, 0xC0, 0x03, 0x5F, 0xD6]

def scheduleShellcode : List UInt8 :=
  [0xF3, 0x7B, 0xBF, 0xA9, 0xF3, 0x03, 0x00, 0xAA, 0x70, 0x06, 0x40, 0xF9, 0x60, 0x0A, 0x40, 0xF9, 0x61, 0x0E, 0x40,
    0xF9, 0x00, 0x02, 0x3F, 0xD6, 0x60, 0x02, 0x00, 0xF9, 0xF3, 0x7B, 0xC1, 0xA8, 0xC0, 0x03, 0x5F, 0xD6]

def arch : Arch Arm64Registers where
  syscallStub := syscallStub
  callStub := callStub
  dlopenShellcode := dlopenShellcode
  scheduleShellcode := scheduleShellcode
  sysMmap := 222
  sysMprotect := 226
  sysMunmap := 215
  prepareSyscall := prepareSyscall
  prepareCall := prepareCall
  registerResult regs := regs.regs 0

def startClone (kernel : Kernel κ Arm64Registers) (pid : ℤ) (cloneAddress codeAddress childStack dataAddress : UInt64)
    (childCode : List UInt8) : Injection κ Arm64Registers UInt64 := do
  writeTarget kernel codeAddress childCode
  callFunction kernel arch pid cloneAddress [codeAddress, childStack, cloneVM, dataAddress]

def platform (kernel : Kernel κ Arm64Registers) (pid : ℤ) : Platform κ Arm64Registers where
  toArch := arch
  resolveClone maps := searched kernel fun files => findSymbol files maps ["clone", "__clone"]
  startClone := startClone kernel pid

end Arm64

/-! ### The builds -/

/-- `GOARCH`, where the helper is built for it. -/
inductive Architecture
  | amd64
  | arm64
  deriving DecidableEq

namespace Architecture

/-- `syscall.PtraceRegs` -/
def Registers : Architecture → Type
  | .amd64 => Amd64Registers
  | .arm64 => Arm64Registers

def platform : (architecture : Architecture) → Kernel κ architecture.Registers → ℤ → Platform κ architecture.Registers
  | .amd64 => Amd64.platform
  | .arm64 => Arm64.platform

end Architecture

end Injector
end Pydump
