/-
# The life of a session

`pydump_schedule`, `start_scheduled_session`, `pydump_start` and `session_main` of
`capture/agent/agent.c` as tasks that share the two flags and the static buffer
`scheduled_session`.

Each task is where it stands in its function, and one act takes it past the next
access to shared memory or the next call of the system; whether `calloc`,
`PyThread_start_new_thread` and `Py_AddPendingCall` succeed is the answer of the
outside.  A caller enters with any arguments.  `Py_AddPendingCall` adds a pending
call, which the interpreter may run from then on, and
`PyThread_start_new_thread` a session.  A task that has ended stays, with its
result.
-/

import Pydump.Lib.Interleaving

namespace Pydump
namespace Agent
namespace Lifecycle

open Interleaving (Program Config)

def NONCE_SIZE : ℕ := 16
/-- `sizeof(sockaddr_un.sun_path)` on Linux. -/
def SUN_PATH_SIZE : ℕ := 108

/-! ### Strings and nonces -/

/-- A string of C, without the zero byte that ends it. -/
structure CString where
  bytes : List UInt8
  nonzero : 0 ∉ bytes

/-- `uint8_t nonce[PYDUMP_NONCE_SIZE]`. -/
@[ext]
structure Nonce where
  bytes : List UInt8
  length_bytes : bytes.length = NONCE_SIZE

/-- `session_args`: two arrays. -/
structure SessionArgs where
  socketPath : List UInt8
  nonce : Nonce

/-- Zeroed memory. -/
def SessionArgs.zero : SessionArgs :=
  ⟨List.replicate SUN_PATH_SIZE 0, ⟨List.replicate NONCE_SIZE 0, List.length_replicate⟩⟩

/-- The string at the start of an array. -/
def readString (array : List UInt8) : List UInt8 := array.takeWhile (· ≠ 0)

/-- `memcpy(array, path, strlen(path) + 1)`. -/
def copyString (array path : List UInt8) : List UInt8 := path ++ 0 :: array.drop (path.length + 1)

/-- The value of a hexadecimal digit, which is not upper case. -/
def hexValue (c : UInt8) : Option ℕ :=
  if 0x30 ≤ c.toNat ∧ c.toNat ≤ 0x39 then some (c.toNat - 0x30)
  else if 0x61 ≤ c.toNat ∧ c.toNat ≤ 0x66 then some (c.toNat - 0x61 + 10)
  else none

/-- The loop of `decode_nonce`: whether it ends with 0, and the bytes it has
written by then. -/
def decodeDigits : List UInt8 → Bool × List UInt8
  | high :: low :: hex =>
    match hexValue high, hexValue low with
    | some h, some l =>
      let r := decodeDigits hex
      (r.1, UInt8.ofNat (16 * h + l) :: r.2)
    | _, _ => (false, [])
  | _ => (true, [])

/-- A decoded byte takes two digits. -/
theorem length_decodeDigits (hex : List UInt8) : 2 * (decodeDigits hex).2.length ≤ hex.length := by
  fun_induction decodeDigits hex with
  | case1 high low hex h l hhigh hlow r ih =>
    show 2 * ((decodeDigits hex).2.length + 1) ≤ hex.length + 2
    omega
  | case2 => simp
  | case3 => simp

/-- `decode_nonce`: whether it returns 0, and what it leaves in `nonce`. -/
def decodeNonce (hex : List UInt8) (nonce : Nonce) : Bool × Nonce :=
  if h : hex.length ≠ NONCE_SIZE * 2 then (false, nonce)
  else
    ((decodeDigits hex).1, ⟨(decodeDigits hex).2 ++ nonce.bytes.drop (decodeDigits hex).2.length, by
      have hlen := length_decodeDigits hex
      have hnonce := nonce.length_bytes
      rw [List.length_append, List.length_drop]
      omega⟩)

/-- `hex_digits[value]`. -/
def hexDigit (value : ℕ) : UInt8 := if value < 10 then UInt8.ofNat (0x30 + value) else UInt8.ofNat (0x61 + value - 10)

/-- The loop of `start_scheduled_session`. -/
def encodeNonce (nonce : Nonce) : List UInt8 :=
  nonce.bytes.flatMap fun b => [hexDigit (b.toNat / 16), hexDigit (b.toNat % 16)]

/-! ### Tasks -/

/-- What the tasks share. -/
structure Shared where
  sessionActive : Bool
  scheduleActive : Bool
  scheduled : SessionArgs

/-- The arguments of a call that are there and short enough. -/
structure Request where
  socketPath : CString
  nonceHex : CString

/-- A `const char *`: nothing, a string of the caller, or
`scheduled_session.socket_path`. -/
inductive Pointer
  | null
  | string (s : CString)
  | scheduled

/-- The string that a pointer stands for. -/
def Pointer.read (shared : Shared) : Pointer → Option (List UInt8)
  | .null => none
  | .string s => some s.bytes
  | .scheduled => some (readString shared.scheduled.socketPath)

/-- Where a call of `pydump_start` stands; `failing` has the flag to clear before
it returns `code`. -/
inductive Starting
  | entered (path : Pointer) (nonceHex : Option (List UInt8))
  | checked (path : Pointer) (nonceHex : List UInt8)
  | claimed (path : Pointer) (nonceHex : List UInt8)
  | allocated (path : Pointer) (nonceHex : List UInt8)
  | filled (args : SessionArgs)
  | failing (code : ℕ)
  | returned (code : ℕ)

/-- Where a call of `pydump_schedule` stands; `accepted` has returned 0. -/
inductive Scheduling
  | entered (path nonceHex : Option CString)
  | checked (request : Request)
  | claimed (request : Request)
  | copied (request : Request)
  | filled (request : Request)
  | failing (code : ℕ)
  | accepted (request : Request)
  | returned (code : ℕ)

/-- Where a call of `start_scheduled_session` stands; `returned` has the result
and says whether a Python exception was set. -/
inductive Pending
  | queued
  | starting (start : Starting)
  | returned (value : Int) (exception : Bool)

/-- Where `session_main` stands. -/
inductive Session
  | running
  | done
  | ended

/-- A task.  A pending call and a session remember the request that they come
from, which the code does not; it plays no part in what they do. -/
inductive Task
  | schedule (call : Scheduling)
  | start (call : Starting)
  | pending (origin : Request) (call : Pending)
  | session (origin : Option Request) (args : SessionArgs) (thread : Session)

/-! ### Acts -/

/-- One act of `pydump_start`; the last component are the arguments of the thread
it starts.  `granted` is the answer of `calloc` and `PyThread_start_new_thread`. -/
def Starting.act (granted : Bool) (shared : Shared) : Starting → Shared × Starting × Option SessionArgs
  | .entered path nonceHex =>
    match path.read shared, nonceHex with
    | some bytes, some nonceHex =>
      (shared, if bytes.length ≥ SUN_PATH_SIZE then .returned 2 else .checked path nonceHex, none)
    | _, _ => (shared, .returned 2, none)
  | .checked path nonceHex =>
    if shared.sessionActive then (shared, .returned 3, none)
    else ({ shared with sessionActive := true }, .claimed path nonceHex, none)
  | .claimed path nonceHex => (shared, if granted then .allocated path nonceHex else .failing 4, none)
  | .allocated path nonceHex =>
    let args := SessionArgs.zero
    let decoded := decodeNonce nonceHex args.nonce
    (shared, if decoded.1 then
      .filled ⟨copyString args.socketPath ((path.read shared).getD []), decoded.2⟩ else .failing 5, none)
  | .filled args => if granted then (shared, .returned 0, some args) else (shared, .failing 6, none)
  | .failing code => ({ shared with sessionActive := false }, .returned code, none)
  | .returned code => (shared, .returned code, none)

/-- One act of `pydump_schedule`, and whether a pending call was added.  `granted`
is the answer of `Py_AddPendingCall`. -/
def Scheduling.act (granted : Bool) (shared : Shared) : Scheduling → Shared × Scheduling × Option Request
  | .entered path nonceHex =>
    match path, nonceHex with
    | some path, some nonceHex =>
      (shared, if path.bytes.length ≥ SUN_PATH_SIZE then .returned 2 else .checked ⟨path, nonceHex⟩, none)
    | _, _ => (shared, .returned 2, none)
  | .checked request =>
    if shared.scheduleActive then (shared, .returned 3, none)
    else ({ shared with scheduleActive := true }, .claimed request, none)
  | .claimed request =>
    let scheduled := { shared.scheduled with
      socketPath := copyString shared.scheduled.socketPath request.socketPath.bytes }
    ({ shared with scheduled := scheduled }, .copied request, none)
  | .copied request =>
    let decoded := decodeNonce request.nonceHex.bytes shared.scheduled.nonce
    ({ shared with scheduled := { shared.scheduled with nonce := decoded.2 } },
      if decoded.1 then .filled request else .failing 5, none)
  | .filled request => if granted then (shared, .accepted request, some request) else (shared, .failing 7, none)
  | .failing code => ({ shared with scheduleActive := false }, .returned code, none)
  | .accepted request => (shared, .accepted request, none)
  | .returned code => (shared, .returned code, none)

/-- One act of `start_scheduled_session`. -/
def Pending.act (granted : Bool) (shared : Shared) : Pending → Shared × Pending × Option SessionArgs
  | .queued => (shared, .starting (.entered .scheduled (some (encodeNonce shared.scheduled.nonce))), none)
  | .starting (.returned code) =>
    ({ shared with scheduleActive := false }, .returned (if code = 0 then 0 else -1) false, none)
  | .starting start =>
    let r := start.act granted shared
    (r.1, .starting r.2.1, r.2.2)
  | .returned value exception => (shared, .returned value exception, none)

/-- One act of `session_main`.  However the session goes, it comes to `done` at
last. -/
def Session.act (shared : Shared) : Session → Shared × Session
  | .running => (shared, .done)
  | .done => ({ shared with sessionActive := false }, .ended)
  | .ended => (shared, .ended)

/-- The thread that was started, if one was. -/
def newSession (origin : Option Request) (args : Option SessionArgs) : List Task :=
  (args.map fun args => Task.session origin args .running).toList

/-- A step of a task. -/
def Task.act (granted : Bool) (shared : Shared) : Task → Shared × List Task
  | .schedule call =>
    let r := call.act granted shared
    (r.1, .schedule r.2.1 :: (r.2.2.map fun request => Task.pending request .queued).toList)
  | .start call =>
    let r := call.act granted shared
    (r.1, .start r.2.1 :: newSession none r.2.2)
  | .pending origin call =>
    let r := call.act granted shared
    (r.1, .pending origin r.2.1 :: newSession (some origin) r.2.2)
  | .session origin args thread =>
    let r := thread.act shared
    (r.1, [.session origin args r.2])

/-- The callers: with any arguments, of which none is the static buffer. -/
inductive Task.Enters : Task → Prop
  | schedule (path nonceHex : Option CString) : Task.Enters (.schedule (.entered path nonceHex))
  | start (path nonceHex : Option CString) :
      Task.Enters (.start (.entered (path.elim .null .string) (nonceHex.map CString.bytes)))

/-- The calls and sessions of one process. -/
def program : Program Shared Task Bool := ⟨Task.act, Task.Enters⟩

/-- The Agent once it is loaded. -/
def loaded : Config Shared Task := ⟨⟨false, false, .zero⟩, []⟩

end Lifecycle
end Agent
end Pydump
