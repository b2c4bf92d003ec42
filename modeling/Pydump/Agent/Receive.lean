/-
# What the Agent receives

The receiving half of `capture/agent/agent.c`: `receive_all`, `receive_frame`,
`handle_requests` and `session_main` behind `connect_collector`.

What the calls of `recv` do is a list, as for `send`: some bytes arrive, of which a call
takes at most what it asked for and leaves the rest, a signal interrupts, or the call
fails; at the end of the list the stream has ended.  `receive_all` stores where its caller
says, and the caller's array has a capacity that `receive_frame` is not told: a store
behind it is a `Fault`, and so is a copy from behind the payload that was received.
-/

import Pydump.Agent.Model
import Pydump.Lib.Utf8

namespace Pydump
namespace Agent

open Protocol (FrameKind)

/-- How one call of `recv` ends; no bytes are the end of the stream. -/
inductive ReceiveOutcome
  | received (bytes : List UInt8)
  | interrupted
  | failed
  deriving DecidableEq

/-- What must not happen in a session. -/
inductive Fault
  /-- A copy of the sending half leaves its buffer. -/
  | send (fault : MemoryFault)
  /-- `recv` stores behind the end of the caller's array. -/
  | overflow
  /-- The requests are read from behind the payload that was received. -/
  | overread
  /-- The loop of `handle_requests` goes on for ever. -/
  | diverged
  deriving DecidableEq

/-- A session with what the next calls of `recv` do. -/
structure Connection where
  session : Session
  receives : List ReceiveOutcome

/-- A function of the Agent that receives. -/
abbrev Duplex (α : Type) : Type := StateT Connection (Except Fault) α

/-- A call of the sending half. -/
def sending {α : Type} (routine : Routine α) : Duplex α := fun connection =>
  match routine connection.session with
  | .ok (a, session) => .ok (a, { connection with session := session })
  | .error fault => .error (.send fault)

/-! ### Bytes in -/

/-- The loop of `receive_all` with `missing` bytes to go, behind those that are stored in
an array of `capacity` bytes: the stored bytes, unless it returns -1, and what is left of
the outcomes. -/
def receiveLoop (capacity : ℕ) :
    List ReceiveOutcome → ℕ → List UInt8 → Except Fault (Option (List UInt8) × List ReceiveOutcome)
  | receives, 0, stored => .ok (some stored, receives)
  | [], _ + 1, _ => .ok (none, [])
  | .interrupted :: receives, missing + 1, stored => receiveLoop capacity receives (missing + 1) stored
  | .failed :: receives, _ + 1, _ => .ok (none, receives)
  | .received bytes :: receives, missing + 1, stored =>
    if bytes = [] then .ok (none, receives)
    else if capacity < stored.length + (bytes.take (missing + 1)).length then .error .overflow
    else if bytes.length ≤ missing then receiveLoop capacity receives (missing + 1 - bytes.length) (stored ++ bytes)
    else .ok (some (stored ++ bytes.take (missing + 1)),
      if bytes.length = missing + 1 then receives else .received (bytes.drop (missing + 1)) :: receives)

/-- `receive_all` into an array of `capacity` bytes. -/
def receiveAll (capacity length : ℕ) : Duplex (Option (List UInt8)) := fun connection =>
  match receiveLoop capacity connection.receives length [] with
  | .ok (stored, receives) => .ok (stored, { connection with receives := receives })
  | .error fault => .error fault

def FRAME_HEADER_SIZE : ℕ := 12

/-- The kind and the length in a header that `receive_frame` does not refuse. -/
def acceptHeader (header : List UInt8) : Option (UInt8 × ℕ) :=
  let length := BigEndian.decode ((header.drop 8).take 4)
  if header.take 4 ≠ [0x50, 0x59, 0x44, 0x50] ∨ header.getD 4 0 ≠ PROTOCOL_VERSION ∨
      (header.drop 6).take 2 ≠ [0, 0] ∨ length > MAX_PAYLOAD then none
  else some (header.getD 5 0, length)

/-- What `receive_frame` stores through its pointers; the kind is any byte. -/
structure ReceivedFrame where
  kind : UInt8
  length : ℕ
  payload : List UInt8

/-- `receive_frame`, called with an array of `capacity` bytes. -/
def receiveFrame (capacity : ℕ) : Duplex (Option ReceivedFrame) := do
  match ← receiveAll FRAME_HEADER_SIZE FRAME_HEADER_SIZE with
  | none => pure none
  | some header =>
    match acceptHeader header with
    | none => pure none
    | some (kind, length) =>
      if length = 0 then pure (some ⟨kind, length, []⟩)
      else do
        match ← receiveAll capacity length with
        | none => pure none
        | some payload => pure (some ⟨kind, length, payload⟩)

/-! ### A session -/

/-- What the session finds in the process it runs in; `objectAt` is the object at an
address. -/
structure Target where
  pythonMajor : UInt8
  pythonMinor : UInt8
  nonce : List UInt8
  wellKnown : List ℕ
  gcObjects : List ℕ
  objectAt : ℕ → PyObject

def sendError (message : String) : Routine Status := sendFrame .error ((Utf8.encode message).take MAX_PAYLOAD)

/-- `send_hello`: pointers have eight bytes, the least significant first. -/
def sendHello (target : Target) : Routine Status :=
  sendFrame .hello ([target.pythonMajor, target.pythonMinor, 8, 1] ++ target.nonce)

def sendWellKnown (target : Target) : Routine Status :=
  sendFrame .wellKnown (target.wellKnown.flatMap (BigEndian.encode 8))

/-- `memcpy(&network_address, payload + offset, sizeof(network_address))`, turned to host
order. -/
def loadAddress (payload : List UInt8) (offset : ℕ) : Duplex ℕ :=
  if offset + 8 ≤ payload.length then pure (BigEndian.decode ((payload.drop offset).take 8)) else throw .overread

/-- The values of `offset` in the loop of `handle_requests`. -/
def requestOffsets (length : ℕ) : List ℕ := (List.range ((length + 7) / 8)).map (8 * ·)

/-- The loop over the requests of one frame. -/
def sendRequested (target : Target) (payload : List UInt8) : List ℕ → Duplex Status
  | [] => pure .ok
  | offset :: offsets => do
    let address ← loadAddress payload offset
    match ← sending (sendObject (target.objectAt address)) with
    | .failed => pure .failed
    | .ok => sendRequested target payload offsets

/-- The loop of `handle_requests` over frames. -/
def handleFrames (target : Target) (capacity : ℕ) : ℕ → Duplex Status
  | 0 => throw .diverged
  | rounds + 1 => do
    match ← receiveFrame capacity with
    | none => pure .failed
    | some frame =>
      if frame.kind = FrameKind.finish.code ∧ frame.length = 0 then sending (sendFrame .complete [])
      else if frame.kind ≠ FrameKind.requestObjects.code ∨ frame.length % 8 ≠ 0 then do
        let _ ← sending (sendError "expected an object request batch")
        pure .failed
      else do
        match ← sendRequested target frame.payload (requestOffsets frame.length) with
        | .failed => pure .failed
        | .ok => do
          match ← sending (andThen flushRecordBatch (sendFrame .batchDone [])) with
          | .failed => pure .failed
          | .ok => handleFrames target capacity rounds

/-- The bytes that still arrive before the stream ends or fails. -/
def arrivingBytes : List ReceiveOutcome → List UInt8
  | [] => []
  | .interrupted :: receives => arrivingBytes receives
  | .failed :: _ => []
  | .received bytes :: receives => if bytes = [] then [] else bytes ++ arrivingBytes receives

/-- `handle_requests` with an array of `capacity` bytes.  Every frame takes bytes from the
stream, so that there are no more of them than bytes. -/
def handleRequests (target : Target) (capacity : ℕ) : Duplex Status := do
  modify fun connection => { connection with session := { connection.session with batch := .new } }
  let connection ← get
  handleFrames target capacity ((arrivingBytes connection.receives).length + 1)

/-- `sizeof(options)` -/
def OPTIONS_SIZE : ℕ := 5

/-- The handshake of `session_main`: whether the options have come. -/
def handshake (target : Target) : Duplex Bool := do
  match ← sending (sendHello target) with
  | .failed => pure false
  | .ok =>
    match ← receiveFrame OPTIONS_SIZE with
    | none => pure false
    | some frame => pure (decide (frame.kind = FrameKind.helloAck.code ∧ frame.length = OPTIONS_SIZE))

/-- What `session_main` does once the options have come. -/
def serve (target : Target) : Duplex Status := do
  match ← sending (malloc MAX_PAYLOAD) with
  | none => pure .failed
  | some requested =>
    match ← sending (andThen (sendWellKnown target) (sendRoots target.gcObjects)) with
    | .failed => pure .failed
    | .ok => handleRequests target requested.length

/-- `session_main` behind `connect_collector`. -/
def sessionMain (target : Target) : Duplex Unit := do
  let accepted ← handshake target
  let result ← if accepted then serve target else pure .failed
  match result with
  | .ok => pure ()
  | .failed => do
    let _ ← sending (sendError "native agent session failed or timed out")
    pure ()

end Agent
end Pydump
