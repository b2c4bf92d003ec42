/-
# What the Agent sends

The sending half of `capture/agent/agent.c`: frames, the record batch of 32 KiB,
the address stream of 256 entries, the roots and the facts of one object.

A session is the socket, the record batch that lives on the stack and what the
next calls of `send` and `malloc` do.  `send` takes some bytes, is interrupted by
a signal or fails; the list `sends` says which of these the next calls do, and
every call after the list takes all it is given, so that the list covers every
run of finitely many calls.  A copy that leaves its buffer is a `MemoryFault`; a
function that returns `-1` in the source returns `Status.failed`.

The functions are those of a build for CPython 3.12 or newer.
-/

import Pydump.Protocol.Frames

namespace Pydump
namespace Agent

open Protocol (FrameKind)
open Capture (ContentKind)

def PROTOCOL_VERSION : UInt8 := 2
def IO_BATCH : ℕ := 256
def MAX_PAYLOAD : ℕ := 2 ^ 20
def BULK_PAYLOAD_SIZE : ℕ := 32 * 2 ^ 10
def RECORD_HEADER_SIZE : ℕ := 5
def UINT16_MAX : ℕ := 0xFFFF

/-- How one call of `send` ends: it takes `count` bytes (at most those it is
given), it is interrupted (`EINTR`), or it fails. -/
inductive SendOutcome
  | sent (count : ℕ)
  | interrupted
  | failed
  deriving DecidableEq

/-- A memory access that leaves its buffer. -/
inductive MemoryFault
  | outOfBounds
  deriving DecidableEq

/-- The result `0` or `-1` of a function. -/
inductive Status
  | ok
  | failed
  deriving DecidableEq

/-- `record_batch`, without the descriptor. -/
structure RecordBatch where
  wire : List UInt8
  payloadLength : ℕ

/-- `{.fd = fd, .payload_length = 0}`. -/
def RecordBatch.new : RecordBatch := ⟨List.replicate (12 + BULK_PAYLOAD_SIZE) 0, 0⟩

/-- What a session has sent, what its next system calls do, and its record
batch. -/
structure Session where
  wire : List UInt8
  sends : List SendOutcome
  mallocs : List Bool
  batch : RecordBatch

/-- A function of the Agent. -/
abbrev Routine (α : Type) : Type := StateT Session (Except MemoryFault) α

/-- `if (first < 0) { return -1; }` before `second`. -/
def andThen (first second : Routine Status) : Routine Status := do
  match ← first with
  | .failed => pure .failed
  | .ok => second

/-! ### Bytes out -/

/-- The loop of `send_all`: what is left of the outcomes, and the wire. -/
def sendLoop : List SendOutcome → List UInt8 → List UInt8 → Status × List SendOutcome × List UInt8
  | sends, [], wire => (.ok, sends, wire)
  | [], data, wire => (.ok, [], wire ++ data)
  | .interrupted :: sends, data, wire => sendLoop sends data wire
  | .failed :: sends, _, wire => (.failed, sends, wire)
  | .sent count :: sends, data, wire =>
    if count = 0 then (.failed, sends, wire)
    else sendLoop sends (data.drop count) (wire ++ data.take count)

def sendAll (data : List UInt8) : Routine Status := fun session =>
  let r := sendLoop session.sends data session.wire
  .ok (r.1, { session with sends := r.2.1, wire := r.2.2 })

/-- `write_frame_header`, whose bytes `send_frame` builds as well. -/
def writeFrameHeader (kind : FrameKind) (length : ℕ) : List UInt8 :=
  [0x50, 0x59, 0x44, 0x50] ++ ([PROTOCOL_VERSION, kind.code] ++ (BigEndian.encode 2 0 ++ BigEndian.encode 4 length))

def sendFrame (kind : FrameKind) (payload : List UInt8) : Routine Status :=
  andThen (sendAll (writeFrameHeader kind payload.length)) (if payload.length = 0 then pure .ok else sendAll payload)

/-! ### The record batch -/

/-- `memcpy(buffer + offset, bytes, sizeof bytes)`. -/
def memcpy (buffer : List UInt8) (offset : ℕ) (bytes : List UInt8) : Except MemoryFault (List UInt8) :=
  if offset + bytes.length ≤ buffer.length then
    .ok (buffer.take offset ++ (bytes ++ buffer.drop (offset + bytes.length)))
  else .error .outOfBounds

/-- `memcpy` into `batch->wire`. -/
def store (offset : ℕ) (bytes : List UInt8) : Routine Unit := do
  let session ← get
  let wire ← (memcpy session.batch.wire offset bytes : Except MemoryFault (List UInt8))
  set { session with batch := { session.batch with wire := wire } }

/-- The first `length` bytes of `batch->wire`. -/
def load (length : ℕ) : Routine (List UInt8) := do
  let session ← get
  if length ≤ session.batch.wire.length then pure (session.batch.wire.take length)
  else throw .outOfBounds

/-- `batch->payload_length = length`. -/
def setPayloadLength (length : ℕ) : Routine Unit :=
  modify fun session => { session with batch := { session.batch with payloadLength := length } }

def flushRecordBatch : Routine Status := do
  let session ← get
  let payloadLength := session.batch.payloadLength
  if payloadLength = 0 then pure .ok
  else do
    store 0 (writeFrameHeader .bulkBatch payloadLength)
    let bytes ← load (12 + payloadLength)
    let result ← sendAll bytes
    setPayloadLength 0
    pure result

/-- `malloc(length)`, whose outcomes are listed as those of `send` are. -/
def malloc (length : ℕ) : Routine (Option (List UInt8)) := do
  let session ← get
  match session.mallocs with
  | [] => pure (some (List.replicate length 0))
  | given :: mallocs => do
    set { session with mallocs := mallocs }
    pure (if given then some (List.replicate length 0) else none)

/-- The record header and the two parts, copied to `offset` on. -/
def copyRecord (buffer : List UInt8) (offset : ℕ) (kind : FrameKind) (payloadLength : ℕ) (first second : List UInt8) :
    Except MemoryFault (List UInt8) := do
  let buffer ← memcpy buffer offset [kind.code]
  let buffer ← memcpy buffer (offset + 1) (BigEndian.encode 4 payloadLength)
  let buffer ← memcpy buffer (offset + RECORD_HEADER_SIZE) first
  memcpy buffer (offset + RECORD_HEADER_SIZE + first.length) second

/-- The end of the branch of `append_record_parts` for a record that no batch can
hold: it goes out alone, from memory of its own. -/
def sendLargeRecord (kind : FrameKind) (payloadLength recordLength : ℕ) (first second : List UInt8) :
    Routine Status := do
  match ← malloc (12 + recordLength) with
  | none => pure .failed
  | some wire => do
    let wire ← (memcpy wire 0 (writeFrameHeader .bulkBatch recordLength) : Except MemoryFault (List UInt8))
    let wire ← (copyRecord wire 12 kind payloadLength first second : Except MemoryFault (List UInt8))
    sendAll wire

/-- The end of `append_record_parts`: the record goes behind those in the batch. -/
def storeRecord (kind : FrameKind) (payloadLength recordLength : ℕ) (first second : List UInt8) : Routine Status := do
  let session ← get
  let cursor := 12 + session.batch.payloadLength
  let wire ← (copyRecord session.batch.wire cursor kind payloadLength first second :
    Except MemoryFault (List UInt8))
  set { session with batch := ⟨wire, session.batch.payloadLength + recordLength⟩ }
  pure .ok

/-- `append_record_parts`; the sum of the two lengths is a `uint32_t`. -/
def appendRecordParts (kind : FrameKind) (first second : List UInt8) : Routine Status := do
  let payloadLength := (first.length + second.length) % 2 ^ 32
  let recordLength := RECORD_HEADER_SIZE + payloadLength
  if recordLength > BULK_PAYLOAD_SIZE then
    andThen flushRecordBatch (sendLargeRecord kind payloadLength recordLength first second)
  else do
    let session ← get
    if session.batch.payloadLength + recordLength > BULK_PAYLOAD_SIZE then
      andThen flushRecordBatch (storeRecord kind payloadLength recordLength first second)
    else storeRecord kind payloadLength recordLength first second

def appendRecord (kind : FrameKind) (payload : List UInt8) : Routine Status := appendRecordParts kind payload []

/-! ### The address stream -/

/-- `address_stream`, whose `batch` is set in every use the Agent makes of it;
`values` are the first `count` entries of the array. -/
structure AddressStream where
  values : List ℕ
  kind : FrameKind

def flushAddresses (stream : AddressStream) : Routine (Status × AddressStream) := do
  if stream.values.length = 0 then pure (.ok, stream)
  else do
    let payload := stream.values.flatMap (BigEndian.encode 8)
    let result ← appendRecord stream.kind payload
    pure (result, { stream with values := [] })

def streamAddress (stream : AddressStream) (object : ℕ) : Routine (Status × AddressStream) :=
  if stream.values.length < IO_BATCH then
    let stream := { stream with values := stream.values ++ [object] }
    if stream.values.length = IO_BATCH then flushAddresses stream else pure (.ok, stream)
  else throw .outOfBounds

/-! ### The roots -/

/-- `PyUnstable_GC_VisitObjects(visit_root, &stream)`: the objects are visited in
turn until `visit_root` returns 0, and nothing is reported back. -/
def visitObjects : List ℕ → AddressStream → Routine AddressStream
  | [], stream => pure stream
  | object :: objects, stream => do
    let r ← streamAddress stream object
    match r.1 with
    | .ok => visitObjects objects r.2
    | .failed => pure r.2

/-- `send_roots` in a process whose collector tracks `objects`. -/
def sendRoots (objects : List ℕ) : Routine Status := do
  modify fun session => { session with batch := .new }
  let stream ← visitObjects objects ⟨[], .rootBatch⟩
  let r ← flushAddresses stream
  match r.1 with
  | .failed => pure .failed
  | .ok => andThen flushRecordBatch (sendFrame .rootsDone [])

/-! ### The facts of one object -/

/-- What the Agent reads of a `PyObject`: `typeName` are the bytes of its type's
name, `size` what `pydump_shallow_size` returns, `items` the slots of a list, a
tuple or a set, `pairs` those of a dictionary, and `visited` what `tp_traverse`
visits (nothing, where there is none to call).  Pointers have 64 bits. -/
structure PyObject where
  address : ℕ
  typeAddress : ℕ
  size : ℕ
  typeName : List UInt8
  kind : ContentKind
  items : List ℕ
  pairs : List (ℕ × ℕ)
  visited : List ℕ
  address_lt : address < 2 ^ 64
  typeAddress_lt : typeAddress < 2 ^ 64
  size_lt : size < 2 ^ 32
  items_lt : ∀ item ∈ items, item < 2 ^ 64
  pairs_lt : ∀ pair ∈ pairs, pair.1 < 2 ^ 64 ∧ pair.2 < 2 ^ 64
  visited_lt : ∀ referent ∈ visited, referent < 2 ^ 64

def sendObjectBegin (object : PyObject) : Routine Status :=
  let nameLength := min object.typeName.length UINT16_MAX
  let payload := BigEndian.encode 8 object.address ++ (BigEndian.encode 8 object.typeAddress ++
    (BigEndian.encode 4 object.size ++ (BigEndian.encode 1 object.kind.toNat ++ BigEndian.encode 2 nameLength)))
  appendRecordParts .objectBegin payload (object.typeName.take nameLength)

/-- A run of `stream_address` calls that is left with the first failure. -/
def streamAddresses : List ℕ → AddressStream → Routine (Status × AddressStream)
  | [], stream => pure (.ok, stream)
  | object :: objects, stream => do
    let r ← streamAddress stream object
    match r.1 with
    | .ok => streamAddresses objects r.2
    | .failed => pure (.failed, r.2)

/-- The addresses of a stream, which is flushed at the end: the shape of
`send_sequence_content`, `send_dict_content` and `send_referents`. -/
def sendAddresses (addresses : List ℕ) (stream : AddressStream) : Routine Status := do
  let r ← streamAddresses addresses stream
  match r.1 with
  | .failed => pure .failed
  | .ok => do
    let r ← flushAddresses r.2
    pure r.1

def sendSequenceContent (object : PyObject) : Routine Status := sendAddresses object.items ⟨[], .sequenceContent⟩

/-- The keys and values of a dictionary in the order in which they are sent. -/
def keysAndValues (pairs : List (ℕ × ℕ)) : List ℕ := pairs.flatMap fun pair => [pair.1, pair.2]

def sendDictContent (object : PyObject) : Routine Status :=
  sendAddresses (keysAndValues object.pairs) ⟨[], .dictContent⟩

def sendReferents (object : PyObject) : Routine Status := sendAddresses object.visited ⟨[], .referents⟩

/-- The content of an object, where its kind has one. -/
def sendContent (object : PyObject) : Routine Status :=
  match object.kind with
  | .dict => sendDictContent object
  | .list | .set | .tuple => sendSequenceContent object
  | .none => pure .ok

def sendObject (object : PyObject) : Routine Status :=
  andThen (sendObjectBegin object)
    (andThen (sendContent object) (andThen (sendReferents object) (appendRecord .objectEnd [])))

end Agent
end Pydump
