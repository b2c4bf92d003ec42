/-
# Frames of the Agent protocol

`capture/collector/src/pydump/protocol.py` without the socket: the frame kinds,
the twelve-byte frame header, the records of a `BULK_BATCH` and the payload
codecs that the Collector uses.  The kinds and sizes are those of
`capture/agent/protocol.h` as well.

Integers are big-endian (`struct` format `!`).  A loop that walks over a payload
with an offset is a recursion over the bytes from the offset on.
-/

import Pydump.Capture.Model
import Pydump.Lib.BigEndian
import Pydump.Lib.Utf8

namespace Pydump
namespace Protocol

open Capture (CaptureError)

/-- `b"PYDP"`. -/
def MAGIC : List UInt8 := [0x50, 0x59, 0x44, 0x50]
def VERSION : UInt8 := 2
def NONCE_SIZE : ℕ := 16
def MAX_PAYLOAD : ℕ := 2 ^ 20
def ADDRESS_SIZE : ℕ := 8
def BULK_PAYLOAD_SIZE : ℕ := 32 * 2 ^ 10

/-- `_HEADER.size`. -/
def HEADER_SIZE : ℕ := 12
/-- `_RECORD_HEADER.size`. -/
def RECORD_HEADER_SIZE : ℕ := 5

/-! ### Frame kinds -/

/-- `FrameKind`, and `enum pydump_frame_kind` of the Agent. -/
inductive FrameKind
  | hello
  | helloAck
  | wellKnown
  | rootBatch
  | rootsDone
  | requestObjects
  | objectBegin
  | referents
  | sequenceContent
  | dictContent
  | attributes
  | preview
  | objectEnd
  | batchDone
  | finish
  | complete
  | error
  | warning
  | cancel
  | bulkBatch
  deriving DecidableEq

/-- The byte that stands for a kind on the wire. -/
def FrameKind.code : FrameKind → UInt8
  | .hello => 1
  | .helloAck => 2
  | .wellKnown => 3
  | .rootBatch => 4
  | .rootsDone => 5
  | .requestObjects => 6
  | .objectBegin => 7
  | .referents => 8
  | .sequenceContent => 9
  | .dictContent => 10
  | .attributes => 11
  | .preview => 12
  | .objectEnd => 13
  | .batchDone => 14
  | .finish => 15
  | .complete => 16
  | .error => 17
  | .warning => 18
  | .cancel => 19
  | .bulkBatch => 20

/-- `FrameKind(raw_kind)`, which raises `ValueError` on an unknown code. -/
def FrameKind.ofCode? (code : UInt8) : Option FrameKind :=
  [hello, helloAck, wellKnown, rootBatch, rootsDone, requestObjects, objectBegin, referents, sequenceContent,
    dictContent, attributes, preview, objectEnd, batchDone, finish, complete, error, warning, cancel,
    bulkBatch].find? fun kind => kind.code = code

/-- A code names its kind. -/
@[simp] theorem FrameKind.ofCode?_code (kind : FrameKind) : ofCode? kind.code = some kind := by
  cases kind <;> rfl

/-- `kind.name`. -/
def FrameKind.name : FrameKind → String
  | .hello => "HELLO"
  | .helloAck => "HELLO_ACK"
  | .wellKnown => "WELL_KNOWN"
  | .rootBatch => "ROOT_BATCH"
  | .rootsDone => "ROOTS_DONE"
  | .requestObjects => "REQUEST_OBJECTS"
  | .objectBegin => "OBJECT_BEGIN"
  | .referents => "REFERENTS"
  | .sequenceContent => "SEQUENCE_CONTENT"
  | .dictContent => "DICT_CONTENT"
  | .attributes => "ATTRIBUTES"
  | .preview => "PREVIEW"
  | .objectEnd => "OBJECT_END"
  | .batchDone => "BATCH_DONE"
  | .finish => "FINISH"
  | .complete => "COMPLETE"
  | .error => "ERROR"
  | .warning => "WARNING"
  | .cancel => "CANCEL"
  | .bulkBatch => "BULK_BATCH"

/-- `_BULK_RECORD_KINDS`. -/
def BULK_RECORD_KINDS : List FrameKind :=
  [.rootBatch, .objectBegin, .referents, .sequenceContent, .dictContent, .attributes, .preview, .objectEnd,
    .warning]

/-- `Frame`. -/
structure Frame where
  kind : FrameKind
  payload : List UInt8
  deriving DecidableEq

/-- `_HEADER.pack(MAGIC, VERSION, kind, 0, size)`. -/
def packHeader (kind : FrameKind) (size : ℕ) : List UInt8 :=
  MAGIC ++ ([VERSION, kind.code] ++ (BigEndian.encode 2 0 ++ BigEndian.encode 4 size))

/-- A header has its fixed size. -/
@[simp] theorem length_packHeader (kind : FrameKind) (size : ℕ) : (packHeader kind size).length = HEADER_SIZE := rfl

/-- `_RECORD_HEADER.pack(kind, size)`. -/
def packRecordHeader (kind : FrameKind) (size : ℕ) : List UInt8 := kind.code :: BigEndian.encode 4 size

/-- A record header has its fixed size. -/
@[simp] theorem length_packRecordHeader (kind : FrameKind) (size : ℕ) :
    (packRecordHeader kind size).length = RECORD_HEADER_SIZE := rfl

/-! ### The records of a `BULK_BATCH` -/

/-- The loop of `decode_bulk_batch` on the bytes from `offset` on; every round
passes over at least the five bytes of a record header. -/
def decodeRecords : ℕ → List UInt8 → Except CaptureError (List Frame)
  | 0, _ => .error .diverged
  | rounds + 1, rest =>
    if rest.length = 0 then .ok []
    else if rest.length < RECORD_HEADER_SIZE then
      .error (.protocolError "BULK_BATCH ends in a partial record header")
    else
      let rawKind := rest.headD 0
      let recordSize := BigEndian.decode ((rest.drop 1).take 4)
      let rest := rest.drop RECORD_HEADER_SIZE
      if recordSize > rest.length then .error (.protocolError "BULK_BATCH ends in a partial record payload")
      else
        match FrameKind.ofCode? rawKind with
        | none => .error (.protocolError s!"BULK_BATCH contains unknown record kind {rawKind.toNat}")
        | some kind =>
          if kind ∉ BULK_RECORD_KINDS then
            .error (.protocolError s!"BULK_BATCH contains invalid record {kind.name}")
          else do
            let records ← decodeRecords rounds (rest.drop recordSize)
            pure (⟨kind, rest.take recordSize⟩ :: records)

def decodeBulkBatch (payload : List UInt8) : Except CaptureError (List Frame) :=
  decodeRecords (payload.length + 1) payload

/-- One round of the loop of `encode_bulk_batch`; `struct` refuses a size that 32 bits
do not hold. -/
def encodeRecord (payload : List UInt8) (record : Frame) : Except CaptureError (List UInt8) :=
  if record.kind ∉ BULK_RECORD_KINDS then .error (.protocolError s!"{record.kind.name} is not a bulk record")
  else if record.payload.length < 2 ^ 32 then
    .ok (payload ++ (packRecordHeader record.kind record.payload.length ++ record.payload))
  else .error .structError

def encodeBulkBatch (records : List Frame) : Except CaptureError (List UInt8) := do
  let payload ← records.foldlM encodeRecord []
  if payload.length > MAX_PAYLOAD then
    .error (.protocolError s!"BULK_BATCH payload exceeds {MAX_PAYLOAD} bytes")
  else .ok payload

/-! ### Payload codecs -/

/-- `Hello`. -/
structure Hello where
  pythonMajor : ℕ
  pythonMinor : ℕ
  pointerSize : ℕ
  littleEndian : Bool
  nonce : List UInt8
  deriving DecidableEq

/-- `ObjectBegin`. -/
structure ObjectBegin where
  address : ℕ
  typeAddress : ℕ
  shallowSize : ℕ
  contentKind : ℕ
  typeName : String
  deriving DecidableEq

/-- `_HELLO.size`. -/
def HELLO_SIZE : ℕ := 20
/-- `_OBJECT_BEGIN.size`. -/
def OBJECT_BEGIN_SIZE : ℕ := 23

/-- The bytes from `a` up to `b`. -/
def bytesAt (payload : List UInt8) (a b : ℕ) : List UInt8 := (payload.drop a).take (b - a)

/-- The unsigned integer in the bytes from `a` up to `b`. -/
def uintAt (payload : List UInt8) (a b : ℕ) : ℕ := BigEndian.decode (bytesAt payload a b)

def decodeHello (payload : List UInt8) : Except CaptureError Hello :=
  if payload.length ≠ HELLO_SIZE then .error (.protocolError s!"HELLO has invalid length {payload.length}")
  else
    let littleEndian := uintAt payload 3 4
    if littleEndian ∉ [0, 1] then
      .error (.protocolError s!"HELLO has invalid byte order marker {littleEndian}")
    else
      .ok ⟨uintAt payload 0 1, uintAt payload 1 2, uintAt payload 2 3, littleEndian = 1, bytesAt payload 4 20⟩

/-- `encode_options`; `struct` refuses what 32 bits do not hold. -/
def encodeOptions (strReprLen : ℤ) (dumpAttributes : Bool) : Except CaptureError (List UInt8) :=
  if -2 ^ 31 ≤ strReprLen ∧ strReprLen < 2 ^ 31 then
    .ok (BigEndian.encode 4 (strReprLen % 2 ^ 32).toNat ++ [if dumpAttributes then 1 else 0])
  else .error .structError

/-- `encode_addresses`; `struct` refuses what 64 bits do not hold. -/
def encodeAddresses (addresses : List ℕ) : Except CaptureError (List UInt8) :=
  if ∀ address ∈ addresses, address < 2 ^ 64 then .ok (addresses.flatMap (BigEndian.encode 8))
  else .error .structError

/-- `struct.unpack(f"!{count}Q", payload)`. -/
def unpackAddresses : ℕ → List UInt8 → List ℕ
  | 0, _ => []
  | count + 1, payload =>
    BigEndian.decode (payload.take ADDRESS_SIZE) :: unpackAddresses count (payload.drop ADDRESS_SIZE)

def decodeAddresses (payload : List UInt8) : Except CaptureError (List ℕ) :=
  if payload.length % ADDRESS_SIZE ≠ 0 then
    .error (.protocolError s!"address batch has invalid length {payload.length}")
  else .ok (unpackAddresses (payload.length / ADDRESS_SIZE) payload)

/-- `zip(addresses[::2], addresses[1::2])`. -/
def pairUp : List ℕ → List (ℕ × ℕ)
  | key :: value :: rest => (key, value) :: pairUp rest
  | _ => []

def decodeDictEntries (payload : List UInt8) : Except CaptureError (List (ℕ × ℕ)) := do
  let addresses ← decodeAddresses payload
  if addresses.length % 2 ≠ 0 then .error (.protocolError "dictionary batch has an odd address count")
  else .ok (pairUp addresses)

def decodeObjectBegin (payload : List UInt8) : Except CaptureError ObjectBegin :=
  if payload.length < OBJECT_BEGIN_SIZE then
    .error (.protocolError s!"OBJECT_BEGIN has invalid length {payload.length}")
  else
    let typeNameBytes := payload.drop OBJECT_BEGIN_SIZE
    if typeNameBytes.length ≠ uintAt payload 21 23 then
      .error (.protocolError "OBJECT_BEGIN type name length does not match payload")
    else
      .ok {
        address := uintAt payload 0 8
        typeAddress := uintAt payload 8 16
        shallowSize := uintAt payload 16 20
        contentKind := uintAt payload 20 21
        typeName := Utf8.decode typeNameBytes }

/-- `encode_object_begin`; `struct` refuses what the fields do not hold. -/
def encodeObjectBegin (begin : ObjectBegin) : Except CaptureError (List UInt8) :=
  let name := (Utf8.encode begin.typeName).take 0xFFFF
  if begin.address < 2 ^ 64 ∧ begin.typeAddress < 2 ^ 64 ∧ begin.shallowSize < 2 ^ 32 ∧ begin.contentKind < 2 ^ 8 then
    .ok (BigEndian.encode 8 begin.address ++ (BigEndian.encode 8 begin.typeAddress ++
      (BigEndian.encode 4 begin.shallowSize ++ (BigEndian.encode 1 begin.contentKind ++
        (BigEndian.encode 2 name.length ++ name)))))
  else .error .structError

def decodeText (payload : List UInt8) : String := Utf8.decode payload

end Protocol
end Pydump
