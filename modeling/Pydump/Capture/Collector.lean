/-
# The Collector

`capture/collector/src/pydump/collector.py`: the handshake with the Agent, the
root enumeration, the walk over the object graph and the reading of one object.
Every method talks to a `FramedSocket`; what `_capture` keeps in local variables
is the state `Walk`.

Loops that end only when the other end says so take a bound on their rounds.
Clocks, statistics, the progress callback and the text of warnings, which goes to
standard error, are left out.
-/

import Pydump.Capture.HeapWriter
import Pydump.Lib.OrderChoice
import Pydump.Protocol.Socket

namespace Pydump
namespace Capture

open Protocol (Framed Peer Frame FrameKind NONCE_SIZE receive send decodeAddresses decodeDictEntries decodeHello
  decodeObjectBegin decodeText encodeAddresses encodeOptions)

/-- The fields of a `Collector`; the constructor refuses a nonce of another
length. -/
structure Collector where
  nonce : List UInt8
  strReprLen : ℤ
  dumpAttributes : Bool
  batchSize : ℕ
  nonce_size : nonce.length = NONCE_SIZE

variable {π : Type}

/-! ### Frames that are not expected -/

def expect (expected : FrameKind) : Framed π Frame := do
  let frame ← receive
  if frame.kind = .error then throw (.pydumpError s!"agent failed: {decodeText frame.payload}")
  else if frame.kind ≠ expected then
    throw (.protocolError s!"expected {expected.name}, received {frame.kind.name}")
  else pure frame

/-- What `_raise_unexpected` raises. -/
def unexpected (frame : Frame) (stage : String) : CaptureError :=
  if frame.kind = .error then .pydumpError s!"agent failed during {stage}: {decodeText frame.payload}"
  else .protocolError s!"received unexpected {frame.kind.name} during {stage}"

/-- `f"0x{address:x}"`. -/
def hexAddress (address : ℕ) : String := "0x" ++ String.ofList (Nat.toDigits 16 address)

/-! ### One object -/

/-- The string that stands in for a preview the Agent did not send. -/
def placeholder (strReprLen : ℤ) (obj : HeapObject) : HeapObject :=
  if 0 ≤ strReprLen ∧ obj.strRepr = "" then
    { obj with strRepr :=
        String.ofList ((s!"<{obj.typeName} at {hexAddress obj.address}>").toList.take strReprLen.toNat) }
  else obj

/-- What one frame adds to an object, where the frame is one that may stand
inside an object. -/
def addFacts (obj : HeapObject) (frame : Frame) : Except CaptureError HeapObject :=
  match frame.kind with
  | .referents => do
    let addresses ← decodeAddresses frame.payload
    pure { obj with referents := obj.referents ∪ addresses.toFinset }
  | .sequenceContent => do
    let addresses ← decodeAddresses frame.payload
    pure { obj with sequenceContent := obj.sequenceContent ++ addresses }
  | .dictContent => do
    let entries ← decodeDictEntries frame.payload
    pure { obj with dictContent := obj.dictContent ++ entries }
  | .preview => pure { obj with strRepr := decodeText frame.payload }
  | .warning => pure obj
  | _ => throw (unexpected frame s!"object {hexAddress obj.address}")

/-- The loop of `_receive_object`. -/
def receiveFacts (strReprLen : ℤ) : ℕ → HeapObject → Framed π HeapObject
  | 0, _ => throw .diverged
  | rounds + 1, obj => do
    let frame ← receive
    if frame.kind = .objectEnd then pure (placeholder strReprLen obj)
    else do
      let obj ← (addFacts obj frame : Except CaptureError HeapObject)
      receiveFacts strReprLen rounds obj

/-- `_receive_object`; the address of the object is the expected one once the
loop starts. -/
def receiveObject (strReprLen : ℤ) (rounds : ℕ) (expectedAddress : ℕ) : Framed π HeapObject := do
  let frame ← expect .objectBegin
  let begin ← (decodeObjectBegin frame.payload : Except CaptureError Protocol.ObjectBegin)
  if begin.address ≠ expectedAddress then
    throw (.protocolError
      s!"agent returned object {hexAddress begin.address}, expected {hexAddress expectedAddress}")
  else
    match ContentKind.ofNat? begin.contentKind with
    | none => throw (.protocolError
        s!"object {hexAddress begin.address} has unknown content kind {begin.contentKind}")
    | some contentKind =>
      receiveFacts strReprLen rounds {
        address := begin.address
        typeAddress := begin.typeAddress
        typeName := begin.typeName
        shallowSize := begin.shallowSize
        contentKind := contentKind }

/-! ### The walk -/

/-- The local variables of `_capture`: `scheduled`, `pending`, `types` and
`completed`, and the writer. -/
structure Walk where
  writer : HeapWriter
  scheduled : Finset ℕ
  pending : List ℕ
  types : OrderedDict ℕ String
  completed : ℕ

/-- One round of the loop of `schedule`. -/
def scheduleOne (walk : Walk) (address : ℕ) : Walk :=
  if address ≠ 0 ∧ address ∉ walk.scheduled then
    { walk with scheduled := insert address walk.scheduled, pending := walk.pending ++ [address] }
  else walk

def schedule (walk : Walk) (addresses : List ℕ) : Walk := addresses.foldl scheduleOne walk

/-- The loop over the root batches. -/
def receiveRoots : ℕ → Walk → Framed π Walk
  | 0, _ => throw .diverged
  | rounds + 1, walk => do
    let frame ← receive
    match frame.kind with
    | .rootBatch => do
      let addresses ← (decodeAddresses frame.payload : Except CaptureError (List ℕ))
      receiveRoots rounds (schedule walk addresses)
    | .rootsDone => pure walk
    | _ => throw (unexpected frame "root enumeration")

/-- What `_capture` does with an object it received.  The set of referents is
walked in an order of the runtime's choice. -/
def addObject (orders : OrderChoice ℕ) (wellKnownTypes : OrderedDict String ℕ) (walk : Walk) (obj : HeapObject) :
    Except CaptureError Walk := do
  let (_, writer) ← writeObject obj wellKnownTypes walk.writer
  let walk := { walk with writer := writer, types := walk.types.insert obj.typeAddress obj.typeName }
  let walk := schedule walk (orders.walk obj.address obj.referents)
  let walk :=
    if obj.contentKind = .dict then schedule walk (obj.dictContent.flatMap fun entry => [entry.1, entry.2])
    else schedule walk obj.sequenceContent
  let walk := schedule walk (obj.attributes.map HeapAttribute.address)
  let walk := schedule walk [obj.typeAddress]
  pure { walk with completed := walk.completed + 1 }

/-- The loop over the addresses of one batch. -/
def receiveBatch (orders : OrderChoice ℕ) (collector : Collector) (wellKnownTypes : OrderedDict String ℕ)
    (rounds : ℕ) : List ℕ → Walk → Framed π Walk
  | [], walk => pure walk
  | expectedAddress :: batch, walk => do
    let obj ← receiveObject collector.strReprLen rounds expectedAddress
    let walk ← (addObject orders wellKnownTypes walk obj : Except CaptureError Walk)
    receiveBatch orders collector wellKnownTypes rounds batch walk

/-- The loop over the pending addresses, which are taken from the end of the
list. -/
def receiveObjects (peer : Peer π) (orders : OrderChoice ℕ) (collector : Collector)
    (wellKnownTypes : OrderedDict String ℕ) (rounds : ℕ) : ℕ → Walk → Framed π Walk
  | 0, _ => throw .diverged
  | batches + 1, walk =>
    if walk.pending = [] then pure walk
    else do
      let batch := walk.pending.reverse.take collector.batchSize
      let walk := { walk with pending := (walk.pending.reverse.drop collector.batchSize).reverse }
      let request ← (encodeAddresses batch : Except CaptureError (List UInt8))
      send peer .requestObjects request
      let walk ← receiveBatch orders collector wellKnownTypes rounds batch walk
      let _ ← expect .batchDone
      receiveObjects peer orders collector wellKnownTypes rounds batches walk

/-- The checks of the `HELLO` frame. -/
def checkHello (collector : Collector) (hello : Protocol.Hello) : Except CaptureError Unit :=
  if hello.nonce ≠ collector.nonce then .error (.protocolError "agent returned a different session nonce")
  else if hello.pythonMajor ≠ 3 ∨ hello.pythonMinor < 10 then
    .error (.protocolError
      s!"native agent reported unsupported CPython {hello.pythonMajor}.{hello.pythonMinor}")
  else if hello.pointerSize ≠ 8 then
    .error (.protocolError s!"unsupported target pointer size {hello.pointerSize}")
  else if ¬hello.littleEndian then .error (.protocolError "big-endian targets are not supported")
  else .ok ()

/-- The handshake and the well-known types: their addresses. -/
def greet (peer : Peer π) (collector : Collector) : Framed π (List ℕ) := do
  let frame ← expect .hello
  let hello ← (decodeHello frame.payload : Except CaptureError Protocol.Hello)
  let _ ← (checkHello collector hello : Except CaptureError Unit)
  let options ← (encodeOptions collector.strReprLen collector.dumpAttributes : Except CaptureError (List UInt8))
  send peer .helloAck options
  let frame ← expect .wellKnown
  let addresses ← (decodeAddresses frame.payload : Except CaptureError (List ℕ))
  if addresses.length ≠ WELL_KNOWN_TYPE_NAMES.length then
    throw (.protocolError
      s!"agent returned {addresses.length} well-known types, expected {WELL_KNOWN_TYPE_NAMES.length}")
  else pure addresses

/-- The calls of the writer before the first object. -/
def openArtifact (collector : Collector) (now : String) (wellKnownTypes : OrderedDict String ℕ) :
    Except CaptureError HeapWriter := do
  let (_, writer) ← (do
    writeHeader wellKnownTypes none now
    writeThreads []
    beginObjects : Writer Unit) (HeapWriter.new (0 ≤ collector.strReprLen))
  pure writer

/-- `_capture` on an empty file: the bytes of the file and the number of objects. -/
def captureObjects (peer : Peer π) (orders : OrderChoice ℕ) (collector : Collector) (now : String) (rounds : ℕ) :
    Framed π (List UInt8 × ℕ) := do
  let wellKnownAddresses ← greet peer collector
  let wellKnownTypes := OrderedDict.ofPairs (WELL_KNOWN_TYPE_NAMES.zip wellKnownAddresses)
  let writer ← (openArtifact collector now wellKnownTypes : Except CaptureError HeapWriter)
  let walk ← receiveRoots rounds ⟨writer, ∅, [], .empty, 0⟩
  let walk := schedule walk wellKnownAddresses
  let walk := { walk with types := OrderedDict.ofPairs (wellKnownAddresses.zip WELL_KNOWN_TYPE_NAMES) }
  let walk ← receiveObjects peer orders collector wellKnownTypes rounds rounds walk
  send peer .finish []
  let _ ← expect .complete
  let (_, writer) ← (finish walk.types walk.writer : Except CaptureError (Unit × HeapWriter))
  pure (writer.file, walk.completed)

end Capture
end Pydump
