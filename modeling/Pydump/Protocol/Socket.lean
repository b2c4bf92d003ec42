/-
# The framed socket of the Collector

`FramedSocket` of `capture/collector/src/pydump/protocol.py`: frames are sent and
received over a stream socket, and the records of a `BULK_BATCH` are handed out
one by one from a queue.

The state is the socket together with the queue.  Of the socket the model keeps
the bytes that are still to be received, cut into the pieces in which single
`recv` calls find them, and the state of the process at the other end, which may
add to them whenever it is sent something.  The counters of `SocketStats` are
left out.
-/

import Pydump.Protocol.Frames

namespace Pydump
namespace Protocol

open Capture (CaptureError)

/-- The process at the other end: what it does with the bytes of one `sendall`,
where `none` is a connection that breaks, and the pieces it sends in turn. -/
structure Peer (π : Type) where
  respond : π → List UInt8 → Option (π × List (List UInt8))

/-- A `FramedSocket` and the socket it wraps.  Once `incoming` is used up, `recv`
reports the end of the stream, or raises where the connection was `reset`. -/
structure FramedSocket (π : Type) where
  incoming : List (List UInt8)
  reset : Bool
  peer : π
  pending : List Frame

/-- A method of `FramedSocket`. -/
abbrev Framed (π α : Type) : Type := StateT (FramedSocket π) (Except CaptureError) α

variable {π : Type}

/-! ### Sending -/

/-- `self._socket.sendall(wire)`. -/
def sendall (peer : Peer π) (wire : List UInt8) : Framed π Unit := fun channel =>
  match peer.respond channel.peer wire with
  | none => .error .osError
  | some (state, pieces) => .ok ((), { channel with peer := state, incoming := channel.incoming ++ pieces })

def send (peer : Peer π) (kind : FrameKind) (payload : List UInt8) : Framed π Unit :=
  if payload.length > MAX_PAYLOAD then
    throw (.protocolError s!"{kind.name} payload exceeds {MAX_PAYLOAD} bytes")
  else sendall peer (packHeader kind payload.length ++ payload)

/-! ### Receiving -/

/-- `self._socket.recv_into(view)` for a view of `size` bytes. -/
def recvInto (size : ℕ) : Framed π (List UInt8) := fun channel =>
  match channel.incoming with
  | [] => if channel.reset then .error .osError else .ok ([], channel)
  | piece :: pieces =>
    .ok (piece.take size, { channel with
      incoming := if piece.length ≤ size then pieces else piece.drop size :: pieces })

/-- The loop of `_receive_exact` with `missing` bytes to go.  A round that does
not raise brings at least one of them, so there are never more than `missing`. -/
def receiveLoop : ℕ → ℕ → List UInt8 → Framed π (List UInt8)
  | _, 0, chunks => pure chunks
  | 0, _ + 1, _ => throw .diverged
  | rounds + 1, missing + 1, chunks => do
    let bytes ← recvInto (missing + 1)
    if bytes.length = 0 then
      throw (.protocolError s!"agent disconnected with {missing + 1} bytes pending")
    else receiveLoop rounds (missing + 1 - bytes.length) (chunks ++ bytes)

def receiveExact (size : ℕ) : Framed π (List UInt8) := receiveLoop size size []

/-- `repr` of one byte inside a `bytes` literal whose quote is `quote`. -/
def reprByte (quote : Char) (b : UInt8) : List Char :=
  let c := Char.ofNat b.toNat
  if c = quote ∨ c = '\\' then ['\\', c]
  else if c = '\t' then ['\\', 't']
  else if c = '\n' then ['\\', 'n']
  else if c = '\r' then ['\\', 'r']
  else if 0x20 ≤ b.toNat ∧ b.toNat < 0x7F then [c]
  else Utf8.escapeByte b

/-- `repr` of a `bytes` object. -/
def reprBytes (bytes : List UInt8) : String :=
  let quote := if 0x27 ∈ bytes ∧ 0x22 ∉ bytes then Char.ofNat 0x22 else Char.ofNat 0x27
  String.ofList ('b' :: quote :: bytes.flatMap (reprByte quote) ++ [quote])

def receiveWireFrame : Framed π Frame := do
  let header ← receiveExact HEADER_SIZE
  let magic := bytesAt header 0 4
  let version := uintAt header 4 5
  let rawKind := (header.drop 5).headD 0
  let flags := uintAt header 6 8
  let payloadSize := uintAt header 8 12
  if magic ≠ MAGIC then throw (.protocolError s!"invalid protocol magic {reprBytes magic}")
  else if version ≠ VERSION.toNat then throw (.protocolError s!"unsupported protocol version {version}")
  else if flags ≠ 0 then throw (.protocolError s!"unsupported frame flags {flags}")
  else if payloadSize > MAX_PAYLOAD then
    throw (.protocolError s!"frame payload {payloadSize} exceeds {MAX_PAYLOAD} bytes")
  else
    match FrameKind.ofCode? rawKind with
    | none => throw (.protocolError s!"unknown frame kind {rawKind.toNat}")
    | some kind => do
      let payload ← receiveExact payloadSize
      pure ⟨kind, payload⟩

/-- What `receive` does with a frame from the wire.  The queue is empty then, so
`extend` and `popleft` leave all records but the first in it. -/
def handOut (frame : Frame) : Framed π Frame :=
  if frame.kind ≠ .bulkBatch then pure frame
  else do
    let records ← (decodeBulkBatch frame.payload : Except CaptureError (List Frame))
    match records with
    | [] => throw (.protocolError "BULK_BATCH must contain at least one record")
    | record :: rest => do
      modify fun channel => { channel with pending := rest }
      pure record

def receive : Framed π Frame := do
  let channel ← get
  match channel.pending with
  | frame :: pending => do
    set { channel with pending := pending }
    pure frame
  | [] => do
    let frame ← receiveWireFrame
    handOut frame

end Protocol
end Pydump
