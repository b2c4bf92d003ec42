/-
# The reference graph of the Go analyzer

`analyzer/go/internal/analysis/graph.go`.  `BuildGraph` numbers the addresses of a
heap, the objects first and in their order, and lays the references out in two
arrays by rows: the referents of every object, and the objects that refer to
every node.

A Go array is a list; an index out of range is the run-time panic
`indexOutOfRange`.  The arithmetic on `uint32` and `uint64` wraps.  An `int` is 64
bits wide and holds counts here, which do not come near that bound: it is `ℤ`.
The order in which a map is walked and the order `sort.Slice` leaves equal keys in
are not specified; `Orders` chooses them at every `Site`.
-/

import Pydump.Go.Model
import Pydump.Lib.OrderChoice
import Pydump.Lib.RowTable

namespace Pydump
namespace Go

/-- How a calculation ends early.  `diverged` is not of the source: it marks a
loop that was given too few rounds. -/
inductive AnalysisError
  | failed (message : String)
  | indexOutOfRange
  | diverged
  deriving DecidableEq

/-- What a run of `retained` deletes. -/
inductive Root
  | object (node : ℕ)
  | thread (index : ℕ)

/-- A place of the computation at which Go chooses an order: the program point,
with the state that tells its visits apart. -/
inductive Site
  | graphLocals (thread : ℕ)
  | subtreeFront (subtreeRoots : List Bool) (front : Finset ℕ)
  | locals (thread : ℕ)
  | front (root : Root) (deleted : Finset ℕ)

/-- The orders Go chooses. -/
abbrev Orders : Type := OrderChoice Site

/-! ### Arrays -/

/-- `xs[index]`. -/
def getAt {α : Type} (xs : List α) (index : ℕ) : Except AnalysisError α :=
  match xs[index]? with
  | some value => .ok value
  | none => .error .indexOutOfRange

/-- `xs[index] = value`. -/
def setAt {α : Type} (xs : List α) (index : ℕ) (value : α) : Except AnalysisError (List α) :=
  if index < xs.length then .ok (xs.set index value) else .error .indexOutOfRange

/-- `xs[low:high]`. -/
def sliceOf {α : Type} (xs : List α) (low high : ℕ) : Except AnalysisError (List α) :=
  if low ≤ high ∧ high ≤ xs.length then .ok (RowTable.slice xs low high) else .error .indexOutOfRange

/-- `int(value)` for a `uint64`. -/
def toInt (value : ℕ) : ℤ := if value < 2 ^ 63 then value else (value : ℤ) - 2 ^ 64

/-! ### `BuildGraph` -/

/-- `Graph`. -/
structure Graph where
  objectCount : ℕ
  addressIndex : OrderedDict ℕ ℕ
  refOffsets : List ℕ
  referents : List ℕ
  inboundOffset : List ℕ
  inbound : List ℕ

/-- The index of the objects. -/
def indexObjects (objects : List Object) : OrderedDict ℕ ℕ :=
  objects.zipIdx.foldl (fun index entry => index.insert entry.1.address (entry.2 % 2 ^ 32)) .empty

/-- `addAddress`. -/
def addAddress (index : OrderedDict ℕ ℕ) (address : ℕ) : Except AnalysisError (OrderedDict ℕ ℕ) :=
  if address ∈ index.keys then .ok index
  else if index.entries.length > 2 ^ 32 - 1 then .error (.failed "heap graph has too many address nodes")
  else .ok (index.insert address (index.entries.length % 2 ^ 32))

/-- The index of all addresses: objects, referents, locals. -/
def indexAddresses (orders : Orders) (value : Heap) : Except AnalysisError (OrderedDict ℕ ℕ) := do
  let index ← value.objects.foldlM (fun index object => object.referents.foldlM addAddress index)
    (indexObjects value.objects)
  value.threads.zipIdx.foldlM (fun index entry =>
    (orders.walk (.graphLocals entry.2) entry.1.localAddresses).foldlM addAddress index) index

/-- `referents` and `inboundCount` while they are filled. -/
structure Edges where
  referents : List ℕ
  inboundCount : List ℕ

/-- One round of the loop over the referents of an object, an address with its
`edgeIndex`. -/
def addEdge (index : OrderedDict ℕ ℕ) (start : ℕ) (edges : Edges) (entry : ℕ × ℕ) : Except AnalysisError Edges := do
  let referent := (index.find? entry.1).getD 0
  let referents ← setAt edges.referents ((start + entry.2) % 2 ^ 64) referent
  let count ← getAt edges.inboundCount referent
  let inboundCount ← setAt edges.inboundCount referent ((count + 1) % 2 ^ 32)
  pure ⟨referents, inboundCount⟩

/-- One round of the loop over the objects that fills `referents`. -/
def addEdges (index : OrderedDict ℕ ℕ) (refOffsets : List ℕ) (edges : Edges) (entry : Object × ℕ) :
    Except AnalysisError Edges := do
  let start ← getAt refOffsets entry.2
  entry.1.referents.zipIdx.foldlM (addEdge index start) edges

/-- `inbound` and `cursor` while they are filled. -/
structure Placing where
  inbound : List ℕ
  cursor : List ℕ

/-- `inbound[cursor[target]] = uint32(source); cursor[target]++`. -/
def placeSource (source : ℕ) (placing : Placing) (target : ℕ) : Except AnalysisError Placing := do
  let position ← getAt placing.cursor target
  let inbound ← setAt placing.inbound position (source % 2 ^ 32)
  let cursor ← setAt placing.cursor target ((position + 1) % 2 ^ 64)
  pure ⟨inbound, cursor⟩

/-- One round of the loop over the objects that fills `inbound`. -/
def placeEdges (refOffsets referents : List ℕ) (placing : Placing) (source : ℕ) : Except AnalysisError Placing := do
  let low ← getAt refOffsets source
  let high ← getAt refOffsets (source + 1)
  let targets ← sliceOf referents low high
  targets.foldlM (placeSource source) placing

/-- `if uint64(len(value.Objects)) > uint64(^uint32(0))`. -/
def checkObjectCount (value : Heap) : Except AnalysisError Unit :=
  if value.objects.length > 2 ^ 32 - 1 then
    .error (.failed s!"heap has too many objects for uint32 graph indexes: {value.objects.length}")
  else pure ()

def buildGraph (orders : Orders) (value : Heap) : Except AnalysisError Graph := do
  checkObjectCount value
  let index ← indexAddresses orders value
  let refOffsets := RowTable.prefixSums (2 ^ 64) (value.objects.map fun object => object.referents.length)
  let referentCount ← getAt refOffsets (refOffsets.length - 1)
  let edges ← value.objects.zipIdx.foldlM (addEdges index refOffsets)
    ⟨List.replicate referentCount 0, List.replicate index.entries.length 0⟩
  let inboundOffsets := RowTable.prefixSums (2 ^ 64) edges.inboundCount
  let inboundTotal ← getAt inboundOffsets (inboundOffsets.length - 1)
  let placing ← (List.range value.objects.length).foldlM (placeEdges refOffsets edges.referents)
    ⟨List.replicate inboundTotal 0, inboundOffsets.dropLast⟩
  pure ⟨value.objects.length % 2 ^ 32, index, refOffsets, edges.referents, inboundOffsets, placing.inbound⟩

/-- `ObjectReferents`. -/
def Graph.objectReferents (g : Graph) (object : ℕ) : Except AnalysisError (List ℕ) := do
  let low ← getAt g.refOffsets object
  let high ← getAt g.refOffsets ((object + 1) % 2 ^ 32)
  sliceOf g.referents low high

/-- `InboundReferences`. -/
def Graph.inboundReferences (g : Graph) (node : ℕ) : Except AnalysisError (List ℕ) := do
  let low ← getAt g.inboundOffset node
  let high ← getAt g.inboundOffset ((node + 1) % 2 ^ 32)
  sliceOf g.inbound low high

/-- `InboundCount`. -/
def Graph.inboundCount (g : Graph) (node : ℕ) : Except AnalysisError ℤ := do
  let high ← getAt g.inboundOffset ((node + 1) % 2 ^ 32)
  let low ← getAt g.inboundOffset node
  pure (toInt ((high + 2 ^ 64 - low) % 2 ^ 64))

end Go
end Pydump
