/-
# The report of the Go analyzer

`analyzer/go/internal/analysis/report.go`: `BuildReport`.  Its structs encode to the same
document as the Python report, which is why they are taken from there; only `TypeSummary`
has a field beside those of the document.  Numbers are unsigned with 64 bits, strings
compare by their bytes.

A `map` is walked in any order (`RangeOrder`), and `sort.Slice` and `sort.Strings` leave
equal keys in any order (`FreeSort`); `sort.SliceStable` is a stable sort.  A slice that is
read beyond its end panics (`indexOutOfRange`).
-/

import Pydump.Analyzer.Report
import Pydump.Go.Rendering
import Pydump.Go.Retained
import Pydump.Lib.Sorting
import Pydump.Lib.Utf8

namespace Pydump
namespace Go

open Analyzer (FrameSummary HeapSummary LocalSummary Report RetainedObject RetainedSummary SourceSummary ThreadSummary
  hexAddress)
open Sorting (FreeSort)

/-- The order in which a map is walked. -/
structure RangeOrder where
  walk : ∀ {K V : Type}, OrderedDict K V → List (K × V)
  perm : ∀ {K V : Type} (map : OrderedDict K V), (walk map).Perm map.entries

/-- In the order of insertion. -/
def RangeOrder.inserted : RangeOrder := ⟨OrderedDict.entries, fun _ => .rfl⟩

/-! ### `typeSummaries` -/

/-- `TypeSummary`; `address` is not part of the document. -/
structure TypeSummary extends Analyzer.TypeSummary where
  address : ℕ
  deriving DecidableEq

/-- One round of the loop over the objects. -/
def addToType (value : Heap) (byType : OrderedDict ℕ TypeSummary) (object : Object) : OrderedDict ℕ TypeSummary :=
  let summary := (byType.find? object.typeAddress).getD
    ⟨⟨hexAddress object.typeAddress, (value.types.find? object.typeAddress).getD "", 0, 0⟩, object.typeAddress⟩
  byType.insert object.typeAddress
    { summary with
      objectCount := (summary.objectCount + 1) % 2 ^ 64
      shallowSizeBytes := (summary.shallowSizeBytes + object.size) % 2 ^ 64 }

/-- `<` of two strings. -/
def stringLess (a b : String) : Bool := decide (Utf8.encode a < Utf8.encode b)

/-- The comparison of `typeSummaries`. -/
def TypeSummary.less (left right : TypeSummary) : Bool :=
  if left.shallowSizeBytes ≠ right.shallowSizeBytes then right.shallowSizeBytes < left.shallowSizeBytes
  else if left.objectCount ≠ right.objectCount then right.objectCount < left.objectCount
  else if left.typeName ≠ right.typeName then stringLess left.typeName right.typeName
  else left.address < right.address

/-- `typeSummaries`. -/
def typeSummaries (order : RangeOrder) (sorter : FreeSort) (value : Heap) : List TypeSummary :=
  let byType := value.objects.foldl (addToType value) .empty
  sorter.sort TypeSummary.less ((order.walk byType).map Prod.snd)

/-! ### `threadSummaries` -/

/-- The name of the type of an object, if there is one at the address. -/
def objectTypeName (value : Heap) (address : ℕ) : Option String :=
  (value.objectByAddress.find? address).bind fun index =>
    (value.objects[index]?).map fun object => (value.types.find? object.typeAddress).getD ""

/-- The locals of a frame. -/
def localVariables (order : RangeOrder) (sorter : FreeSort) (value : Heap) (frame : ThreadFrame) : List LocalSummary :=
  let names := sorter.sort stringLess ((order.walk frame.locals).map Prod.fst)
  names.map fun name =>
    let objectAddress := (frame.locals.find? name).getD 0
    ⟨name, hexAddress objectAddress, objectTypeName value objectAddress⟩

/-- The summary of a frame. -/
def frameSummary (order : RangeOrder) (sorter : FreeSort) (value : Heap) (frame : ThreadFrame) : FrameSummary :=
  ⟨frame.fileName, frame.lineNumber, frame.functionName, localVariables order sorter value frame⟩

/-- The summary of a thread; a name that is missing in `retained.Threads` has the size 0. -/
def threadSummary (order : RangeOrder) (sorter : FreeSort) (value : Heap) (retained : Option RetainedHeap)
    (thread : Thread) : ThreadSummary :=
  ⟨thread.name, thread.isAlive, thread.isDaemon,
    retained.map fun retained => ((retained.threads.find? thread.name).getD 0 : ℕ),
    thread.stackTrace.map (frameSummary order sorter value)⟩

/-- `threadSummaries`. -/
def threadSummaries (order : RangeOrder) (sorter : FreeSort) (value : Heap) (retained : Option RetainedHeap) :
    List ThreadSummary :=
  value.threads.map (threadSummary order sorter value retained)

/-! ### `retainedObjects` -/

/-- `retained.Objects[index]`. -/
def RetainedHeap.sizeAt (retained : RetainedHeap) (index : ℕ) : Except StringError ℕ :=
  match retained.objects[index]? with
  | some size => .ok size
  | none => .error (.indexOutOfRange index)

/-- An index with its retained size. -/
def indexedSize (retained : RetainedHeap) (index : ℕ) : Except StringError (ℕ × ℕ) := do
  let size ← retained.sizeAt index
  pure (index, size)

/-- The indexes of the objects, after `sort.SliceStable`, which reads the size of every one of
them unless there is only one. -/
def sortedIndexes (value : Heap) (retained : RetainedHeap) : Except StringError (List ℕ) := do
  let indexes := List.range value.objects.length
  if indexes.length < 2 then pure indexes
  else do
    let sizes ← indexes.mapM (indexedSize retained)
    pure ((sizes.mergeSort fun left right => decide (right.2 ≤ left.2)).map Prod.fst)

/-- The representation of an object, in an artifact with strings. -/
def representation (value : Heap) (object : Object) : Except StringError (Option String) :=
  if value.header.withStringRepr then do
    let text ← value.stringRepresentation object.address
    pure (some text)
  else pure none

/-- The summary of the object at an index. -/
def retainedObject (value : Heap) (retained : RetainedHeap) (index : ℕ) : Except StringError RetainedObject :=
  match value.objects[index]? with
  | none => .error (.indexOutOfRange index)
  | some object => do
    let text ← representation value object
    let size ← retained.sizeAt index
    pure ⟨hexAddress object.address, (value.types.find? object.typeAddress).getD "", object.size, size, text⟩

/-- `retainedObjects`. -/
def retainedObjects (value : Heap) (retained : RetainedHeap) (topN : ℕ) :
    Except StringError (List RetainedObject) := do
  let indexes ← sortedIndexes value retained
  let indexes := if topN < indexes.length then indexes.take topN else indexes
  indexes.mapM (retainedObject value retained)

/-! ### `BuildReport` -/

/-- The sums of the first loop. -/
def addSizes (sums : ℕ × ℕ) (object : Object) : ℕ × ℕ :=
  ((sums.1 + object.referents.length) % 2 ^ 64, (sums.2 + object.size) % 2 ^ 64)

/-- `HeapSummary`. -/
def heapSummary (value : Heap) : HeapSummary :=
  let (referentCount, shallowSize) := value.objects.foldl addSizes (0, 0)
  ⟨value.objects.length, value.types.keys.length, value.threads.length, referentCount, shallowSize⟩

def Schema : String := "pydump.analysis/v1"

/-- `BuildReport`, with what is known of the file. -/
def buildReport (order : RangeOrder) (sorter : FreeSort) (sha256 : String) (sizeBytes : ℕ) (value : Heap)
    (retained : Option RetainedHeap) (topN : ℕ) : Except StringError Report := do
  let retainedHeap : RetainedSummary ←
    match retained with
    | none => pure ⟨"not_computed", topN, []⟩
    | some retained => do
      let topObjects ← retainedObjects value retained topN
      pure ⟨"complete", topN, topObjects⟩
  let source : SourceSummary :=
    ⟨sha256, sizeBytes, value.header.version, value.header.createdAt, value.header.withStringRepr⟩
  pure ⟨Schema, source, heapSummary value, (typeSummaries order sorter value).map TypeSummary.toTypeSummary,
    threadSummaries order sorter value retained, retainedHeap⟩

end Go
end Pydump
