/-
# The report of the Python analyzer

`analyzer/python/src/pydump_analyzer/report.py`: `build_heap_analysis`, the JSON document
`pydump.analysis/v1` of a heap, and `objects_sorted_by_retained_heap` of `retained.py`.
The SHA-256 and the size of the file are taken as they are.

`sorted` and `list.sort` keep the order of equal keys, also with `reverse=True`; tuples
compare by their first components that differ, strings by their code points.  The sizes of
a `RetainedHeap` that was loaded are any integers.
-/

import Pydump.Analyzer.Cache
import Pydump.Analyzer.Reader

namespace Pydump
namespace Analyzer

/-! ### The document -/

/-- An element of `types`. -/
structure TypeSummary where
  typeAddress : String
  typeName : String
  objectCount : ℕ
  shallowSizeBytes : ℕ
  deriving DecidableEq

/-- An element of `local_variables`. -/
structure LocalSummary where
  name : String
  objectAddress : String
  typeName : Option String
  deriving DecidableEq

/-- An element of `frames`. -/
structure FrameSummary where
  fileName : String
  lineNumber : ℕ
  functionName : String
  localVariables : List LocalSummary
  deriving DecidableEq

/-- An element of `threads`. -/
structure ThreadSummary where
  name : String
  isAlive : Bool
  isDaemon : Bool
  retainedSizeBytes : Option ℤ
  frames : List FrameSummary
  deriving DecidableEq

/-- An element of `top_objects`. -/
structure RetainedObject where
  objectAddress : String
  typeName : String
  shallowSizeBytes : ℕ
  retainedSizeBytes : ℤ
  stringRepresentation : Option String
  deriving DecidableEq

/-- `retained_heap`. -/
structure RetainedSummary where
  status : String
  topN : ℕ
  topObjects : List RetainedObject

/-- `source`. -/
structure SourceSummary where
  sha256 : String
  sizeBytes : ℕ
  heapFormatVersion : ℕ
  createdAt : String
  withStringRepresentations : Bool

/-- `heap`. -/
structure HeapSummary where
  objectCount : ℕ
  typeCount : ℕ
  threadCount : ℕ
  referentCount : ℕ
  shallowSizeBytes : ℕ
  deriving DecidableEq

/-- The whole document. -/
structure Report where
  schema : String
  source : SourceSummary
  heap : HeapSummary
  types : List TypeSummary
  threads : List ThreadSummary
  retainedHeap : RetainedSummary

def ANALYSIS_SCHEMA : String := "pydump.analysis/v1"

/-- The `KeyError`s that leave `build_heap_analysis`. -/
inductive ReportError
  | address (key : ℕ)
  | name (key : String)
  deriving DecidableEq

/-- `heap.types[address]`. -/
def typeName (heap : Heap) (address : ℕ) : Except ReportError String :=
  match heap.types.find? address with
  | some name => .ok name
  | none => .error (.address address)

/-! ### `_type_summaries` -/

/-- One round of the loop over the objects: `counts` and `shallow_sizes`. -/
def countObject (tables : OrderedDict ℕ ℕ × OrderedDict ℕ ℕ) (obj : HeapObject) : OrderedDict ℕ ℕ × OrderedDict ℕ ℕ :=
  (tables.1.insert obj.typeAddress ((tables.1.find? obj.typeAddress).getD 0 + 1),
    tables.2.insert obj.typeAddress ((tables.2.find? obj.typeAddress).getD 0 + obj.size))

/-- The key by which the types are sorted. -/
structure TypeKey where
  shallowSize : ℤ
  count : ℤ
  name : String
  address : ℕ

/-- `<` of two keys, which are tuples. -/
def TypeKey.less (a b : TypeKey) : Bool :=
  if a.shallowSize ≠ b.shallowSize then a.shallowSize < b.shallowSize
  else if a.count ≠ b.count then a.count < b.count
  else if a.name ≠ b.name then a.name < b.name
  else a.address < b.address

/-- The key of a type; both tables have the same keys. -/
def typeKey (heap : Heap) (counts shallowSizes : OrderedDict ℕ ℕ) (address : ℕ) : Except ReportError TypeKey := do
  let name ← typeName heap address
  pure ⟨-((shallowSizes.find? address).getD 0), -((counts.find? address).getD 0), name, address⟩

/-- The element for a type. -/
def typeSummary (heap : Heap) (counts shallowSizes : OrderedDict ℕ ℕ) (address : ℕ) :
    Except ReportError TypeSummary := do
  let name ← typeName heap address
  pure ⟨hexAddress address, name, (counts.find? address).getD 0, (shallowSizes.find? address).getD 0⟩

/-- `_type_summaries`. -/
def typeSummaries (heap : Heap) : Except ReportError (List TypeSummary) := do
  let (counts, shallowSizes) := heap.objects.values.foldl countObject (.empty, .empty)
  let keys ← counts.keys.mapM (typeKey heap counts shallowSizes)
  let addresses := (keys.mergeSort fun a b => !TypeKey.less b a).map TypeKey.address
  addresses.mapM (typeSummary heap counts shallowSizes)

/-! ### `_thread_summary` -/

/-- `_object_type_name`. -/
def objectTypeName (heap : Heap) (address : ℕ) : Option String :=
  (heap.objects.find? address).bind fun obj => heap.types.find? obj.typeAddress

/-- `<` of two items of a `dict`, which are tuples. -/
def itemLess (a b : String × ℕ) : Bool := if a.1 ≠ b.1 then a.1 < b.1 else a.2 < b.2

/-- `local_variables` of a frame. -/
def localVariables (heap : Heap) (frame : HeapThreadFrame) : List LocalSummary :=
  (frame.locals.entries.mergeSort fun a b => !itemLess b a).map fun item =>
    ⟨item.1, hexAddress item.2, objectTypeName heap item.2⟩

/-- The element for a frame. -/
def frameSummary (heap : Heap) (frame : HeapThreadFrame) : FrameSummary :=
  ⟨frame.fileName, frame.lineNumber, frame.functionName, localVariables heap frame⟩

/-- `RetainedHeap.get_for_thread`. -/
def CachedHeap.getForThread (retained : CachedHeap) (name : String) : Except ReportError ℤ :=
  match retained.threads.find? (.ofString name) with
  | some size => .ok size
  | none => .error (.name name)

/-- `_thread_summary`. -/
def threadSummary (heap : Heap) (retained : Option CachedHeap) (thread : HeapThread) :
    Except ReportError ThreadSummary := do
  let retainedSizeBytes ←
    match retained with
    | some retained => do
      let size ← retained.getForThread thread.name
      pure (some size)
    | none => pure none
  pure ⟨thread.name, thread.isAlive, thread.isDaemon, retainedSizeBytes, thread.stackTrace.map (frameSummary heap)⟩

/-- `threads`. -/
def threadSummaries (heap : Heap) (retained : Option CachedHeap) : Except ReportError (List ThreadSummary) :=
  heap.threads.mapM (threadSummary heap retained)

/-! ### `_retained_summary` -/

/-- `RetainedHeap.get_for_object`. -/
def CachedHeap.getForObject (retained : CachedHeap) (address : ℕ) : Option ℤ := retained.objects.find? address

/-- `objects_sorted_by_retained_heap`. -/
def objectsSortedByRetainedHeap (heap : Heap) (retained : CachedHeap) : List (ℕ × ℤ) :=
  (heap.objects.keys.map fun address => (address, (retained.getForObject address).getD 0)).mergeSort
    fun a b => decide (b.2 ≤ a.2)

/-- `_object_string`. -/
def objectString (heap : Heap) (obj : HeapObject) : Except ReportError (Option String) :=
  if heap.header.flags.withStrRepr then
    match heap.stringRepresentation obj with
    | .ok text => .ok text
    | .error name => .error (.name name)
  else .ok none

/-- The element for an object. -/
def retainedObject (heap : Heap) (item : ℕ × ℤ) : Except ReportError RetainedObject :=
  match heap.objects.find? item.1 with
  | none => .error (.address item.1)
  | some obj => do
    let name ← typeName heap obj.typeAddress
    let text ← objectString heap obj
    pure ⟨hexAddress item.1, name, obj.size, item.2, text⟩

/-- `_retained_summary`. -/
def retainedSummary (heap : Heap) (retained : Option CachedHeap) (topN : ℕ) : Except ReportError RetainedSummary :=
  match retained with
  | none => .ok ⟨"not_computed", topN, []⟩
  | some retained => do
    let topObjects ← ((objectsSortedByRetainedHeap heap retained).take topN).mapM (retainedObject heap)
    pure ⟨"complete", topN, topObjects⟩

/-! ### `build_heap_analysis` -/

/-- `source`, with what is known of the file. -/
def sourceSummary (heap : Heap) (sha256 : String) (sizeBytes : ℕ) : SourceSummary :=
  ⟨sha256, sizeBytes, heap.header.version, heap.header.createdAt, heap.header.flags.withStrRepr⟩

/-- `heap`; the last component is `total_heap_size`. -/
def heapSummary (heap : Heap) : HeapSummary :=
  ⟨heap.objects.keys.length, heap.types.keys.length, heap.threads.length,
    (heap.objects.values.map fun obj => obj.referents.card).sum, (heap.objects.values.map HeapObject.size).sum⟩

/-- `build_heap_analysis`. -/
def buildHeapAnalysis (sha256 : String) (sizeBytes : ℕ) (heap : Heap) (retained : Option CachedHeap) (topN : ℕ) :
    Except ReportError Report := do
  let types ← typeSummaries heap
  let threads ← threadSummaries heap retained
  let retainedHeap ← retainedSummary heap retained topN
  pure ⟨ANALYSIS_SCHEMA, sourceSummary heap sha256 sizeBytes, heapSummary heap, types, threads, retainedHeap⟩

end Analyzer
end Pydump
