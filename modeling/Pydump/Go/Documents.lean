/-
# The document of an artifact

What the document `pydump.analysis/v1` has to say about an artifact: which rows stand in
which order, with which sizes and texts.  There is one such document for every request
(`Documents.unique`), and both analyzers make it from sizes that were calculated by either
(`document_of_python`, `document_of_go`), in whatever order Go walks its maps and leaves
equal keys.
-/

import Pydump.Go.CacheRunsSpec
import Pydump.Go.Commands
import Pydump.Go.ReportSpec
import Pydump.Go.ThreadRows

namespace Pydump
namespace Go

open ExceptLoop
open Analyzer (CachedHeap FrameSummary LocalSummary Ranks Report RetainedObject RetainedSummary Sizes SizesAt
    SourceSummary
  ThreadSummary TopRow TypeRow TypeRows hexAddress localSummary ranking readHeap sortedKeys typeRow)
open Sorting (FreeSort Lists)

variable {content : List UInt8} {known : Analyzer.ContainerTypes} {heap : Analyzer.Heap} {value : Heap}
  {sha256 : List UInt8 → String} {request : Request}

/-! ### The statement -/

/-- The element for a frame. -/
structure FrameRow (heap : Analyzer.Heap) (frame : Analyzer.HeapThreadFrame) (row : FrameSummary) : Prop where
  fileName : row.fileName = frame.fileName
  lineNumber : row.lineNumber = frame.lineNumber
  functionName : row.functionName = frame.functionName
  locals : Lists (fun a b => a.name < b.name) (frame.locals.entries.map (localSummary heap)) row.localVariables

/-- The size in the row of a thread: the one of the last thread with the name. -/
def ThreadSize (heap : Analyzer.Heap) (request : Request) (name : String) (size : Option ℤ) : Prop :=
  match request with
  | .summary => size = none
  | .retainedHeap _ =>
    ∃ i last, LastOfName heap i last ∧ last.name = name ∧ size = some (heap.threadRetained last : ℤ)

/-- The element for a thread. -/
structure ThreadRow (heap : Analyzer.Heap) (request : Request) (thread : Analyzer.HeapThread) (row : ThreadSummary) :
    Prop where
  name : row.name = thread.name
  isAlive : row.isAlive = thread.isAlive
  isDaemon : row.isDaemon = thread.isDaemon
  size : ThreadSize heap request thread.name row.retainedSizeBytes
  frames : List.Forall₂ (FrameRow heap) thread.stackTrace row.frames

/-- The retained size of the object at an index. -/
noncomputable def retainedAt (heap : Analyzer.Heap) (i : ℕ) : ℤ :=
  heap.graph.retained heap.size (heap.objects.keys.getD i 0)

/-- The text of an object, in an artifact with strings. -/
def textOf (heap : Analyzer.Heap) (address : ℕ) : Option String :=
  if heap.header.flags.withStrRepr then some (heap.text address) else none

/-- The element for the object at an index. -/
structure TopElement (heap : Analyzer.Heap) (i : ℕ) (row : RetainedObject) : Prop extends
    TopRow heap (retainedAt heap) i row where
  text : row.stringRepresentation = textOf heap (heap.objects.keys.getD i 0)

/-- The retained sizes: the first objects of the ranking by size, of which those of one size
stand in the order of the artifact. -/
def TopSummary (heap : Analyzer.Heap) (request : Request) (summary : RetainedSummary) : Prop :=
  match request with
  | .summary => summary = ⟨"not_computed", 100, []⟩
  | .retainedHeap topN =>
    summary.status = "complete" ∧ summary.topN = topN ∧
      ∃ order, Lists (Ranks (retainedAt heap)) (List.range heap.objects.keys.length) order ∧
        List.Forall₂ (TopElement heap) (order.take topN) summary.topObjects

/-- **The document** that an artifact calls for. -/
structure Documents (sha256 : List UInt8 → String) (content : List UInt8) (heap : Analyzer.Heap) (request : Request)
    (report : Report) : Prop where
  schema : report.schema = "pydump.analysis/v1"
  source : report.source =
    ⟨sha256 content, content.length, heap.header.version, heap.header.createdAt, heap.header.flags.withStrRepr⟩
  totals : report.heap = ⟨heap.objects.keys.length, heap.types.keys.length, heap.threads.length,
    (heap.objects.values.map fun obj => obj.referents.card).sum, (heap.objects.values.map Analyzer.HeapObject.size).sum⟩
  types : ∃ rows, TypeRows heap rows ∧ report.types = rows.map TypeRow.summary
  threads : List.Forall₂ (ThreadRow heap request) heap.threads report.threads
  retainedHeap : TopSummary heap request report.retainedHeap

/-- What the two calculators need to agree: the locals occur in the graph, the addresses fit
the index of Go, and no thread with a twin is the only way to an object with a size. -/
structure Comparable (heap : Analyzer.Heap) (value : Heap) : Prop where
  locals : heap.LocalsKnown
  fits : value.FitsIndex
  twins : TwinsHoldNothing heap

/-! ### There is one document -/

/-- The rows of the types are fixed by the heap. -/
theorem TypeRows.unique {rows rows' : List TypeRow} (h : TypeRows heap rows) (h' : TypeRows heap rows') :
    rows = rows' := by
  have hsame : ∀ {rows rows' : List TypeRow}, TypeRows heap rows → TypeRows heap rows' → ∀ row ∈ rows, row ∈ rows' := by
    intro rows rows' h h' row hrow
    have haddress := (h'.occurs row.address).2 ((h.occurs row.address).1 (List.mem_map_of_mem hrow))
    obtain ⟨row', hrow', heq⟩ := List.mem_map.1 haddress
    have hname := h.named row hrow
    have hcount := h.counted row hrow
    have hbytes := h.weighed row hrow
    rw [← heq] at hname hcount hbytes
    have hname' := Option.some.inj (hname.symm.trans (h'.named row' hrow'))
    have hcount' := hcount.trans (h'.counted row' hrow').symm
    have hbytes' := hbytes.trans (h'.weighed row' hrow').symm
    cases row
    cases row'
    cases heq
    cases hname'
    cases hcount'
    cases hbytes'
    exact hrow'
  have hperm : rows.Perm rows' := (List.perm_ext_iff_of_nodup (.of_map _ h.nodup) (.of_map _ h'.nodup)).2 fun row =>
    ⟨hsame h h' row, hsame h' h row⟩
  exact hperm.eq_of_pairwise (fun a b _ _ hab hba => absurd hba (TypeRow.before_asymm a b hab)) h.ordered h'.ordered

/-- The row of a frame is fixed by the heap. -/
theorem FrameRow.unique {frame : Analyzer.HeapThreadFrame} {row row' : FrameSummary} (h : FrameRow heap frame row)
    (h' : FrameRow heap frame row') : row = row' := by
  have hlocals := h.locals.unique (fun a b hab => lt_asymm hab) h'.locals (.refl _)
  have hfile := h.fileName.trans h'.fileName.symm
  have hline := h.lineNumber.trans h'.lineNumber.symm
  have hfunction := h.functionName.trans h'.functionName.symm
  cases row
  cases row'
  cases hlocals
  cases hfile
  cases hline
  cases hfunction
  rfl

/-- The size of a thread is fixed by the heap and the request. -/
theorem ThreadSize.unique {name : String} {size size' : Option ℤ} (h : ThreadSize heap request name size)
    (h' : ThreadSize heap request name size') : size = size' := by
  cases request with
  | summary => exact h.trans h'.symm
  | retainedHeap topN =>
    obtain ⟨i, last, hlast, hname, rfl⟩ := h
    obtain ⟨i', last', hlast', hname', rfl⟩ := h'
    have hfind := lastOfName_iff.2 ⟨hlast, hname⟩
    rw [lastOfName_iff.2 ⟨hlast', hname'⟩] at hfind
    cases hfind
    rfl

/-- The row of a thread is fixed by the heap and the request. -/
theorem ThreadRow.unique {thread : Analyzer.HeapThread} {row row' : ThreadSummary}
    (h : ThreadRow heap request thread row) (h' : ThreadRow heap request thread row') : row = row' := by
  have hframes := Relator.RightUnique.forall₂ (R := FrameRow heap) (fun _ _ _ => FrameRow.unique) h.frames h'.frames
  have hsize := h.size.unique h'.size
  have hname := h.name.trans h'.name.symm
  have halive := h.isAlive.trans h'.isAlive.symm
  have hdaemon := h.isDaemon.trans h'.isDaemon.symm
  cases row
  cases row'
  cases hframes
  cases hsize
  cases hname
  cases halive
  cases hdaemon
  rfl

/-- The row of an object is fixed by the heap. -/
theorem TopElement.unique {i : ℕ} {row row' : RetainedObject} (h : TopElement heap i row)
    (h' : TopElement heap i row') :
    row = row' := by
  have hrest := h.toTopRow.withoutText_eq h'.toTopRow
  have htext := h.text.trans h'.text.symm
  cases row
  cases row'
  simp only [RetainedObject.withoutText, RetainedObject.mk.injEq, and_true] at hrest
  obtain ⟨rfl, rfl, rfl, rfl⟩ := hrest
  cases htext
  rfl

/-- No object ranks before one that ranks before it. -/
theorem ranks_asymm {size : ℕ → ℤ} (i j : ℕ) (h : Ranks size i j) : ¬Ranks size j i := by
  unfold Ranks at *
  omega

/-- The retained summary is fixed by the heap and the request. -/
theorem TopSummary.unique {summary summary' : RetainedSummary} (h : TopSummary heap request summary)
    (h' : TopSummary heap request summary') : summary = summary' := by
  cases request with
  | summary => exact h.trans h'.symm
  | retainedHeap topN =>
    obtain ⟨hstatus, htopN, order, horder, hrows⟩ := h
    obtain ⟨hstatus', htopN', order', horder', hrows'⟩ := h'
    cases horder.unique ranks_asymm horder' (.refl _)
    have htop := Relator.RightUnique.forall₂ (R := TopElement heap) (fun _ _ _ => TopElement.unique) hrows hrows'
    cases summary
    cases summary'
    cases hstatus.trans hstatus'.symm
    cases htopN.trans htopN'.symm
    cases htop
    rfl

/-- **There is one document** for an artifact and a request. -/
theorem Documents.unique {report report' : Report} (h : Documents sha256 content heap request report)
    (h' : Documents sha256 content heap request report') : report = report' := by
  obtain ⟨rows, hrows, htypes⟩ := h.types
  obtain ⟨rows', hrows', htypes'⟩ := h'.types
  cases TypeRows.unique hrows hrows'
  have hthreads :=
    Relator.RightUnique.forall₂ (R := ThreadRow heap request) (fun _ _ _ => ThreadRow.unique) h.threads h'.threads
  have hretained := h.retainedHeap.unique h'.retainedHeap
  have hschema := h.schema.trans h'.schema.symm
  have hsource := h.source.trans h'.source.symm
  have htotals := h.totals.trans h'.totals.symm
  have htypes := htypes.trans htypes'.symm
  cases report
  cases report'
  cases hthreads
  cases hretained
  cases hschema
  cases hsource
  cases htotals
  cases htypes
  rfl

/-! ### The sizes -/

/-- The sizes that the document is to have. -/
structure RightSizes (heap : Analyzer.Heap) (sizes : Sizes) : Prop where
  objects : ∀ a ∈ heap.objects.keys, sizes.objects a = some (heap.graph.retained heap.size a)
  threads : ∀ i last, LastOfName heap i last → sizes.threads last.name = some (heap.threadRetained last)
  known : ∀ a size, sizes.objects a = some size → a ∈ heap.objects.keys
  named : ∀ name size, sizes.threads name = some size → ∃ i last, LastOfName heap i last ∧ last.name = name

/-- One thread is the last of its name. -/
theorem exists_lastOfName {thread : Analyzer.HeapThread} (h : thread ∈ heap.threads) :
    ∃ i last, LastOfName heap i last ∧ last.name = thread.name := by
  obtain ⟨i, hi⟩ := List.mem_iff_getElem?.1 h
  have hentry : (thread, i) ∈ heap.threads.zipIdx.reverse :=
    List.mem_reverse.2 (List.mk_mem_zipIdx_iff_getElem?.2 hi)
  have hsome : (heap.threads.zipIdx.reverse.find? fun entry => entry.1.name = thread.name).isSome :=
    List.find?_isSome.2 ⟨_, hentry, decide_eq_true rfl⟩
  obtain ⟨⟨last, j⟩, hfind⟩ := Option.isSome_iff_exists.1 hsome
  exact ⟨j, last, lastOfName_iff.1 hfind⟩

/-- **What either analyzer calculates** is right. -/
theorem Calculated.right {sizes : Sizes} (hread : readHeap content = .ok heap) (hload : load content = .ok value)
    (hcomparable : Comparable heap value) (h : Calculated content sizes) : RightSizes heap sizes := by
  have hlike := readers_alike hread hload
  have hbounded := bounded_of_readHeap hread
  have hpython : heap.threadResults heap.threads =
      .ofPairs (heap.threads.zipIdx.map fun entry => (entry.1.name, heap.threadRetained entry.1)) := by
    conv_lhs => rw [Analyzer.Heap.threadResults, ← List.zipIdx_map_fst 0 heap.threads, List.map_map]
    rfl
  have hlast : ∀ {i last}, LastOfName heap i last →
      (heap.threadResults heap.threads).find? last.name = some (heap.threadRetained last) := by
    intro i last hlast
    have hfind := (@lastOfName_iff heap i last last.name).2 ⟨hlast, rfl⟩
    rw [hpython, OrderedDict.find?_ofPairs_map, hfind, Option.map_some]
  have hnamed : ∀ {name size}, (heap.threadResults heap.threads).find? name = some size →
      ∃ i last, LastOfName heap i last ∧ last.name = name := by
    intro name size hfind
    rw [hpython, OrderedDict.find?_ofPairs_map, Option.map_eq_some_iff] at hfind
    obtain ⟨⟨last, i⟩, hfind, -⟩ := hfind
    exact ⟨i, last, lastOfName_iff.1 hfind⟩
  cases h with
  | @python heap' orders retained hloads hcalculates =>
    cases hread.symm.trans hloads
    obtain ⟨result, hrun, hobjects, hthreads⟩ := Analyzer.calculateRetained_ok orders hcomparable.locals le_rfl
    cases hcalculates.symm.trans hrun
    constructor
    · intro a ha
      exact (hobjects a).trans (if_pos (Analyzer.mem_graph_objects.2 ha))
    · intro i last hname
      show retained.threads.find? last.name = _
      rw [hthreads]
      exact hlast hname
    · intro a size ha
      have ha' := (hobjects a).symm.trans ha
      split_ifs at ha' with hmem
      exact Analyzer.mem_graph_objects.1 hmem
    · intro name size hname
      rw [← hthreads] at hnamed
      exact hnamed hname
  | @go value' orders retained hloads hcalculates =>
    cases hload.symm.trans hloads
    obtain ⟨result, hrun, hobjects, hthreads⟩ := calculateRetainedHeap_ok hlike hbounded hcomparable.fits orders le_rfl
    cases hcalculates.symm.trans hrun
    have hindexed : value.Indexed := hlike.index
    have hsame := results_same_iff.2 fun i thread hthread => (threadRetained_eq_iff hthread.1).2
      (hcomparable.twins i thread hthread)
    constructor
    · intro a ha
      rw [hlike.keys] at ha
      obtain ⟨object, hobject, rfl⟩ := List.mem_map.1 ha
      obtain ⟨i, hi⟩ := List.mem_iff_getElem?.1 hobject
      have hfind := hindexed.find?_eq_some.2 ⟨object, hi, rfl⟩
      show (value.objectByAddress.find? object.address).bind (fun index => retained.objects[index]?) = _
      rw [hfind, Option.bind_some, hobjects, hlike.keys, List.map_map, List.getElem?_map, hi]
      rfl
    · intro i last hname
      show retained.threads.find? last.name = _
      rw [hthreads, ← hsame]
      exact hlast hname
    · intro a size ha
      obtain ⟨i, hfind, -⟩ := Option.bind_eq_some_iff.1 ha
      obtain ⟨object, hi, rfl⟩ := hindexed.find?_eq_some.1 hfind
      rw [hlike.keys]
      exact List.mem_map_of_mem (List.mem_of_getElem? hi)
    · intro name size hname
      have hfind : retained.threads.find? name = some size := hname
      rw [hthreads, ← hsame] at hfind
      exact hnamed hfind

/-! ### Python -/

/-- What `build_heap_analysis` is given: no sizes, or right ones. -/
def PythonGiven (heap : Analyzer.Heap) (request : Request) (retained : Option CachedHeap) : Prop :=
  match request with
  | .summary => retained = none
  | .retainedHeap _ => ∃ shown sizes, retained = some shown ∧ shown.Shows sizes ∧ RightSizes heap sizes

/-- Python's row of a frame. -/
theorem frameRow_python (frame : Analyzer.HeapThreadFrame) : FrameRow heap frame (Analyzer.frameSummary heap frame) :=
  ⟨rfl, rfl, rfl, Analyzer.lists_localVariables heap frame⟩

/-- Python's row of a thread. -/
theorem threadRow_python {retained : Option CachedHeap} (hgiven : PythonGiven heap request retained)
    {thread : Analyzer.HeapThread} (hthread : thread ∈ heap.threads) :
    ∃ row, Analyzer.threadSummary heap retained thread = .ok row ∧ ThreadRow heap request thread row := by
  have hframes : List.Forall₂ (FrameRow heap) thread.stackTrace (thread.stackTrace.map (Analyzer.frameSummary heap)) :=
    List.forall₂_map_right_iff.2 (List.forall₂_same.2 fun frame _ => frameRow_python frame)
  cases request with
  | summary =>
    cases hgiven
    exact ⟨_, rfl, rfl, rfl, rfl, rfl, hframes⟩
  | retainedHeap topN =>
    obtain ⟨shown, sizes, rfl, hshows, hright⟩ := hgiven
    obtain ⟨i, last, hlast, hname⟩ := exists_lastOfName hthread
    have hget : shown.getForThread thread.name = .ok (heap.threadRetained last : ℤ) := by
      rw [CachedHeap.getForThread, hshows.threads, ← hname, hright.threads i last hlast]
      rfl
    refine ⟨⟨thread.name, thread.isAlive, thread.isDaemon, some (heap.threadRetained last : ℤ),
      thread.stackTrace.map (Analyzer.frameSummary heap)⟩, ?_, rfl, rfl, rfl, ⟨i, last, hlast, hname, rfl⟩, hframes⟩
    rw [Analyzer.threadSummary]
    simp only [hget]
    rfl

/-- The address of the object at an index. -/
theorem address_of_index (hstored : heap.StoredIn content known) {i : ℕ} {obj : Analyzer.HeapObject}
    (hobj : heap.objects.values[i]? = some obj) :
    heap.objects.keys.getD i 0 = obj.address ∧ heap.objects.find? obj.address = some obj := by
  rw [OrderedDict.values, List.getElem?_map, Option.map_eq_some_iff] at hobj
  obtain ⟨⟨address, obj'⟩, hentry, rfl⟩ := hobj
  have hmem := List.mem_of_getElem? hentry
  have haddress := (hstored.stored _ hmem).1
  constructor
  · rw [List.getD_eq_getElem?_getD, OrderedDict.keys, List.getElem?_map, hentry]
    exact haddress.symm
  · rw [haddress]
    exact OrderedDict.find?_eq_some.2 hmem

/-- Python's row of a top object. -/
theorem topElement_python (hstored : heap.StoredIn content known) (hdistinct : known.Distinct) {i : ℕ}
    (hi : i < heap.objects.keys.length) :
    ∃ row, Analyzer.retainedObject heap (heap.objects.keys.getD i 0, retainedAt heap i) = .ok row ∧
      TopElement heap i row := by
  obtain ⟨row, hrow, htop⟩ := Analyzer.retainedObject_ok hstored (retainedAt heap) hi
  refine ⟨row, hrow, htop, ?_⟩
  obtain ⟨obj, hobj, -⟩ := htop.object
  obtain ⟨haddress, hfind⟩ := address_of_index hstored hobj
  have htext : Analyzer.objectString heap obj = .ok (textOf heap (heap.objects.keys.getD i 0)) := by
    unfold Analyzer.objectString textOf
    split_ifs with hflag
    · rw [heap.stringRepresentation_eq hstored hdistinct hflag hfind, haddress]
    · rfl
  rw [Analyzer.retainedObject, haddress, hfind] at hrow
  obtain ⟨name, -, hrow⟩ := bind_eq_ok.1 hrow
  rw [htext] at hrow
  cases hrow
  rfl

/-- Python's retained summary. -/
theorem topSummary_python (hstored : heap.StoredIn content known) (hdistinct : known.Distinct)
    {retained : Option CachedHeap} (hgiven : PythonGiven heap request retained) :
    ∃ summary, Analyzer.retainedSummary heap retained request.topN = .ok summary ∧ TopSummary heap request summary := by
  cases request with
  | summary =>
    cases hgiven
    exact ⟨_, rfl, rfl⟩
  | retainedHeap topN =>
    obtain ⟨shown, sizes, rfl, hshows, hright⟩ := hgiven
    have hsizes : SizesAt heap shown (retainedAt heap) := by
      intro i address haddress
      rw [CachedHeap.getForObject, hshows.objects, hright.objects _ (List.mem_of_getElem? haddress), retainedAt,
        List.getD_eq_getElem?_getD, haddress]
      rfl
    obtain ⟨top, htop, hrows⟩ := mapM_forall₂ fun i hi => @topElement_python _ _ _ hstored hdistinct i (List.mem_range.1
      ((Analyzer.lists_ranking (retainedAt heap) heap.objects.keys.length).perm.mem_iff.1
        (List.mem_of_mem_take (i := topN) hi)))
    refine ⟨⟨"complete", topN, top⟩, ?_, rfl, rfl, _, Analyzer.lists_ranking _ _, hrows⟩
    unfold Analyzer.retainedSummary Request.topN
    dsimp only
    rw [Analyzer.objectsSortedByRetainedHeap_eq hsizes, ← List.map_take, List.mapM_map]
    exact bind_ok htop

/-- **`build_heap_analysis` makes the document.** -/
theorem document_of_python (hread : readHeap content = .ok heap) (hdiffer : ContainersDiffer content)
    {retained : Option CachedHeap} (hgiven : PythonGiven heap request retained) :
    ∃ report, Analyzer.buildHeapAnalysis (sha256 content) content.length heap retained request.topN = .ok report ∧
      Documents sha256 content heap request report := by
  obtain ⟨known, hstored⟩ := Analyzer.storedIn_of_readHeap hread
  have hdistinct := hdiffer.distinct hread hstored.containers
  have htypes := Analyzer.typeSummaries_eq hstored
  obtain ⟨threads, hthreads, hrows⟩ := mapM_forall₂ fun thread hthread =>
    @threadRow_python _ request retained hgiven thread hthread
  obtain ⟨summary, hsummary, htop⟩ := topSummary_python hstored hdistinct hgiven
  refine ⟨_, (bind_ok htypes).trans ((bind_ok hthreads).trans (bind_ok hsummary)), rfl, rfl, rfl,
    ⟨_, Analyzer.typeRows_of_lists hstored (Analyzer.lists_rows heap), ?_⟩, hrows, htop⟩
  rw [List.map_map]
  rfl

/-! ### Go -/

/-- What `BuildReport` is given. -/
def GoGiven (heap : Analyzer.Heap) (value : Heap) (request : Request) (retained : Option RetainedHeap) : Prop :=
  match request with
  | .summary => retained = none
  | .retainedHeap _ => ∃ shown sizes, retained = some shown ∧ shown.Shows value sizes ∧ RightSizes heap sizes

variable (order : RangeOrder) (sorter : FreeSort)

/-- Go's row of a frame. -/
theorem LikeHeap.frameRow {R : ContentRelation} (h : LikeHeap R heap value) (hstored : heap.StoredIn content known)
    {frame : Analyzer.HeapThreadFrame} {other : ThreadFrame} (hframe : SameFrame frame other) :
    FrameRow heap frame (frameSummary order sorter value other) := by
  refine ⟨hframe.fileName.symm, hframe.lineNumber.symm, hframe.functionName.symm, ?_⟩
  show Lists _ _ (localVariables order sorter value other)
  rw [h.localVariables_eq order sorter hstored hframe]
  exact Analyzer.lists_localVariables heap frame

/-- Go's row of a thread. -/
theorem LikeHeap.threadRow {R : ContentRelation} (h : LikeHeap R heap value) (hstored : heap.StoredIn content known)
    {retained : Option RetainedHeap} (hgiven : GoGiven heap value request retained) {thread : Analyzer.HeapThread}
    {other : Thread} (hthread : thread ∈ heap.threads) (hsame : SameThread thread other) :
    ThreadRow heap request thread (threadSummary order sorter value retained other) := by
  refine ⟨hsame.name.symm, hsame.isAlive.symm, hsame.isDaemon.symm, ?_,
    List.forall₂_map_right_iff.2 (hsame.stackTrace.imp fun _ _ hframe => h.frameRow order sorter hstored hframe)⟩
  cases request with
  | summary =>
    cases hgiven
    rfl
  | retainedHeap topN =>
    obtain ⟨shown, sizes, rfl, hshows, hright⟩ := hgiven
    obtain ⟨i, last, hlast, hname⟩ := exists_lastOfName hthread
    refine ⟨i, last, hlast, hname, ?_⟩
    show some (((shown.threads.find? other.name).getD 0 : ℕ) : ℤ) = _
    rw [← hsame.name, ← hname, hshows.threads, hright.threads i last hlast]
    rfl

/-- **The size of an object** is the one that is right. -/
theorem RetainedHeap.Shows.sizeAt_eq {R : ContentRelation} (h : LikeHeap R heap value) {shown : RetainedHeap}
    {sizes : Sizes} (hshows : shown.Shows value sizes) (hright : RightSizes heap sizes) {i : ℕ}
    (hi : i < value.objects.length) : ∃ n : ℕ, shown.sizeAt i = .ok n ∧ n = retainedAt heap i := by
  have hobject := List.getElem?_eq_getElem hi
  have hkey : heap.objects.keys[i]? = some value.objects[i].address := by
    rw [h.keys, List.getElem?_map, hobject]
    rfl
  have hshown := (hshows.objects i _ hobject).trans (hright.objects _ (List.mem_of_getElem? hkey))
  refine ⟨_, by rw [RetainedHeap.sizeAt, hshown], ?_⟩
  rw [retainedAt, List.getD_eq_getElem?_getD, hkey]
  rfl

/-- Go's row of a top object. -/
theorem SameHeap.topElement (h : SameHeap heap value) (hstored : heap.StoredIn content known)
    (hkeys : value.KeysDistinct)
    {shown : RetainedHeap} {sizes : Sizes} (hshows : shown.Shows value sizes) (hright : RightSizes heap sizes) {i : ℕ}
    (hi : i < value.objects.length) : ∃ row, retainedObject value shown i = .ok row ∧ TopElement heap i row := by
  obtain ⟨obj, hentry, hlike⟩ := h.object (List.getElem?_eq_getElem hi)
  have hvalue : heap.objects.values[i]? = some obj := by
    rw [OrderedDict.values, List.getElem?_map, hentry]
    rfl
  obtain ⟨haddress, -⟩ := address_of_index hstored hvalue
  obtain ⟨name, hname⟩ := OrderedDict.exists_find?_of_mem_keys (hstored.typed obj (List.mem_of_getElem? hvalue))
  have htext : representation value value.objects[i] = .ok (textOf heap obj.address) := by
    unfold representation textOf
    rw [← h.header.withStringRepr, ← hlike.address]
    split_ifs with hflag
    · have hrender := h.render_eq hstored hflag hkeys ∅ obj.address
      rw [Heap.stringRepresentation, if_neg (not_not.2 (h.header.withStringRepr ▸ hflag)), bind_ok hrender]
      rfl
    · rfl
  obtain ⟨n, hn, hni⟩ := hshows.sizeAt_eq h hright hi
  refine ⟨⟨hexAddress value.objects[i].address, name, value.objects[i].size, n, textOf heap obj.address⟩, ?_,
    ⟨⟨obj, hvalue, ?_, hname, hlike.size.symm⟩, hni⟩, ?_⟩
  · simp only [retainedObject, List.getElem?_eq_getElem hi, ← hlike.typeAddress, ← h.types, hname, Option.getD_some]
    rw [bind_ok htext, bind_ok hn]
    rfl
  · rw [hlike.address]
  · rw [haddress]

/-- Go's rows of the top objects. -/
theorem SameHeap.topObjects (h : SameHeap heap value) (hstored : heap.StoredIn content known)
    (hkeys : value.KeysDistinct)
    {shown : RetainedHeap} {sizes : Sizes} (hshows : shown.Shows value sizes) (hright : RightSizes heap sizes)
    (topN : ℕ) :
    ∃ top, retainedObjects value shown topN = .ok top ∧
      List.Forall₂ (TopElement heap) ((ranking (retainedAt heap) heap.objects.keys.length).take topN) top := by
  have hlength : heap.objects.keys.length = value.objects.length := by rw [h.keys, List.length_map]
  have hindexes : sortedIndexes value shown = .ok (ranking (retainedAt heap) heap.objects.keys.length) := by
    rw [hlength]
    exact sortedIndexes_eq fun i hi => hshows.sizeAt_eq h hright hi
  obtain ⟨top, htop, hrows⟩ :=
    mapM_forall₂ fun i hi => h.topElement hstored hkeys hshows hright (hlength ▸ List.mem_range.1
    ((Analyzer.lists_ranking (retainedAt heap) heap.objects.keys.length).perm.mem_iff.1
      (List.mem_of_mem_take (i := topN) hi)))
  refine ⟨top, ?_, hrows⟩
  rw [retainedObjects, bind_ok hindexes]
  dsimp only
  split_ifs with hfewer
  · exact htop
  · rwa [List.take_of_length_le (by omega)] at htop

/-- The totals, none of which wraps in an artifact that a file can have. -/
theorem LikeHeap.totals {R : ContentRelation} (h : LikeHeap R heap value) (hread : readHeap content = .ok heap)
    (hlength : content.length < 2 ^ 64) : heapSummary value = Analyzer.heapSummary heap := by
  obtain ⟨known, hstored⟩ := Analyzer.storedIn_of_readHeap hread
  obtain ⟨hcount, hbytes⟩ := h.heapSummary_eq hstored
  have hreferents : (value.objects.map fun object => object.referents.length) =
      heap.objects.values.map fun obj => obj.referents.card := by
    rw [OrderedDict.values, List.map_map]
    refine (List.forall₂_eq_eq_eq ▸ List.forall₂_map_left_iff.2 (List.forall₂_map_right_iff.2
      (h.objects.imp fun entry object hobject => ?_)) : _ = _).symm
    rw [Function.comp_apply, ← hobject.2.referents.2]
    exact List.toFinset_card_of_nodup (hobject.2.referents.1.imp fun hlt => Nat.ne_of_lt hlt)
  have hsum := (Analyzer.referentCount_le hread).trans_lt hlength
  have hreferentCount : (heapSummary value).referentCount = (Analyzer.heapSummary heap).referentCount := by
    show (value.objects.foldl addSizes (0, 0)).1 = Analyzer.referentCount heap.objects
    rw [foldl_addSizes, hreferents]
    exact Nat.mod_eq_of_lt hsum
  have htypes : (heapSummary value).typeCount = (Analyzer.heapSummary heap).typeCount :=
    congrArg (fun types : OrderedDict ℕ String => types.keys.length) h.types.symm
  have hthreads : (heapSummary value).threadCount = (Analyzer.heapSummary heap).threadCount := h.threads.length_eq.symm
  generalize heapSummary value = totals at *
  generalize Analyzer.heapSummary heap = totals' at *
  cases totals
  cases totals'
  cases hcount
  cases htypes
  cases hthreads
  cases hreferentCount
  cases hbytes
  rfl

/-- **`BuildReport` makes the document**, in whatever order the maps are walked. -/
theorem document_of_go (hread : readHeap content = .ok heap) (hload : load content = .ok value)
    (hdiffer : ContainersDiffer content) (hlength : content.length < 2 ^ 64) (hkeys : value.KeysDistinct)
    {retained : Option RetainedHeap} (hgiven : GoGiven heap value request retained) :
    ∃ report, buildReport order sorter (sha256 content) content.length value retained request.topN = .ok report ∧
      Documents sha256 content heap request report := by
  obtain ⟨known, hstored⟩ := Analyzer.storedIn_of_readHeap hread
  have hsame := (readers_agree hdiffer).2 heap value hread hload
  have hlike := hsame
  have hthreads : List.Forall₂ (ThreadRow heap request) heap.threads (threadSummaries order sorter value retained) := by
    refine List.forall₂_map_right_iff.2 (List.forall₂_iff_get.2 ⟨hlike.threads.length_eq, fun i hi hi' => ?_⟩)
    exact hlike.threadRow order sorter hstored hgiven (List.get_mem _ _) (hlike.threads.get hi hi')
  have hdocument : ∀ summary, TopSummary heap request summary →
      Documents sha256 content heap request ⟨Schema, ⟨sha256 content, content.length, value.header.version,
        value.header.createdAt, value.header.withStringRepr⟩, heapSummary value,
        (typeSummaries order sorter value).map TypeSummary.toTypeSummary, threadSummaries order sorter value retained,
        summary⟩ := by
    intro summary htop
    refine ⟨rfl, ?_, hlike.totals hread hlength, ⟨_, Analyzer.typeRows_of_lists hstored (Analyzer.lists_rows heap), ?_⟩,
      hthreads, htop⟩
    · rw [← hlike.header.version, ← hlike.header.createdAt, ← hlike.header.withStringRepr]
    · rw [hlike.typeSummaries_eq order sorter hstored, List.map_map]
      rfl
  cases request with
  | summary =>
    cases hgiven
    exact ⟨_, rfl, hdocument _ rfl⟩
  | retainedHeap topN =>
    obtain ⟨shown, sizes, rfl, hshows, hright⟩ := hgiven
    obtain ⟨top, htop, hrows⟩ := hsame.topObjects hstored hkeys hshows hright topN
    refine ⟨_, ?_, hdocument ⟨"complete", topN, top⟩ ⟨rfl, rfl, _, Analyzer.lists_ranking _ _, hrows⟩⟩
    unfold buildReport Request.topN
    dsimp only
    rw [bind_ok htop]
    rfl

end Go
end Pydump
