/-
# What the commands print

Any number of commands of both analyzers on one artifact, with one directory for the cache
entries: whoever calculates and stores the sizes, and whoever takes them, every command that
prints, prints the document of the artifact for what it was asked (`commands_conform`).
-/

import Pydump.Go.CacheExchange
import Pydump.Go.Documents

namespace Pydump
namespace Go

open Analyzer (CachedHeap ContainerTypes Holds Report Sizes readHeap)
open Interleaving (Any Config Run run_play)
open Sorting (FreeSort)

variable {sha1 sha256 : List UInt8 → String} {walks : Walks} {content : List UInt8} {heap : Analyzer.Heap}
    {value : Heap}
  {files : Files} {answer : CommandAnswer} {request : Request}

/-! ### What holds of the files and of a run -/

/-- The path has these bytes, and an entry under their digest holds sizes that were
calculated from them. -/
structure Kept (sha1 : List UInt8 → String) (content : List UInt8) (files : Files) : Prop where
  bytes : files.content = content
  entry : ∀ document, files.entry (sha1 content) = .document document →
    ∃ sizes, Calculated content sizes ∧ Holds document sizes

/-- Where a Python run is with the bytes. -/
def PythonRun.On (sha1 : List UInt8 → String) (content : List UInt8) : PythonRun → Prop
  | .hashing heap | .calculating heap => readHeap content = .ok heap
  | .lookingUp heap digest => readHeap content = .ok heap ∧ digest = sha1 content
  | .hashingAgain heap retained => readHeap content = .ok heap ∧ Calculated content retained.sizes
  | .storing heap retained digest =>
    readHeap content = .ok heap ∧ Calculated content retained.sizes ∧ digest = sha1 content
  | .returned heap result => readHeap content = .ok heap ∧ ∃ sizes, Calculated content sizes ∧ result.Shows sizes
  | .loading | .raised => True

/-- Where a Go run is with the bytes. -/
def GoRun.On (sha1 : List UInt8 → String) (content : List UInt8) : GoRun → Prop
  | .hashing value => load content = .ok value
  | .lookingUp value digest | .calculating value digest => load content = .ok value ∧ digest = sha1 content
  | .storing value retained digest =>
    load content = .ok value ∧ Calculated content (retained.sizes value) ∧ digest = sha1 content
  | .returned value retained =>
    load content = .ok value ∧ ∃ sizes, Calculated content sizes ∧ retained.Shows value sizes
  | .loading | .failed => True

/-- A new entry with the calculated sizes keeps the store right. -/
theorem Kept.store (h : Kept sha1 content files) {sizes : Sizes} {document : Json}
    (hcalculated : Calculated content sizes)
    (hholds : Holds document sizes) : Kept sha1 content (files.store (sha1 content) document) := by
  refine ⟨h.bytes, fun document' hentry => ?_⟩
  rw [Files.entry, Files.store, OrderedDict.find?_insert, if_pos rfl] at hentry
  cases hentry
  exact ⟨sizes, hcalculated, hholds⟩

/-- **A step of a Python run.** -/
theorem PythonRun.On.act {run : PythonRun} (h : run.On sha1 content) (hkept : Kept sha1 content files)
    (answer : Answer) :
    Kept sha1 content (run.act sha1 answer files).1 ∧ (run.act sha1 answer files).2.On sha1 content := by
  cases run with
  | loading =>
    rw [PythonRun.act, hkept.bytes]
    split
    · rename_i hloads
      exact ⟨hkept, hloads⟩
    · exact ⟨hkept, trivial⟩
  | hashing heap =>
    rw [PythonRun.act, hkept.bytes]
    split_ifs
    · exact ⟨hkept, h, rfl⟩
    · exact ⟨hkept, h⟩
  | lookingUp heap digest =>
    obtain ⟨hloads, rfl⟩ := h
    rw [PythonRun.act]
    split
    · rename_i retained hfound
      obtain ⟨document, hentry, hload⟩ := entry_of_pythonEntry hfound
      obtain ⟨sizes, hcalculated, hholds⟩ := hkept.entry document hentry
      exact ⟨hkept, hloads, sizes, hcalculated, hholds.shows hload⟩
    · exact ⟨hkept, hloads⟩
    · exact ⟨hkept, trivial⟩
  | calculating heap =>
    rw [PythonRun.act]
    split
    · rename_i retained hcalculates
      exact ⟨hkept, h, .python h hcalculates⟩
    · exact ⟨hkept, trivial⟩
  | hashingAgain heap retained =>
    obtain ⟨hloads, hcalculated⟩ := h
    rw [PythonRun.act, hkept.bytes]
    split_ifs
    · exact ⟨hkept, hloads, hcalculated, rfl⟩
    · exact ⟨hkept, hloads, _, hcalculated, rfl⟩
  | storing heap retained digest =>
    obtain ⟨hloads, hcalculated, rfl⟩ := h
    rw [PythonRun.act]
    refine ⟨?_, hloads, _, hcalculated, rfl⟩
    split_ifs
    · exact hkept.store hcalculated (Analyzer.holds_dump retained)
    · exact hkept
  | returned heap result => exact ⟨hkept, h⟩
  | raised => exact ⟨hkept, trivial⟩

/-- **A step of a Go run.** -/
theorem GoRun.On.act {run : GoRun} (h : run.On sha1 content) (hkept : Kept sha1 content files) (answer : Answer) :
    Kept sha1 content (run.act sha1 answer files).1 ∧ (run.act sha1 answer files).2.On sha1 content := by
  cases run with
  | loading =>
    rw [GoRun.act, hkept.bytes]
    split
    · rename_i hloads
      exact ⟨hkept, hloads⟩
    · exact ⟨hkept, trivial⟩
  | hashing value =>
    rw [GoRun.act, hkept.bytes]
    split_ifs
    · exact ⟨hkept, h, rfl⟩
    · exact ⟨hkept, trivial⟩
  | lookingUp value digest =>
    obtain ⟨hloads, rfl⟩ := h
    rw [GoRun.act]
    split
    · rename_i retained hfound
      obtain ⟨document, hentry, hload⟩ := entry_of_goEntry hfound
      obtain ⟨sizes, hcalculated, hholds⟩ := hkept.entry document hentry
      exact ⟨hkept, hloads, sizes, hcalculated, shows_of_loadRetainedCache (load_indexed hloads) hholds hload⟩
    · exact ⟨hkept, hloads, rfl⟩
  | calculating value digest =>
    obtain ⟨hloads, rfl⟩ := h
    rw [GoRun.act]
    split
    · rename_i retained hcalculates
      exact ⟨hkept, hloads, .go hloads hcalculates, rfl⟩
    · exact ⟨hkept, trivial⟩
  | storing value retained digest =>
    obtain ⟨hloads, hcalculated, rfl⟩ := h
    have hindexed := load_indexed hloads
    rw [GoRun.act]
    refine ⟨?_, hloads, _, hcalculated, hindexed.shows_sizes⟩
    split_ifs
    · exact hkept.store hcalculated (holds_retainedDocument hindexed)
    · exact hkept
  | returned value retained => exact ⟨hkept, h⟩
  | failed => exact ⟨hkept, trivial⟩

/-! ### What holds of a command -/

/-- What a Python command hands to `build_heap_analysis`. -/
def PythonHanded (content : List UInt8) (request : Request) (heap : Analyzer.Heap) (retained : Option CachedHeap) :
    Prop :=
  readHeap content = .ok heap ∧
    match request with
    | .summary => retained = none
    | .retainedHeap _ => ∃ shown sizes, retained = some shown ∧ shown.Shows sizes ∧ Calculated content sizes

/-- What a Go command hands to `BuildReport`. -/
def GoHanded (content : List UInt8) (request : Request) (value : Heap) (retained : Option RetainedHeap) : Prop :=
  load content = .ok value ∧
    match request with
    | .summary => retained = none
    | .retainedHeap _ => ∃ shown sizes, retained = some shown ∧ shown.Shows value sizes ∧ Calculated content sizes

section

variable (sha1 sha256 : List UInt8 → String) (content : List UInt8) (request : Request)

/-- Where a Python command is with the bytes; `summary` only loads the heap. -/
def PythonStage.On : PythonStage → Prop
  | .analyzing run => run.On sha1 content ∧ (request = .summary → run = .loading) ∧ run ≠ .raised
  | .hashing heap retained => PythonHanded content request heap retained
  | .measuring heap retained digest => PythonHanded content request heap retained ∧ digest = sha256 content
  | .printed report => ∃ heap retained, PythonHanded content request heap retained ∧
      Analyzer.buildHeapAnalysis (sha256 content) content.length heap retained request.topN = .ok report
  | .raised => True

/-- Where a Go command is with the bytes. -/
def GoStage.On : GoStage → Prop
  | .analyzing run => run.On sha1 content ∧ (request = .summary → run = .loading) ∧ run ≠ .failed
  | .hashing value retained => GoHanded content request value retained
  | .measuring value retained digest => GoHanded content request value retained ∧ digest = sha256 content
  | .printed report => ∃ value retained order sorter, GoHanded content request value retained ∧
      buildReport order sorter (sha256 content) content.length value retained request.topN = .ok report
  | .failed => True

/-- The command works on the artifact. -/
def Command.On : Command → Prop
  | .python request stage => stage.On sha1 sha256 content request
  | .go request stage => stage.On sha1 sha256 content request

end

/-- The report of a result shows its sizes. -/
theorem PythonResult.shows_toReport {result : PythonResult} {sizes : Sizes} (h : result.Shows sizes) :
    result.toReport.Shows sizes := by
  cases result with
  | loaded retained => exact h
  | calculated retained =>
    cases h
    exact Analyzer.shows_toReport retained

/-- Behind a step of the run. -/
theorem PythonStage.on_behind {run : PythonRun} (h : run.On sha1 content)
    (hsummary : request = .summary → (∃ heap, run = .hashing heap) ∨ run = .raised) :
    (PythonStage.behind request run).On sha1 sha256 content request := by
  cases request with
  | summary =>
    rcases hsummary rfl with ⟨heap, rfl⟩ | rfl
    · exact ⟨h, rfl⟩
    · trivial
  | retainedHeap topN =>
    cases run with
    | returned heap result =>
      obtain ⟨hloads, sizes, hcalculated, hshows⟩ := h
      exact ⟨hloads, _, sizes, rfl, result.shows_toReport hshows, hcalculated⟩
    | raised => trivial
    | _ => exact ⟨h, nofun, nofun⟩

/-- The stage behind a run stays on its artifact. -/
theorem GoStage.on_behind {run : GoRun} (h : run.On sha1 content)
    (hsummary : request = .summary → (∃ value, run = .hashing value) ∨ run = .failed) :
    (GoStage.behind request run).On sha1 sha256 content request := by
  cases request with
  | summary =>
    rcases hsummary rfl with ⟨value, rfl⟩ | rfl
    · exact ⟨h, rfl⟩
    · trivial
  | retainedHeap topN =>
    cases run with
    | returned value retained =>
      obtain ⟨hloads, sizes, hcalculated, hshows⟩ := h
      exact ⟨hloads, _, sizes, rfl, hshows, hcalculated⟩
    | failed => trivial
    | _ => exact ⟨h, nofun, nofun⟩

/-- The first step of a run loads the heap. -/
theorem PythonRun.act_loading (answer : Answer) (files : Files) :
    (∃ heap, (PythonRun.act sha1 answer files .loading).2 = .hashing heap) ∨
      (PythonRun.act sha1 answer files .loading).2 = .raised := by
  rw [PythonRun.act]
  split
  · exact .inl ⟨_, rfl⟩
  · exact .inr rfl

/-- A run that loads hashes next, or fails. -/
theorem GoRun.act_loading (answer : Answer) (files : Files) :
    (∃ value, (GoRun.act sha1 answer files .loading).2 = .hashing value) ∨
      (GoRun.act sha1 answer files .loading).2 = .failed := by
  rw [GoRun.act]
  split
  · exact .inl ⟨_, rfl⟩
  · exact .inr rfl

/-- **A step of a Python command.** -/
theorem PythonStage.On.act {stage : PythonStage} (h : stage.On sha1 sha256 content request)
    (hkept : Kept sha1 content files) (answer : CommandAnswer) :
    Kept sha1 content (stage.act sha1 sha256 answer files request).1 ∧
      (stage.act sha1 sha256 answer files request).2.On sha1 sha256 content request := by
  cases stage with
  | analyzing run =>
    obtain ⟨hkept', hrun⟩ := h.1.act hkept answer.toAnswer
    refine ⟨hkept', PythonStage.on_behind hrun fun hrequest => ?_⟩
    rw [h.2.1 hrequest]
    exact PythonRun.act_loading _ _
  | hashing heap retained =>
    rw [PythonStage.act, hkept.bytes]
    split_ifs
    · exact ⟨hkept, h, rfl⟩
    · exact ⟨hkept, trivial⟩
  | measuring heap retained digest =>
    obtain ⟨hhanded, rfl⟩ := h
    rw [PythonStage.act, hkept.bytes]
    split
    · rename_i report hreport
      exact ⟨hkept, heap, retained, hhanded, hreport⟩
    · exact ⟨hkept, trivial⟩
  | printed report => exact ⟨hkept, h⟩
  | raised => exact ⟨hkept, trivial⟩

/-- **A step of a Go command.** -/
theorem GoStage.On.act {stage : GoStage} (h : stage.On sha1 sha256 content request) (hkept : Kept sha1 content files)
    (walks : Walks) (answer : CommandAnswer) :
    Kept sha1 content (stage.act sha1 sha256 walks answer files request).1 ∧
      (stage.act sha1 sha256 walks answer files request).2.On sha1 sha256 content request := by
  cases stage with
  | analyzing run =>
    obtain ⟨hkept', hrun⟩ := h.1.act hkept answer.toAnswer
    refine ⟨hkept', GoStage.on_behind hrun fun hrequest => ?_⟩
    rw [h.2.1 hrequest]
    exact GoRun.act_loading _ _
  | hashing value retained =>
    rw [GoStage.act, hkept.bytes]
    split_ifs
    · exact ⟨hkept, h, rfl⟩
    · exact ⟨hkept, trivial⟩
  | measuring value retained digest =>
    obtain ⟨hhanded, rfl⟩ := h
    rw [GoStage.act, hkept.bytes]
    split
    · rename_i report hreport
      exact ⟨hkept, value, retained, _, _, hhanded, hreport⟩
    · exact ⟨hkept, trivial⟩
  | printed report => exact ⟨hkept, h⟩
  | failed => exact ⟨hkept, trivial⟩

/-- A step of a command stays on its artifact and keeps the store right. -/
theorem Command.On.act {command : Command} (h : command.On sha1 sha256 content) (hkept : Kept sha1 content files)
    (walks : Walks) (answer : CommandAnswer) :
    Kept sha1 content (command.act sha1 sha256 walks answer files).1 ∧
      ∀ command' ∈ (command.act sha1 sha256 walks answer files).2, command'.On sha1 sha256 content := by
  cases command with
  | python request stage =>
    obtain ⟨hkept', hstage⟩ := PythonStage.On.act h hkept answer
    exact ⟨hkept', List.forall_mem_singleton.2 hstage⟩
  | go request stage =>
    obtain ⟨hkept', hstage⟩ := GoStage.On.act h hkept walks answer
    exact ⟨hkept', List.forall_mem_singleton.2 hstage⟩

/-! ### What is printed -/

/-- An artifact that both readers accept: its container types differ, no dictionary has a
key twice, and a file can have this many bytes. -/
structure Readable (content : List UInt8) (heap : Analyzer.Heap) (value : Heap) : Prop where
  read : readHeap content = .ok heap
  load : load content = .ok value
  differ : ContainersDiffer content
  keys : value.KeysDistinct
  length : content.length < 2 ^ 63

/-- What a command needs of the artifact: `retained-heap` needs that the calculators agree. -/
def Answerable (heap : Analyzer.Heap) (value : Heap) (request : Request) : Prop :=
  request = .summary ∨ Comparable heap value

/-- What Python is handed is what its report is given. -/
theorem PythonHanded.given (hreadable : Readable content heap value) (hanswerable : Answerable heap value request)
    {heap' : Analyzer.Heap} {retained : Option CachedHeap} (h : PythonHanded content request heap' retained) :
    heap' = heap ∧ PythonGiven heap request retained := by
  obtain ⟨hread, h⟩ := h
  cases hreadable.read.symm.trans hread
  refine ⟨rfl, ?_⟩
  cases request with
  | summary => exact h
  | retainedHeap topN =>
    obtain ⟨shown, sizes, hshown, hshows, hcalculated⟩ := h
    have hcomparable := hanswerable.resolve_left fun hrequest => nomatch hrequest
    exact ⟨shown, sizes, hshown, hshows, hcalculated.right hreadable.read hreadable.load hcomparable⟩

/-- What Go is handed is what its report is given. -/
theorem GoHanded.given (hreadable : Readable content heap value) (hanswerable : Answerable heap value request)
    {value' : Heap} {retained : Option RetainedHeap} (h : GoHanded content request value' retained) :
    value' = value ∧ GoGiven heap value request retained := by
  obtain ⟨hload, h⟩ := h
  cases hreadable.load.symm.trans hload
  refine ⟨rfl, ?_⟩
  cases request with
  | summary => exact h
  | retainedHeap topN =>
    obtain ⟨shown, sizes, hshown, hshows, hcalculated⟩ := h
    have hcomparable := hanswerable.resolve_left fun hrequest => nomatch hrequest
    exact ⟨shown, sizes, hshown, hshows, hcalculated.right hreadable.read hreadable.load hcomparable⟩

/-- Both build functions make the document. -/
theorem PythonHanded.documents (sha256 : List UInt8 → String) (hreadable : Readable content heap value)
    (hanswerable : Answerable heap value request)
    {heap' : Analyzer.Heap} {retained : Option CachedHeap} (h : PythonHanded content request heap' retained) :
    ∃ report, Analyzer.buildHeapAnalysis (sha256 content) content.length heap' retained request.topN = .ok report ∧
      Documents sha256 content heap request report := by
  obtain ⟨rfl, hgiven⟩ := h.given hreadable hanswerable
  exact document_of_python hreadable.read hreadable.differ hgiven

/-- What Go is handed is reported as the document of the artifact. -/
theorem GoHanded.documents (sha256 : List UInt8 → String) (hreadable : Readable content heap value)
    (hanswerable : Answerable heap value request)
    {value' : Heap} {retained : Option RetainedHeap} (h : GoHanded content request value' retained) (order : RangeOrder)
    (sorter : FreeSort) :
    ∃ report, buildReport order sorter (sha256 content) content.length value' retained request.topN = .ok report ∧
      Documents sha256 content heap request report := by
  obtain ⟨rfl, hgiven⟩ := h.given hreadable hanswerable
  have hlength := hreadable.length
  exact document_of_go order sorter hreadable.read hreadable.load hreadable.differ (by omega) hreadable.keys hgiven

/-- **What a command has printed** is the document. -/
theorem Command.On.documents (hreadable : Readable content heap value) {command : Command}
    (h : command.On sha1 sha256 content) (hanswerable : Answerable heap value command.request) {report : Report}
    (hprinted : command.printed = some report) : Documents sha256 content heap command.request report := by
  cases command with
  | python request stage =>
    cases stage with
    | printed report' =>
      cases hprinted
      obtain ⟨heap', retained, hhanded, hbuilt⟩ := h
      obtain ⟨report'', hbuilt', hdocuments⟩ := hhanded.documents sha256 hreadable hanswerable
      cases hbuilt.symm.trans hbuilt'
      exact hdocuments
    | _ => cases hprinted
  | go request stage =>
    cases stage with
    | printed report' =>
      cases hprinted
      obtain ⟨value', retained, order, sorter, hhanded, hbuilt⟩ := h
      obtain ⟨report'', hbuilt', hdocuments⟩ := hhanded.documents sha256 hreadable hanswerable order sorter
      cases hbuilt.symm.trans hbuilt'
      exact hdocuments
    | _ => cases hprinted

/-! ### What does not fail -/

/-- The calls of the file system succeed, and the Python interpreter reads its own documents. -/
def Reliable (answer : CommandAnswer) (_ : Files) (_ : Command) : Prop := answer.succeeds = true ∧ answer.python.Sound

/-- **An entry with the right sizes** is loaded. -/
theorem loadCache_of_right (hread : readHeap content = .ok heap) {python : Analyzer.Interpreter}
    (hpython : python.Sound)
    {sizes : Sizes} (hright : RightSizes heap sizes) {document : Json} (hholds : Holds document sizes) :
    ∃ loaded, Analyzer.loadCache python (.document document) = .ok (some loaded) := by
  obtain ⟨objects, threads, rfl, hobjects, hthreads⟩ := hholds
  have haddresses : ∀ a ∈ objects.keys, a < 2 ^ 64 := by
    intro a ha
    obtain ⟨size, hsize⟩ := OrderedDict.exists_find?_of_mem_keys ha
    rw [hobjects] at hsize
    exact Analyzer.address_lt_of_readHeap hread a (hright.known a size hsize)
  have hobjectSizes : ∀ entry ∈ objects.entries, entry.2 < 2 ^ 64 := by
    intro entry hentry
    have hsize := OrderedDict.find?_eq_some.2 hentry
    rw [hobjects] at hsize
    have hobject := hright.objects _ (hright.known _ _ hsize)
    rw [hsize] at hobject
    rw [Option.some.inj hobject]
    exact (bounded_of_readHeap hread).weight_lt _
  have hthreadSizes : ∀ entry ∈ threads.entries, entry.2 < 2 ^ 64 := by
    intro entry hentry
    have hsize := OrderedDict.find?_eq_some.2 hentry
    rw [hthreads] at hsize
    obtain ⟨i, last, hlast, hname⟩ := hright.named _ _ hsize
    have hthread := hright.threads i last hlast
    rw [hname, hsize] at hthread
    rw [Option.some.inj hthread, Analyzer.threadRetained_eq]
    exact (bounded_of_readHeap hread).weight_lt _
  obtain ⟨loaded, hload, -⟩ :=
    Analyzer.loadCache_cacheEntry hpython objects threads haddresses hobjectSizes hthreadSizes
  exact ⟨loaded, hload⟩

/-- **A reliable step of a Python run** does not raise. -/
theorem PythonRun.On.unraised (hreadable : Readable content heap value) {run : PythonRun} (h : run.On sha1 content)
    (hkept : Kept sha1 content files) (hcomparable : run ≠ .loading → Comparable heap value) {answer : Answer}
    (hsucceeds : answer.succeeds = true) (hpython : answer.python.Sound) (hrun : run ≠ .raised) :
    (run.act sha1 answer files).2 ≠ .raised := by
  cases run with
  | loading =>
    rw [PythonRun.act, hkept.bytes, hsucceeds, hreadable.read]
    intro h
    cases h
  | hashing heap' =>
    rw [PythonRun.act, if_pos hsucceeds]
    intro h
    cases h
  | lookingUp heap' digest =>
    obtain ⟨hloads, rfl⟩ := h
    have hfound : ∃ found, pythonEntry answer files (sha1 content) = .ok found := by
      rw [pythonEntry, if_pos hsucceeds]
      cases hentry : files.entry (sha1 content) with
      | missing => exact ⟨none, rfl⟩
      | malformed => exact ⟨none, rfl⟩
      | document document =>
        obtain ⟨sizes, hcalculated, hholds⟩ := hkept.entry document hentry
        have hright := hcalculated.right hreadable.read hreadable.load (hcomparable fun h => by cases h)
        obtain ⟨loaded, hload⟩ := loadCache_of_right hreadable.read hpython hright hholds
        exact ⟨some loaded, hload⟩
    obtain ⟨found, hfound⟩ := hfound
    rw [PythonRun.act, hfound]
    cases found with
    | none => exact fun h => by cases h
    | some retained => exact fun h => by cases h
  | calculating heap' =>
    cases hreadable.read.symm.trans h
    obtain ⟨retained, hcalculates, -⟩ :=
      Analyzer.calculateRetained_ok answer.orders (hcomparable fun h => by cases h).locals (le_refl heap.rounds)
    rw [PythonRun.act, hcalculates]
    intro h
    cases h
  | hashingAgain heap' retained =>
    rw [PythonRun.act, if_pos hsucceeds]
    intro h
    cases h
  | storing heap' retained digest => exact fun h => by cases h
  | returned heap' result => exact fun h => by cases h
  | raised => exact absurd rfl hrun

/-- **A reliable step of a Go run** does not fail. -/
theorem GoRun.On.unfailed (hreadable : Readable content heap value) {run : GoRun} (h : run.On sha1 content)
    (hkept : Kept sha1 content files) (hcomparable : run ≠ .loading → Comparable heap value) {answer : Answer}
    (hsucceeds : answer.succeeds = true) (hrun : run ≠ .failed) : (run.act sha1 answer files).2 ≠ .failed := by
  cases run with
  | loading =>
    rw [GoRun.act, hkept.bytes, hsucceeds, hreadable.load]
    intro h
    cases h
  | hashing value' =>
    rw [GoRun.act, if_pos hsucceeds]
    intro h
    cases h
  | lookingUp value' digest =>
    rw [GoRun.act]
    split
    · intro h
      cases h
    · intro h
      cases h
  | calculating value' digest =>
    cases hreadable.load.symm.trans h.1
    obtain ⟨retained, hcalculates, -⟩ := calculateRetainedHeap_ok (readers_alike hreadable.read hreadable.load)
      (bounded_of_readHeap hreadable.read) (hcomparable fun h => by cases h).fits answer.goOrders (le_refl value.rounds)
    rw [GoRun.act, hcalculates]
    intro h
    cases h
  | storing value' retained digest => exact fun h => by cases h
  | returned value' retained => exact fun h => by cases h
  | failed => exact absurd rfl hrun

/-- Only a run that has failed makes a command fail. -/
theorem PythonStage.behind_ne {run : PythonRun} (h : run ≠ .raised) : PythonStage.behind request run ≠ .raised := by
  cases request with
  | summary =>
    cases run with
    | raised => exact absurd rfl h
    | _ => nofun
  | retainedHeap topN =>
    cases run with
    | raised => exact absurd rfl h
    | _ => nofun

/-- A run that has not failed is no failed stage. -/
theorem GoStage.behind_ne {run : GoRun} (h : run ≠ .failed) : GoStage.behind request run ≠ .failed := by
  cases request with
  | summary =>
    cases run with
    | failed => exact absurd rfl h
    | _ => nofun
  | retainedHeap topN =>
    cases run with
    | failed => exact absurd rfl h
    | _ => nofun

/-- A run behind its first step belongs to `retained-heap`. -/
theorem comparable_of_answerable (hanswerable : Answerable heap value request) {loading : Prop}
    (hsummary : request = .summary → loading) (hloading : ¬loading) : Comparable heap value :=
  hanswerable.resolve_left fun hrequest => hloading (hsummary hrequest)

/-- **A reliable step** of a command that has not failed does not fail. -/
theorem PythonStage.On.unraised (hreadable : Readable content heap value) {stage : PythonStage}
    (h : stage.On sha1 sha256 content request) (hkept : Kept sha1 content files)
    (hanswerable : Answerable heap value request) (hsucceeds : answer.succeeds = true) (hpython : answer.python.Sound)
    (hstage : stage ≠ .raised) : (stage.act sha1 sha256 answer files request).2 ≠ .raised := by
  cases stage with
  | analyzing run =>
    obtain ⟨hrun, hsummary, hraised⟩ := h
    exact PythonStage.behind_ne (hrun.unraised hreadable hkept (comparable_of_answerable hanswerable hsummary) hsucceeds
      hpython hraised)
  | hashing heap' retained =>
    rw [PythonStage.act, if_pos hsucceeds]
    nofun
  | measuring heap' retained digest =>
    obtain ⟨hhanded, rfl⟩ := h
    obtain ⟨report, hreport, -⟩ := hhanded.documents sha256 hreadable hanswerable
    rw [PythonStage.act, hkept.bytes, hsucceeds, hreport]
    nofun
  | printed report => nofun
  | raised => exact absurd rfl hstage

/-- A stage that has not failed does not fail. -/
theorem GoStage.On.unfailed (hreadable : Readable content heap value) {stage : GoStage}
    (h : stage.On sha1 sha256 content request) (hkept : Kept sha1 content files)
    (hanswerable : Answerable heap value request) (walks : Walks) (hsucceeds : answer.succeeds = true)
    (hstage : stage ≠ .failed) : (stage.act sha1 sha256 walks answer files request).2 ≠ .failed := by
  cases stage with
  | analyzing run =>
    obtain ⟨hrun, hsummary, hfailed⟩ := h
    exact GoStage.behind_ne (hrun.unfailed hreadable hkept (comparable_of_answerable hanswerable hsummary) hsucceeds
      hfailed)
  | hashing value' retained =>
    rw [GoStage.act, if_pos hsucceeds]
    nofun
  | measuring value' retained digest =>
    obtain ⟨hhanded, rfl⟩ := h
    obtain ⟨report, hreport, -⟩ := hhanded.documents sha256 hreadable hanswerable (walks.order answer.occasion)
      (walks.sorter answer.occasion)
    rw [GoStage.act, hkept.bytes, hsucceeds, hreport]
    nofun
  | printed report => nofun
  | failed => exact absurd rfl hstage

/-- A command of Python has failed if it has raised. -/
theorem Command.failed_python {stage : PythonStage} :
    (Command.python request stage).failed = false ↔ stage ≠ .raised := by
  cases stage with
  | raised => exact ⟨nofun, fun h => absurd rfl h⟩
  | _ => exact ⟨nofun, fun _ => rfl⟩

/-- A command of Go has failed if its stage says so. -/
theorem Command.failed_go {stage : GoStage} : (Command.go request stage).failed = false ↔ stage ≠ .failed := by
  cases stage with
  | failed => exact ⟨nofun, fun h => absurd rfl h⟩
  | _ => exact ⟨nofun, fun _ => rfl⟩

/-- A command that has not failed does not fail. -/
theorem Command.On.unfailed (hreadable : Readable content heap value) {command : Command}
    (h : command.On sha1 sha256 content)
    (hkept : Kept sha1 content files) (hanswerable : Answerable heap value command.request) (walks : Walks)
    (hreliable : Reliable answer files command) (hcommand : command.failed = false) :
    ∀ command' ∈ (command.act sha1 sha256 walks answer files).2, command'.failed = false := by
  obtain ⟨hsucceeds, hpython⟩ := hreliable
  cases command with
  | python request stage =>
    exact List.forall_mem_singleton.2 (Command.failed_python.2
      (PythonStage.On.unraised hreadable h hkept hanswerable hsucceeds hpython (Command.failed_python.1 hcommand)))
  | go request stage =>
    exact List.forall_mem_singleton.2 (Command.failed_go.2
      (GoStage.On.unfailed hreadable h hkept hanswerable walks hsucceeds (Command.failed_go.1 hcommand)))

/-! ### When a command ends -/

/-- How many steps a run takes at most until it has ended, and two more. -/
def PythonRun.stepsLeft : PythonRun → ℕ
  | .loading => 8
  | .hashing _ => 7
  | .lookingUp _ _ => 6
  | .calculating _ => 5
  | .hashingAgain _ _ => 4
  | .storing _ _ _ | .returned _ _ | .raised => 3

/-- A bound on the steps of a run. -/
def GoRun.stepsLeft : GoRun → ℕ
  | .loading => 7
  | .hashing _ => 6
  | .lookingUp _ _ => 5
  | .calculating _ _ => 4
  | .storing _ _ _ | .returned _ _ | .failed => 3

/-- How many steps a command takes at most until it has ended. -/
def PythonStage.stepsLeft : PythonStage → ℕ
  | .analyzing run => run.stepsLeft
  | .hashing _ _ => 2
  | .measuring _ _ _ => 1
  | .printed _ | .raised => 0

/-- A bound on the steps of a stage. -/
def GoStage.stepsLeft : GoStage → ℕ
  | .analyzing run => run.stepsLeft
  | .hashing _ _ => 2
  | .measuring _ _ _ => 1
  | .printed _ | .failed => 0

/-- A bound on the steps of a command. -/
def Command.stepsLeft : Command → ℕ
  | .python _ stage => stage.stepsLeft
  | .go _ stage => stage.stepsLeft

/-- **A command has ended** when it has printed or failed. -/
theorem Command.stepsLeft_eq_zero {command : Command} :
    command.stepsLeft = 0 ↔ command.printed.isSome = true ∨ command.failed = true := by
  cases command with
  | python request stage =>
    cases stage with
    | analyzing run => cases run <;> simp [stepsLeft, PythonStage.stepsLeft, PythonRun.stepsLeft, printed, failed]
    | _ => simp [stepsLeft, PythonStage.stepsLeft, printed, failed]
  | go request stage =>
    cases stage with
    | analyzing run => cases run <;> simp [stepsLeft, GoStage.stepsLeft, GoRun.stepsLeft, printed, failed]
    | _ => simp [stepsLeft, GoStage.stepsLeft, printed, failed]

/-- A step of Python's run brings it closer to its end. -/
theorem PythonRun.stepsLeft_act (answer : Answer) (files : Files) (run : PythonRun) :
    (PythonStage.behind request (run.act sha1 answer files).2).stepsLeft < run.stepsLeft := by
  cases run with
  | returned heap result => cases request <;> simp [act, PythonStage.behind, PythonStage.stepsLeft, stepsLeft]
  | raised => cases request <;> simp [act, PythonStage.behind, PythonStage.stepsLeft, stepsLeft]
  | _ =>
    rw [PythonRun.act]
    split <;> cases request <;> simp [PythonStage.behind, PythonStage.stepsLeft, stepsLeft]

/-- A step of Go's run brings it closer to its end. -/
theorem GoRun.stepsLeft_act (answer : Answer) (files : Files) (run : GoRun) :
    (GoStage.behind request (run.act sha1 answer files).2).stepsLeft < run.stepsLeft := by
  cases run with
  | returned value retained => cases request <;> simp [act, GoStage.behind, GoStage.stepsLeft, stepsLeft]
  | failed => cases request <;> simp [act, GoStage.behind, GoStage.stepsLeft, stepsLeft]
  | _ =>
    rw [GoRun.act]
    split <;> cases request <;> simp [GoStage.behind, GoStage.stepsLeft, stepsLeft]

/-- **Every step** of a command that has not ended brings it nearer to its end. -/
theorem Command.stepsLeft_act (sha1 sha256 : List UInt8 → String) (walks : Walks) (answer : CommandAnswer)
    (files : Files) {command : Command} (h : command.stepsLeft ≠ 0) :
    ∀ command' ∈ (command.act sha1 sha256 walks answer files).2, command'.stepsLeft < command.stepsLeft := by
  cases command with
  | python request stage =>
    refine List.forall_mem_singleton.2 ?_
    cases stage with
    | analyzing run => exact run.stepsLeft_act answer.toAnswer files
    | hashing heap retained =>
      show (PythonStage.stepsLeft _) < 2
      rw [PythonStage.act]
      split <;> simp [PythonStage.stepsLeft]
    | measuring heap retained digest =>
      show (PythonStage.stepsLeft _) < 1
      rw [PythonStage.act]
      split <;> simp [PythonStage.stepsLeft]
    | printed report => exact absurd rfl h
    | raised => exact absurd rfl h
  | go request stage =>
    refine List.forall_mem_singleton.2 ?_
    cases stage with
    | analyzing run => exact run.stepsLeft_act answer.toAnswer files
    | hashing value retained =>
      show (GoStage.stepsLeft _) < 2
      rw [GoStage.act]
      split <;> simp [GoStage.stepsLeft]
    | measuring value retained digest =>
      show (GoStage.stepsLeft _) < 1
      rw [GoStage.act]
      split <;> simp [GoStage.stepsLeft]
    | printed report => exact absurd rfl h
    | failed => exact absurd rfl h

/-- A command has at most eight steps left. -/
theorem Command.stepsLeft_le (command : Command) : command.stepsLeft ≤ 8 := by
  cases command with
  | python request stage =>
    cases stage with
    | analyzing run => cases run <;> simp [stepsLeft, PythonStage.stepsLeft, PythonRun.stepsLeft]
    | _ => simp [stepsLeft, PythonStage.stepsLeft]
  | go request stage =>
    cases stage with
    | analyzing run => cases run <;> simp [stepsLeft, GoStage.stepsLeft, GoRun.stepsLeft]
    | _ => simp [stepsLeft, GoStage.stepsLeft]

/-! ### Every run -/

/-- A command begins with nothing known. -/
theorem Command.Begins.on {command : Command} (h : command.Begins) : command.On sha1 sha256 content := by
  cases command with
  | python request stage =>
    cases h
    exact ⟨trivial, fun _ => rfl, nofun⟩
  | go request stage =>
    cases h
    exact ⟨trivial, fun _ => rfl, nofun⟩

/-- A command begins without a failure. -/
theorem Command.Begins.unfailed {command : Command} (h : command.Begins) : command.failed = false := by
  cases command with
  | python request stage =>
    cases h
    rfl
  | go request stage =>
    cases h
    rfl

/-- A command stays with what it was asked. -/
theorem Command.request_act {command command' : Command}
    (h : command' ∈ (command.act sha1 sha256 walks answer files).2) : command'.request = command.request := by
  cases command with
  | python request stage => rw [List.mem_singleton.1 h]; rfl
  | go request stage => rw [List.mem_singleton.1 h]; rfl

/-- **Every command prints the document of the artifact.**  Any number of commands of both
analyzers run on one artifact that both readers accept, over one directory of cache entries,
in whatever order they take their steps: what a command prints is the one document for what
it was asked, whoever has calculated the sizes.  `retained-heap` needs that the calculators
agree on the artifact.  Where the file system is reliable no command fails, and every step
brings a command nearer to its end. -/
theorem commands_conform (hreadable : Readable content heap value) (hkept : Kept sha1 content files)
    {c : Config Files Command} (hrun : Run (commands sha1 sha256 walks) Any ⟨files, []⟩ c) :
    (∀ command ∈ c.tasks, Answerable heap value command.request → ∀ report, command.printed = some report →
      Documents sha256 content heap command.request report ∧
        ∀ other, Documents sha256 content heap command.request other → other = report) ∧
    (Run (commands sha1 sha256 walks) Reliable ⟨files, []⟩ c → ∀ command ∈ c.tasks,
      Answerable heap value command.request → command.failed = false) ∧
    ∀ command ∈ c.tasks, (command.stepsLeft = 0 ↔ command.printed.isSome = true ∨ command.failed = true) ∧
      command.stepsLeft ≤ 8 ∧ (command.stepsLeft ≠ 0 → ∀ answer files', ∀ command' ∈
        (command.act sha1 sha256 walks answer files').2, command'.stepsLeft < command.stepsLeft) := by
  refine ⟨fun command hcommand hanswerable report hprinted => ?_, fun hreliable command hcommand hanswerable => ?_,
    fun command _ => ⟨Command.stepsLeft_eq_zero, command.stepsLeft_le, fun hleft answer files' =>
      Command.stepsLeft_act sha1 sha256 walks answer files' hleft⟩⟩
  · have hon : ∀ command ∈ c.tasks, command.On sha1 sha256 content :=
      (hrun.shared_and_tasks (K := Kept sha1 content) (fun _ hbegins => hbegins.on)
        (fun answer files command _ hkept hon => hon.act hkept walks answer) hkept
        fun _ htask => absurd htask List.not_mem_nil).2
    have hdocuments := (hon command hcommand).documents hreadable hanswerable hprinted
    exact ⟨hdocuments, fun other hother => hother.unique hdocuments⟩
  · have hboth : ∀ command ∈ c.tasks, command.On sha1 sha256 content ∧
        (Answerable heap value command.request → command.failed = false) := by
      refine (hreliable.shared_and_tasks (K := Kept sha1 content)
        (fun _ hbegins => ⟨hbegins.on, fun _ => hbegins.unfailed⟩)
        (fun answer files command hanswer hkept hcommand => ?_) hkept fun _ htask => absurd htask List.not_mem_nil).2
      obtain ⟨hon, hunfailed⟩ := hcommand
      obtain ⟨hkept', hon'⟩ := hon.act hkept walks answer
      refine ⟨hkept', fun command' hcommand' => ⟨hon' command' hcommand', fun hanswerable => ?_⟩⟩
      rw [Command.request_act hcommand'] at hanswerable
      exact hon.unfailed hreadable hkept hanswerable walks hanswer (hunfailed hanswerable) command' hcommand'
    exact (hboth command hcommand).2 hanswerable

/-! ### Two commands on one artifact -/

/-- The analyzer of a command. -/
def Command.isPython : Command → Bool
  | .python _ _ => true
  | .go _ _ => false

/-- What a command becomes. -/
theorem Command.exists_act (sha1 sha256 : List UInt8 → String) (walks : Walks) (answer : CommandAnswer) (files : Files)
    (command : Command) : ∃ command', (command.act sha1 sha256 walks answer files).2 = [command'] ∧
      command'.request = command.request ∧ command'.isPython = command.isPython := by
  cases command with
  | python request stage => exact ⟨_, rfl, rfl, rfl⟩
  | go request stage => exact ⟨_, rfl, rfl, rfl⟩

/-- **A command can go on to its end**, whatever the others wait for. -/
theorem exists_ended {allowed : CommandAnswer → Files → Command → Prop}
    (hallowed : ∀ files command, allowed answer files command)
    (files : Files) (before : List Command) (command : Command) (after : List Command) :
    ∃ files' command', Run (commands sha1 sha256 walks) allowed ⟨files, before ++ command :: after⟩
      ⟨files', before ++ command' :: after⟩ ∧ command'.stepsLeft = 0 ∧ command'.request = command.request ∧
        command'.isPython = command.isPython := by
  induction hleft : command.stepsLeft using Nat.strong_induction_on generalizing files command with
  | _ left ih =>
    by_cases hended : command.stepsLeft = 0
    · exact ⟨files, command, Relation.ReflTransGen.refl, hended, rfl, rfl⟩
    · obtain ⟨next, hnext, hrequest, hpython⟩ := command.exists_act sha1 sha256 walks answer files
      have hfewer :=
        Command.stepsLeft_act sha1 sha256 walks answer files hended next (by rw [hnext]; exact List.mem_cons_self)
      obtain ⟨files', command', hrun, hzero, hrequest', hpython'⟩ :=
        ih next.stepsLeft (hleft ▸ hfewer) (command.act sha1 sha256 walks answer files).1 next rfl
      have hstep := @Interleaving.Step.act _ _ _ (commands sha1 sha256 walks) allowed answer files before command after
        (hallowed files command)
      have hact : ((commands sha1 sha256 walks).act answer files command).2 = [next] := hnext
      rw [hact] at hstep
      exact ⟨files', command', hrun.head hstep, hzero, hrequest'.trans hrequest, hpython'.trans hpython⟩

/-- A string behind its length. -/
def lengthAndText (s : String) : List UInt8 := BigEndian.encode 2 s.toUTF8.toList.length ++ s.toUTF8.toList

/-- The artifact of a thread with a list, which holds a number. -/
def listArtifact : List UInt8 :=
  BigEndian.encode 8 magic ++ BigEndian.encode 4 formatVersion ++ lengthAndText "now" ++ BigEndian.encode 8 1 ++
    (BigEndian.encode 4 4 ++ [("dict", 101), ("list", 102), ("set", 103), ("tuple", 104)].flatMap fun entry =>
      lengthAndText entry.1 ++ BigEndian.encode 8 entry.2) ++
    (BigEndian.encode 4 1 ++ lengthAndText "main" ++ [1, 0] ++ BigEndian.encode 4 1 ++ lengthAndText "main.py" ++
      BigEndian.encode 4 7 ++ lengthAndText "run" ++ BigEndian.encode 4 1 ++ lengthAndText "x" ++
        BigEndian.encode 8 1) ++
    -- no frequent attribute, no common type
    (BigEndian.encode 4 0 ++ BigEndian.encode 4 0) ++
    (BigEndian.encode 4 2 ++
      (BigEndian.encode 8 1 ++ BigEndian.encode 8 102 ++ BigEndian.encode 4 56 ++ BigEndian.encode 4 1 ++
        BigEndian.encode 8 2 ++ BigEndian.encode 4 0 ++ BigEndian.encode 4 0) ++
      (BigEndian.encode 8 2 ++ BigEndian.encode 8 105 ++ BigEndian.encode 4 8 ++ BigEndian.encode 4 0 ++
        BigEndian.encode 4 0 ++ lengthAndText "7")) ++
    (BigEndian.encode 4 2 ++ BigEndian.encode 8 102 ++ lengthAndText "list" ++ BigEndian.encode 8 105 ++
      lengthAndText "int") ++
    BigEndian.encode 8 magic

/-- What a check of a value that was returned has found. -/
theorem exists_of_map {ε α : Type} {run : Except ε α} {check : α → Bool} (h : run.map check = .ok true) :
    ∃ a, run = .ok a ∧ check a = true := by
  cases run with
  | error e => cases h
  | ok a => exact ⟨a, rfl, Except.ok.inj h⟩

/-- Both readers accept the sample artifact, and its sizes are comparable. -/
theorem listArtifact_readable : ∃ heap value, Readable listArtifact heap value ∧ Comparable heap value := by
  have hdiffer : ContainersDiffer listArtifact := by
    intro header off hheader known hknown
    have hfound : (Analyzer.readHeader listArtifact 0).map
        (fun r => decide (ContainerTypes.ofKnown r.1.wellKnownTypes = .ok ⟨101, 102, 103, 104⟩)) = .ok true := by
      decide +kernel
    rw [hheader] at hfound
    cases (of_decide_eq_true (Except.ok.inj hfound)).symm.trans hknown
    simp [ContainerTypes.Distinct]
  obtain ⟨heap, hread, hcheck⟩ := @exists_of_map _ _ (readHeap listArtifact) (fun heap => decide
    ((∀ thread ∈ heap.threads, ∀ a ∈ thread.locals, a ∈ heap.nodes) ∧ heap.nodes.card ≤ 2 ^ 32 ∧
      heap.threads.length = 1))
    (by decide +kernel)
  obtain ⟨value, hload, hkeys⟩ := @exists_of_map _ _ (load listArtifact) (fun value => decide
    (∀ object ∈ value.objects, (object.dict.map Prod.fst).Nodup)) (by decide +kernel)
  obtain ⟨hlocals, hnodes, hthreads⟩ := of_decide_eq_true hcheck
  have hdistinct : value.KeysDistinct :=
    of_decide_eq_true (p := ∀ object ∈ value.objects, (object.dict.map Prod.fst).Nodup) hkeys
  refine ⟨heap, value, ⟨hread, hload, hdiffer, hdistinct, by decide +kernel⟩, hlocals,
    (readers_alike hread hload).fitsIndex hlocals hnodes, ?_⟩
  -- the only thread has no twin
  rintro i thread hlast ⟨j, twin, hji, hj, -⟩
  have hi := (List.getElem?_eq_some_iff.1 hlast.1).1
  have hj := (List.getElem?_eq_some_iff.1 hj).1
  omega

/-- A command that has ended without an error has printed. -/
theorem Command.eq_of_ended {command : Command} (hzero : command.stepsLeft = 0) (hunfailed : command.failed = false) :
    ∃ report, command.printed = some report ∧
      command = if command.isPython then .python command.request (.printed report) else .go command.request
        (.printed report) := by
  have hprinted :=
    (Command.stepsLeft_eq_zero.1 hzero).resolve_right fun hfailed => by rw [hunfailed] at hfailed; cases hfailed
  obtain ⟨report, hreport⟩ := Option.isSome_iff_exists.1 hprinted
  refine ⟨report, hreport, ?_⟩
  cases command with
  | python request stage =>
    cases stage with
    | printed report' =>
      cases hreport
      rfl
    | _ => cases hreport
  | go request stage =>
    cases stage with
    | printed report' =>
      cases hreport
      rfl
    | _ => cases hreport

/-- The commands over digests that do not differ, in the orders of insertion. -/
def sampleCommands : Interleaving.Program Files Command CommandAnswer :=
  commands (fun _ => "da39a3ee") (fun _ => "e3b0c442") ⟨fun _ => .inserted, fun _ => .stable⟩

/-- Go prints what Python prints. -/
theorem commands_conform_list :
    ∃ files report, Run sampleCommands Reliable ⟨⟨listArtifact, .empty⟩, []⟩
      ⟨files, [.python (.retainedHeap 5) (.printed report), .go (.retainedHeap 5) (.printed report)]⟩ := by
  obtain ⟨heap, value, hreadable, hcomparable⟩ := listArtifact_readable
  have hkept : Kept (fun _ => "da39a3ee") listArtifact ⟨listArtifact, .empty⟩ := ⟨rfl, fun _ hentry => nomatch hentry⟩
  have hreliable : ∀ files command, Reliable ⟨calm, 0⟩ files command := fun _ _ => ⟨rfl, by decide, by decide⟩
  have henter : ∀ command : Command, command.Begins → ∀ files commands,
      Interleaving.Step sampleCommands Reliable ⟨files, commands⟩ ⟨files, command :: commands⟩ :=
    fun command hbegins files commands => .enter files commands command hbegins
  have hbegin : Run sampleCommands Reliable ⟨⟨listArtifact, .empty⟩, []⟩
      ⟨⟨listArtifact, .empty⟩, [.python (.retainedHeap 5) (.analyzing .loading),
        .go (.retainedHeap 5) (.analyzing .loading)]⟩ :=
    (Relation.ReflTransGen.single (henter (.go (.retainedHeap 5) (.analyzing .loading)) rfl _ [])).tail
      (henter (.python (.retainedHeap 5) (.analyzing .loading)) rfl _ _)
  obtain ⟨files, first, hfirst, hzero, hrequest, hpython⟩ := exists_ended hreliable ⟨listArtifact, .empty⟩ []
    (.python (.retainedHeap 5) (.analyzing .loading)) [.go (.retainedHeap 5) (.analyzing .loading)]
  obtain ⟨files', second, hsecond, hzero', hrequest', hpython'⟩ := exists_ended hreliable files [first]
    (.go (.retainedHeap 5) (.analyzing .loading)) []
  have hrun : Run sampleCommands Reliable ⟨⟨listArtifact, .empty⟩, []⟩ ⟨files', [first, second]⟩ :=
    (hbegin.trans hfirst).trans hsecond
  obtain ⟨hdocuments, hunfailed, -⟩ := commands_conform hreadable hkept hrun.any
  have hfirstMem : first ∈ [first, second] := List.mem_cons_self
  have hsecondMem : second ∈ [first, second] := List.mem_cons_of_mem _ List.mem_cons_self
  obtain ⟨report, hprinted, heq⟩ := Command.eq_of_ended hzero (hunfailed hrun first hfirstMem (.inr hcomparable))
  obtain ⟨report', hprinted', heq'⟩ := Command.eq_of_ended hzero' (hunfailed hrun second hsecondMem (.inr hcomparable))
  obtain ⟨hdocument, -⟩ := hdocuments first hfirstMem (.inr hcomparable) report hprinted
  obtain ⟨-, hunique⟩ := hdocuments second hsecondMem (.inr hcomparable) report' hprinted'
  rw [hrequest] at hdocument heq
  rw [hrequest'] at hunique heq'
  rw [hpython] at heq
  rw [hpython'] at heq'
  cases hunique report hdocument
  refine ⟨files', report, ?_⟩
  rw [heq, heq'] at hrun
  exact hrun

end Go
end Pydump
